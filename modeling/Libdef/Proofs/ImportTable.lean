import Mathlib.Order.Bounds.Basic
import Libdef.Proofs.Imports

set_option autoImplicit false

namespace Libdef

namespace Imports

/-- The table with one more request granted. A report asks nothing of it. -/
def grant (imports : Imports) : Request → Imports
  | .name name module => (imports.insertName name module).1
  | .binding name module => imports.addBinding name module
  | .report _ => imports

def ofRequests (requests : List Request) : Imports := requests.foldl grant {}

end Imports

theorem Conversion.imports_grants (c : Conversion) (requests : List Request) :
    (requests.foldl Conversion.grant c).imports = requests.foldl Imports.grant c.imports := by
  have hstep (c : Conversion) (request : Request) :
      (c.grant request).imports = c.imports.grant request := by cases request <;> rfl
  induction requests generalizing c with
  | nil => rfl
  | cons request rest ih => rw [List.foldl_cons, List.foldl_cons, ih, hstep]

variable {requests : List Request}

theorem Import.Answers.binding_eq_none_iff {i : Import} (h : i.Answers requests) :
    i.binding = none ↔ ∀ n, .binding n i.module ∉ requests := by
  refine ⟨fun hnone n hn => ?_, fun hnever => Option.eq_none_iff_forall_not_mem.mpr fun n hn => ?_⟩
  · obtain ⟨m, hm, -⟩ := h.binding_le n hn
    rw [hnone] at hm
    cases hm
  · exact hnever n (h.binding_mem n hn)

namespace Imports

variable {imports : Imports}

theorem answers_ofRequests (requests : List Request) : (ofRequests requests).Answers requests := by
  have h := Conversion.answers_grants (c := { options := {} }) Answers.empty requests
  rwa [Conversion.imports_grants] at h

theorem ofRequests_concat (requests : List Request) (request : Request) :
    ofRequests (requests ++ [request]) = (ofRequests requests).grant request := by
  simp [ofRequests]

theorem ofRequests_eq_of_mem_iff {others : List Request}
    (h : ∀ request, request ∈ others ↔ request ∈ requests) :
    ofRequests others = ofRequests requests :=
  (answers_ofRequests others).unique h (answers_ofRequests requests)

namespace Answers

theorem hasName?_eq_some_true_iff (h : imports.Answers requests) {n m : Text} :
    imports.hasName? n m = some true ↔ .name n m ∈ requests := by
  simp only [hasName?, get?, Option.map_eq_some_iff]
  constructor
  · rintro ⟨i, hfound, hn⟩
    have hm : i.module = m := by simpa using List.find?_some hfound
    rw [← hm, ← (h.records i (List.mem_of_find?_eq_some hfound)).mem_names]
    simpa [Import.hasName] using hn
  · intro hn
    obtain ⟨j, hj, hjm⟩ := List.mem_map.mp ((h.mem_modules m).mpr ⟨_, hn, rfl⟩)
    have hsome : (imports.records.find? fun i => i.module == m).isSome := by
      rw [List.find?_isSome]
      exact ⟨j, hj, by simpa using hjm⟩
    obtain ⟨i, hfound⟩ := Option.isSome_iff_exists.mp hsome
    have hm : i.module = m := by simpa using List.find?_some hfound
    have hi := h.records i (List.mem_of_find?_eq_some hfound)
    refine ⟨i, hfound, ?_⟩
    simpa [Import.hasName, hi.mem_names, hm] using hn

theorem isNew_insertName (h : imports.Answers requests) (n m : Text) :
    (imports.insertName n m).2 = decide (.name n m ∉ requests) := by
  rw [Bool.eq_iff_iff, decide_eq_true_iff, ← h.hasName?_eq_some_true_iff]
  simp [insertName]

end Answers

/-- Each module that is mentioned has one record, in ascending order. A record has the names that
were asked of its module, once each and in ascending order, and the least of the bindings. So
requests that are the same as a set make the same table, and a request for a name is told that the
name is new if it is the first of its kind. -/
theorem records_ofRequests (requests : List Request) :
    ((ofRequests requests).records.Pairwise fun i j => i.module < j.module) ∧
      (∀ m, m ∈ (ofRequests requests).records.map Import.module ↔
        ∃ request ∈ requests, request.module? = some m) ∧
      (∀ i ∈ (ofRequests requests).records,
        i.names.Pairwise (· < ·) ∧ (∀ n, n ∈ i.names ↔ .name n i.module ∈ requests) ∧
          (∀ n, i.binding = some n ↔ IsLeast {n | .binding n i.module ∈ requests} n) ∧
          (i.binding = none ↔ ∀ n, .binding n i.module ∉ requests)) ∧
      (∀ others, (∀ request, request ∈ others ↔ request ∈ requests) →
        ofRequests others = ofRequests requests) ∧
      ∀ n m, (ofRequests requests).insertName n m =
        (ofRequests (requests ++ [.name n m]), decide (.name n m ∉ requests)) := by
  have h := answers_ofRequests requests
  refine ⟨h.modules_lt, h.mem_modules, fun i hi => ?_, fun _ => ofRequests_eq_of_mem_iff,
    fun n m => ?_⟩
  · have hrecord := h.records i hi
    exact ⟨hrecord.names_lt, hrecord.mem_names, fun n => hrecord.binding_iff,
      hrecord.binding_eq_none_iff⟩
  · rw [ofRequests_concat, ← h.isNew_insertName n m]
    rfl

/-- Requests for two modules, mixed and with repetitions, and the same in another order. -/
theorem records_ofRequests_mixed :
    let requests : List Request :=
      [.binding "t" "m", .name "b" "m", .name "b" "k", .binding "s" "m", .name "a" "m",
       .name "b" "m"]
    let others : List Request :=
      [.name "b" "k", .name "a" "m", .binding "s" "m", .name "b" "m", .binding "t" "m",
       .binding "s" "m"]
    let first : Import := { module := "k", names := ["b"] }
    let second : Import := { module := "m", binding := some "s", names := ["a", "b"] }
    (ofRequests requests).records = [first, second] ∧
      IsLeast {n : Text | .binding n "m" ∈ requests} "s" ∧
      (∀ n : Text, .binding n "k" ∉ requests) ∧
      (∀ request, request ∈ others ↔ request ∈ requests) ∧
      ofRequests others = ofRequests requests ∧
      ((ofRequests requests).insertName "b" "m").2 = false ∧
      ((ofRequests requests).insertName "a" "k").2 = true := by
  intro requests others first second
  obtain ⟨-, -, hrecords, hsame, hnew⟩ := records_ofRequests requests
  have htable : (ofRequests requests).records = [first, second] := by decide +kernel
  have hothers : ∀ request, request ∈ others ↔ request ∈ requests := by
    intro request
    simp only [requests, others, List.mem_cons, List.not_mem_nil, or_false]
    tauto
  have hfirst := hrecords first (by simp [htable])
  have hsecond := hrecords second (by simp [htable])
  refine ⟨htable, (hsecond.2.2.1 "s").mp rfl, hfirst.2.2.2.mp rfl, hothers, hsame others hothers,
    ?_, ?_⟩
  · rw [hnew]
    decide +kernel
  · rw [hnew]
    decide +kernel

end Imports
end Libdef

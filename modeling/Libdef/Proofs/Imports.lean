import Mathlib.Data.List.Sort
import Mathlib.Data.List.Lex
import Mathlib.Order.MinMax
import Libdef.Conversion.Linking

set_option autoImplicit false

namespace Libdef

theorem CodePoint.value_injective : Function.Injective CodePoint.value := by
  intro c d h
  cases c with
  | char c =>
    cases d with
    | char d => exact congrArg _ (Char.toNat_inj.mp h)
    | surrogate m =>
      have hc := c.valid
      simp only [CodePoint.value, Char.toNat] at h
      simp only [UInt32.isValidChar, Nat.isValidChar] at hc
      omega
  | surrogate n =>
    cases d with
    | char d =>
      have hd := d.valid
      simp only [CodePoint.value, Char.toNat] at h
      simp only [UInt32.isValidChar, Nat.isValidChar] at hd
      omega
    | surrogate m =>
      simp only [CodePoint.value] at h
      exact congrArg _ (Fin.ext (by omega))

theorem Text.map_value_injective :
    Function.Injective fun s : Text => s.toList.map CodePoint.value :=
  fun _ _ h => Text.toList_inj.mp (List.map_injective_iff.mpr CodePoint.value_injective h)

instance : LinearOrder Text := LinearOrder.lift' _ Text.map_value_injective

variable {requests : List Request} {request : Request}

namespace Import

theorem mem_insertName {name n : Text} {names : List Text} :
    n ∈ insertName name names ↔ n = name ∨ n ∈ names := by
  induction names with
  | nil => simp [insertName]
  | cons m rest ih =>
    simp only [insertName]
    split
    · simp
    split
    · rename_i heq
      simp [heq]
    · simp only [List.mem_cons, ih]
      tauto

theorem insertName_lt {names : List Text} (h : names.Pairwise (· < ·)) (name : Text) :
    (insertName name names).Pairwise (· < ·) := by
  induction names with
  | nil => simp [insertName]
  | cons m rest ih =>
    obtain ⟨hm, hrest⟩ := List.pairwise_cons.mp h
    simp only [insertName]
    split
    · rename_i hlt
      refine List.pairwise_cons.mpr ⟨fun n hn => ?_, h⟩
      rcases List.mem_cons.mp hn with rfl | hn
      · exact hlt
      · exact hlt.trans (hm n hn)
    split
    · exact h
    · rename_i hlt hne
      refine List.pairwise_cons.mpr ⟨fun n hn => ?_, ih hrest⟩
      rcases mem_insertName.mp hn with rfl | hn
      · exact lt_of_le_of_ne (not_lt.mp hlt) (Ne.symm hne)
      · exact hm n hn

end Import

def Request.module? : Request → Option Text
  | .name _ module | .binding _ module => some module
  | .report _ => none

/-- The record has what was asked of its module, and nothing else. -/
structure Import.Answers (i : Import) (requests : List Request) : Prop where
  names_lt : i.names.Pairwise (· < ·)
  mem_names : ∀ n, n ∈ i.names ↔ .name n i.module ∈ requests
  binding_mem : ∀ n ∈ i.binding, .binding n i.module ∈ requests
  binding_le : ∀ other, .binding other i.module ∈ requests → ∃ n ∈ i.binding, n ≤ other

structure Imports.Answers (imports : Imports) (requests : List Request) : Prop where
  modules_lt : imports.records.Pairwise fun i j => i.module < j.module
  mem_modules : ∀ m, m ∈ imports.records.map Import.module ↔
    ∃ request ∈ requests, request.module? = some m
  records : ∀ i ∈ imports.records, i.Answers requests

namespace Import.Answers

variable {i : Import}

theorem fresh {m : Text} (h : ∀ request ∈ requests, request.module? ≠ some m) :
    ({ module := m } : Import).Answers requests where
  names_lt := .nil
  mem_names n := by simpa using fun hn => h _ hn rfl
  binding_mem n hn := by cases hn
  binding_le n hn := (h _ hn rfl).elim

theorem binding_iff (h : i.Answers requests) {n : Text} :
    i.binding = some n ↔
      .binding n i.module ∈ requests ∧ ∀ other, .binding other i.module ∈ requests → n ≤ other := by
  refine ⟨fun hb => ⟨h.binding_mem n hb, fun other ho => ?_⟩, fun ⟨hn, hle⟩ => ?_⟩
  · obtain ⟨m, hm, hmo⟩ := h.binding_le other ho
    cases hb.symm.trans hm
    exact hmo
  · obtain ⟨m, hm, hmn⟩ := h.binding_le n hn
    rw [hm, le_antisymm hmn (hle m (h.binding_mem m hm))]

theorem other (h : i.Answers requests) (hr : request.module? ≠ some i.module) :
    i.Answers (requests ++ [request]) := by
  have hname (n : Text) : Request.name n i.module ≠ request := fun he => hr (he ▸ rfl)
  have hbinding (n : Text) : Request.binding n i.module ≠ request := fun he => hr (he ▸ rfl)
  refine ⟨h.names_lt, fun n => ?_, fun n hn => ?_, fun n hn => h.binding_le n ?_⟩
  · simp [h.mem_names, hname]
  · exact List.mem_append_left _ (h.binding_mem n hn)
  · simpa [hbinding] using hn

theorem addName (h : i.Answers requests) (name : Text) :
    (i.addName name).Answers (requests ++ [.name name i.module]) where
  names_lt := insertName_lt h.names_lt name
  mem_names n := by
    simp only [Import.addName, mem_insertName, h.mem_names, List.mem_append, List.mem_singleton,
      Request.name.injEq]
    tauto
  binding_mem n hn := List.mem_append_left _ (h.binding_mem n hn)
  binding_le n hn := h.binding_le n (by simpa [Import.addName] using hn)

theorem module_addBinding (i : Import) (name : Text) : (i.addBinding name).module = i.module := by
  simp only [Import.addBinding]
  split
  · rfl
  · split <;> rfl

theorem names_addBinding (i : Import) (name : Text) : (i.addBinding name).names = i.names := by
  simp only [Import.addBinding]
  split
  · rfl
  · split <;> rfl

/-- Of the old and the new binding, the lesser stays. -/
theorem binding_addBinding (i : Import) (name : Text) :
    (i.addBinding name).binding = some (i.binding.elim name (min name)) := by
  simp only [Import.addBinding]
  split
  · rename_i hb
    simp [hb]
  · rename_i old hb
    split
    · rename_i hlt
      simp [hb, min_eq_left hlt.le]
    · rename_i hlt
      simp [hb, min_eq_right (not_lt.mp hlt)]

theorem addBinding (h : i.Answers requests) (name : Text) :
    (i.addBinding name).Answers (requests ++ [.binding name i.module]) := by
  refine ⟨?_, fun n => ?_, fun n hn => ?_, fun other ho => ?_⟩
  · rw [names_addBinding]
    exact h.names_lt
  · simp [names_addBinding, module_addBinding, h.mem_names]
  · rw [binding_addBinding] at hn
    rw [module_addBinding]
    cases hb : i.binding with
    | none =>
      simp only [hb, Option.elim_none, Option.mem_some_iff] at hn
      simp [hn]
    | some old =>
      simp only [hb, Option.elim_some, Option.mem_some_iff] at hn
      rcases min_choice name old with hmin | hmin
      · simp [← hn, hmin]
      · rw [← hn, hmin]
        exact List.mem_append_left _ (h.binding_mem old hb)
  · rw [binding_addBinding]
    refine ⟨_, rfl, ?_⟩
    rw [module_addBinding, List.mem_append] at ho
    rcases ho with ho | ho
    · obtain ⟨m, hm, hmo⟩ := h.binding_le other ho
      rw [show i.binding = some m from hm]
      exact (min_le_right name m).trans hmo
    · simp only [List.mem_singleton, Request.binding.injEq, and_true] at ho
      subst ho
      cases i.binding with
      | none => exact le_rfl
      | some old => exact min_le_left other old

end Import.Answers

namespace Imports

variable {records : List Import} {m : Text} {change : Import → Import}

theorem modules_update (hchange : ∀ i, (change i).module = i.module) (m : Text)
    (records : List Import) :
    (update m change records).map Import.module =
      Import.insertName m (records.map Import.module) := by
  induction records with
  | nil => simp [update, Import.insertName, hchange]
  | cons i rest ih =>
    simp only [update, List.map_cons, Import.insertName]
    split
    · simp [hchange]
    split
    · simp [hchange]
    · simp [ih]

/-- The records of other modules stay; the one of the module is a changed one, or a fresh one
changed if there was none. -/
theorem of_mem_update (hs : records.Pairwise fun i j => i.module < j.module) {i : Import}
    (hi : i ∈ update m change records) : (i ∈ records ∧ i.module ≠ m) ∨
      (∃ old ∈ records, old.module = m ∧ i = change old) ∨
      (m ∉ records.map Import.module ∧ i = change { module := m }) := by
  induction records with
  | nil => simpa [update] using hi
  | cons j rest ih =>
    obtain ⟨hj, hrest⟩ := List.pairwise_cons.mp hs
    simp only [update] at hi
    split at hi
    · rename_i hlt
      -- The records ascend, so a module below the first one is that of no record.
      have hne : ∀ r ∈ j :: rest, m ≠ r.module := by
        intro r hr
        rcases List.mem_cons.mp hr with rfl | hr
        · exact hlt.ne
        · exact (hlt.trans (hj r hr)).ne
      rcases List.mem_cons.mp hi with rfl | hi
      · refine .inr (.inr ⟨fun hm => ?_, rfl⟩)
        obtain ⟨r, hr, hrm⟩ := List.mem_map.mp hm
        exact hne r hr hrm.symm
      · exact .inl ⟨hi, (hne i hi).symm⟩
    split at hi
    · rename_i heq
      rcases List.mem_cons.mp hi with rfl | hi
      · exact .inr (.inl ⟨j, by simp, heq.symm, rfl⟩)
      · exact .inl ⟨by simp [hi], by rw [heq]; exact (hj i hi).ne'⟩
    · rename_i hne
      rcases List.mem_cons.mp hi with rfl | hi
      · exact .inl ⟨by simp, Ne.symm hne⟩
      rcases ih hrest hi with ⟨hi, hm⟩ | ⟨old, ho, hm, rfl⟩ | ⟨hm, rfl⟩
      · exact .inl ⟨by simp [hi], hm⟩
      · exact .inr (.inl ⟨old, by simp [ho], hm, rfl⟩)
      · exact .inr (.inr ⟨by simp [hne, hm], rfl⟩)

theorem Answers.empty : ({} : Imports).Answers [] := ⟨.nil, by simp, by simp⟩

theorem Answers.update {imports : Imports} (h : imports.Answers requests)
    (hm : request.module? = some m) (hmodule : ∀ i, (change i).module = i.module)
    (hchange : ∀ i, i.module = m → i.Answers requests →
      (change i).Answers (requests ++ [request])) :
    (Imports.mk (Imports.update m change imports.records)).Answers (requests ++ [request]) := by
  refine ⟨?_, fun x => ?_, fun i hi => ?_⟩
  · have hsorted := Import.insertName_lt (List.pairwise_map.mpr h.modules_lt) m
    rw [← modules_update hmodule] at hsorted
    exact List.pairwise_map.mp hsorted
  · rw [modules_update hmodule, Import.mem_insertName, h.mem_modules]
    simp only [List.mem_append, List.mem_singleton, or_and_right, exists_or, exists_eq_left, hm,
      Option.some.injEq]
    rw [or_comm, eq_comm]
  · rcases of_mem_update h.modules_lt hi with ⟨hi, hne⟩ | ⟨old, ho, hom, rfl⟩ | ⟨hnew, rfl⟩
    · refine (h.records i hi).other ?_
      rw [hm]
      exact fun he => hne (Option.some.inj he).symm
    · exact hchange old hom (h.records old ho)
    · refine hchange _ rfl (.fresh fun r hr he => hnew ?_)
      exact (h.mem_modules m).mpr ⟨r, hr, he⟩

end Imports

namespace Conversion

theorem answers_grant {c : Conversion} (h : c.imports.Answers requests) (request : Request) :
    (c.grant request).imports.Answers (requests ++ [request]) := by
  cases request with
  | name name module =>
    exact h.update rfl (fun _ => rfl) fun i hi ha => hi ▸ ha.addName name
  | binding name module =>
    refine h.update rfl (fun i => Import.Answers.module_addBinding i name) fun i hi ha => ?_
    exact hi ▸ ha.addBinding name
  | report d =>
    refine ⟨h.modules_lt, fun m => ?_,
      fun i hi => (h.records i hi).other (by simp [Request.module?])⟩
    simp only [grant, report, h.mem_modules, List.mem_append, List.mem_singleton, or_and_right,
      exists_or, exists_eq_left, Request.module?, reduceCtorEq, or_false]

theorem answers_grants {c : Conversion} {before : List Request} (h : c.imports.Answers before)
    (requests : List Request) :
    (requests.foldl grant c).imports.Answers (before ++ requests) := by
  induction requests generalizing c before with
  | nil => simpa using h
  | cons request rest ih => simpa using ih (answers_grant h request)

end Conversion

/-! A table is determined by the requests that it answers, in whatever order they were made. -/

section Unique

variable {others : List Request} (hsame : ∀ request, request ∈ requests ↔ request ∈ others)

include hsame

theorem Import.Answers.unique {i j : Import} (hi : i.Answers requests) (hj : j.Answers others)
    (hm : i.module = j.module) : i = j := by
  have hnames : i.names = j.names := by
    apply hi.names_lt.eq_of_mem_iff hj.names_lt
    intro n
    rw [hi.mem_names, hj.mem_names, hm, hsame]
  have hbinding : i.binding = j.binding := by
    apply Option.ext
    intro n
    rw [hi.binding_iff, hj.binding_iff]
    simp only [hm, hsame]
  cases i
  cases j
  simp_all

theorem Imports.Answers.subset {imports imports' : Imports} (h : imports.Answers requests)
    (h' : imports'.Answers others) : imports.records ⊆ imports'.records := by
  intro i hi
  obtain ⟨request, hr, hm⟩ := (h.mem_modules i.module).mp (List.mem_map_of_mem hi)
  have hmodule := (h'.mem_modules i.module).mpr ⟨request, (hsame request).mp hr, hm⟩
  obtain ⟨j, hj, hji⟩ := List.mem_map.mp hmodule
  rw [Import.Answers.unique hsame (h.records i hi) (h'.records j hj) hji.symm]
  exact hj

theorem Imports.Answers.unique {imports imports' : Imports} (h : imports.Answers requests)
    (h' : imports'.Answers others) : imports = imports' := by
  have hirrefl : Std.Irrefl fun i j : Import => i.module < j.module :=
    ⟨fun i => lt_irrefl i.module⟩
  have hantisymm : Std.Antisymm fun i j : Import => i.module < j.module :=
    ⟨fun i j hij hji => (lt_asymm hij hji).elim⟩
  have hrecords : imports.records = imports'.records := by
    apply h.modules_lt.eq_of_mem_iff h'.modules_lt
    intro i
    exact ⟨fun hi => h.subset hsame h' hi, fun hi => h'.subset (fun r => (hsame r).symm) h hi⟩
  cases imports
  cases imports'
  simp_all

end Unique

end Libdef

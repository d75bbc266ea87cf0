import Libdef.Proofs.Interchange
import Libdef.Proofs.Listing

/-!
Namespaces with dotted names. They stand in a tree as a chain of namespaces, each the body of the
one before it, and nothing is known of a chain before its end. Main statement: a chain is collected
as the one namespace of the dotted name is, and no part of the name becomes known by it.
-/

set_option autoImplicit false

namespace Libdef

namespace Text

theorem toList_join_dot {parts : List Text} (h : parts ≠ []) :
    (join "." parts).toList ++ [.char '.'] =
      parts.flatMap fun p => p.toList ++ [.char '.'] := by
  induction parts with
  | nil => exact absurd rfl h
  | cons p rest ih =>
    cases rest with
    | nil => simp [join]
    | cons q more =>
      rw [List.flatMap_cons, ← ih (by simp), join_cons (by simp)]
      simp

theorem length_join_lt {part parts : List Text} (hpart : part <:+: parts) (hne : part ≠ parts)
    (hparts : ∀ p ∈ parts, p ≠ "") : (join "." part).length < (join "." parts).length := by
  obtain ⟨before, after, rfl⟩ := hpart
  obtain ⟨p, rest, hp⟩ : ∃ p rest, before ++ after = p :: rest := by
    apply List.exists_cons_of_ne_nil
    intro hnil
    obtain ⟨rfl, rfl⟩ := List.append_eq_nil_iff.mp hnil
    simp at hne
  have hlength : 0 < p.toList.length := by
    have hmem : p ∈ before ++ after := by simp [hp]
    have hnamed := hparts p (by grind)
    exact Nat.pos_of_ne_zero (mt Text.length_eq_zero_iff.mp hnamed)
  have hnil : before ++ part ++ after ≠ [] := by
    intro hnil
    simp only [List.append_eq_nil_iff] at hnil
    simp [hnil] at hp
  have hleft := congrArg (fun l => (l.flatMap fun p => p.toList ++ [.char '.']).length) hp
  have hwhole := congrArg List.length (toList_join_dot hnil)
  simp only [List.flatMap_append, List.flatMap_cons, List.length_append, List.length_singleton,
    Text.length_toList] at hleft hwhole hlength
  cases part with
  | nil =>
    simp only [join, Text.length_ofString, String.length_empty, List.flatMap_nil,
      List.length_nil] at hwhole ⊢
    omega
  | cons q more =>
    have hpart := congrArg List.length (toList_join_dot (List.cons_ne_nil q more))
    simp only [List.length_append, List.length_singleton, Text.length_toList] at hpart
    omega

end Text

theorem ModuleName.qualified_qualified (qualifier : Option Text) {name : Text} (h : name ≠ "")
    (rest : Text) :
    qualified (some (qualified qualifier name)) rest =
      qualified qualifier (name ++ "." ++ rest) := by
  cases qualifier with
  | none => simp [qualified, h]
  | some q =>
    by_cases hq : q = ""
    · simp [qualified, hq, h]
    · simp [qualified, hq, Text.append_assoc]

namespace Json

def HasFlag (flag : Int) (flags : Json) : Prop := ∃ n, flags = .int n ∧ n / flag % 2 = 1

/-- A module declaration that has this name, which is not empty, and this body, and that is marked
as a namespace or as a nested one. -/
structure IsNamespace (j : Json) (name : Text) (body : Json) : Prop where
  kind : j.get "kind" = .str "ModuleDeclaration"
  nameText : (j.get "name").nameText = .ok (some name)
  named : name ≠ ""
  flags : (j.get "flags").HasFlag 16 ∨ (j.get "flags").HasFlag 4
  body_eq : j.get "body" = body

/-- Namespaces of these names, each the body of the one before it, and the body of the last. -/
inductive IsChain : List Text → Json → Json → Prop where
  | last {name : Text} {body j : Json} (h : j.IsNamespace name body) : IsChain [name] body j
  | link {name : Text} {names : List Text} {body inner j : Json} (h : j.IsNamespace name inner)
      (hinner : IsChain names body inner) : IsChain (name :: names) body j

theorem isNamespace_of_hasFlag {flags : Json} (h : flags.HasFlag 16 ∨ flags.HasFlag 4) :
    Filing.isNamespace flags = .ok true := by
  -- Both bits are among the last five, so that the residues tell.
  have hbits (r : Fin 32) : r.val / 16 % 2 = 1 ∨ r.val / 4 % 2 = 1 →
      (r.val &&& Filing.namespaceBits) ≠ 0 := by
    revert r
    decide
  obtain ⟨n, rfl, hn⟩ : ∃ n, flags = .int n ∧ (n / 16 % 2 = 1 ∨ n / 4 % 2 = 1) := by
    rcases h with ⟨n, rfl, hn⟩ | ⟨n, rfl, hn⟩
    · exact ⟨n, rfl, .inl hn⟩
    · exact ⟨n, rfl, .inr hn⟩
  have hset := hbits ⟨(n % 32).toNat, by omega⟩ (by simp only; omega)
  simpa [Filing.isNamespace] using hset

section Namespace

variable {j : Json} {name : Text} {names : List Text} {body : Json}

theorem IsNamespace.isObj (h : j.IsNamespace name body) : j.isObj = true :=
  isObj_of_get h.kind rfl

theorem IsNamespace.isModule (h : j.IsNamespace name body) :
    (j.get "kind").isStr "ModuleDeclaration" = true := by
  simp [h.kind, isStr]

theorem IsNamespace.tour_module (h : j.IsNamespace name body) (context : Text)
    (qualifier : Option Text) :
    j.tour.module context qualifier =
      Tour.namespaceOf body body.tour context (ModuleName.qualified qualifier name) := by
  have hmodule (inner : Tour) : Tour.moduleOf j inner context qualifier =
      Tour.namespaceOf body inner context (ModuleName.qualified qualifier name) := by
    simp [Tour.moduleOf, h.nameText, h.named, isNamespace_of_hasFlag h.flags, h.body_eq]
  cases hn : body.isNull with
  | false => rw [Json.tour_module h.isObj (h.body_eq ▸ hn), hmodule, h.body_eq]
  | true =>
    -- Without a body there is no tour of one to go on with.
    have hobj := h.isObj
    cases j with
    | obj fields =>
      rw [tour_eq]
      simp only [Tour.step, hmodule, Tour.namespaceOf, hn, if_true]
    | _ => cases hobj

theorem IsChain.isNamespace (h : IsChain names body j) :
    ∃ name inner, j.IsNamespace name inner := by
  cases h with
  | last h => exact ⟨_, _, h⟩
  | link h _ => exact ⟨_, _, h⟩

theorem IsChain.ne_nil (h : IsChain names body j) : names ≠ [] := by
  cases h with
  | last _ => simp
  | link _ _ => simp

theorem IsChain.named (h : IsChain names body j) : ∀ name ∈ names, name ≠ "" := by
  induction h with
  | last h => simpa using h.named
  | link h _ ih => simpa using ⟨h.named, ih⟩

theorem IsChain.tour_module (h : IsChain names body j) (context : Text)
    (qualifier : Option Text) :
    j.tour.module context qualifier =
      Tour.namespaceOf body body.tour context
        (ModuleName.qualified qualifier (Text.join "." names)) := by
  induction h generalizing qualifier with
  | last h => exact h.tour_module context qualifier
  | link h hinner ih =>
    obtain ⟨_, _, hnext⟩ := hinner.isNamespace
    rw [h.tour_module, Tour.namespaceOf_module hnext.isObj hnext.isModule, ih,
      Text.join_cons hinner.ne_nil, ModuleName.qualified_qualified qualifier h.named]

/-- A chain is gone through like any declaration of its dotted name and its innermost body. -/
theorem IsChain.tour_statement (h : IsChain names body j) (context : Text) :
    j.tour.statement context =
      Tour.namespaceOf body body.tour context (Text.join "." names) := by
  obtain ⟨_, _, hfirst⟩ := h.isNamespace
  rw [tour_statement_of_module hfirst.isObj hfirst.isModule, h.tour_module]
  rfl

end Namespace

end Json

namespace Conversion

def openNamespace (c : Conversion) (name : Text) : Conversion :=
  (c.pushNamespace name).requestContext (ModuleName.contextOf name)

theorem mem_namespaces_openNamespace (c : Conversion) {name other : Text} (h : other ≠ name) :
    other ∈ (c.openNamespace name).namespaces ↔ other ∈ c.namespaces := by
  show other ∈ (c.enter (.knownNamespace name)).namespaces ↔ _
  simp [mem_namespaces_enter, h]

theorem mem_names_openNamespace (c : Conversion) {name other : Text}
    (h : other ≠ ModuleName.contextOf name) :
    other ∈ (c.openNamespace name).contexts.names ↔ other ∈ c.contexts.names := by
  have hpush : (c.pushNamespace name).contexts = c.contexts := by
    simp only [pushNamespace]
    split <;> rfl
  simp only [openNamespace, requestContext, Contexts.mem_names_request, hpush, h, or_false]

theorem mem_openNamespace_of_length_lt (c : Conversion) {name other : Text}
    (h : other.length < name.length) :
    (other ∈ (c.openNamespace name).namespaces ↔ other ∈ c.namespaces) ∧
      ∀ x ∈ [other, ModuleName.contextOf other],
        x ∈ (c.openNamespace name).contexts.names ↔ x ∈ c.contexts.names := by
  have hcontext (s : Text) :
      (ModuleName.contextOf s).length = ModuleName.contextMark.length + s.length :=
    Text.length_append _ s
  refine ⟨c.mem_namespaces_openNamespace fun heq => ?_, fun x hx => ?_⟩
  · rw [heq] at h
    omega
  · apply c.mem_names_openNamespace
    rintro rfl
    simp only [List.mem_cons, List.not_mem_nil, or_false] at hx
    rcases hx with hx | hx
    · have hlength := congrArg Text.length hx
      rw [hcontext] at hlength
      omega
    · have hlength := congrArg Text.length hx
      rw [hcontext, hcontext] at hlength
      omega

theorem take_namespace (c : Conversion) (name : Text) (sites : List Site) :
    c.take ((Site.knownNamespace name :: .knownContext (ModuleName.contextOf name) ::
      sites).forM Site.filing) = (c.openNamespace name).take (sites.forM Site.filing) := by
  rw [take_cons]
  show (c.pushNamespace name).take _ = _
  rw [take_cons]
  rfl

/-- Namespaces in a chain are collected as one namespace of the dotted name. Of the chain itself
nothing but that namespace and its context is entered: the body goes on from there, and no shorter
run of the names becomes a namespace or a context. -/
theorem collectStatement_chain {names : List Text} {body chain single : Json}
    (hchain : Json.IsChain names body chain)
    (hsingle : single.IsNamespace (Text.join "." names) body) (c : Conversion) (context : Text) :
    let name := Text.join "." names
    let opened := c.openNamespace name
    let step := c.collectStatement chain context
    step = c.collectStatement single context ∧
      (body = .null → step = ⟨opened, .ok ()⟩) ∧
      (∀ statements, body.get "statements" = .arr statements →
        body.get "kind" ≠ .str "ModuleDeclaration" →
          step = opened.collectTree body (ModuleName.contextOf name)) ∧
      ∀ part, part <:+: names → part ≠ names →
        (Text.join "." part ∈ opened.namespaces ↔ Text.join "." part ∈ c.namespaces) ∧
        ∀ x ∈ [Text.join "." part, ModuleName.contextOf (Text.join "." part)],
          x ∈ opened.contexts.names ↔ x ∈ c.contexts.names := by
  intro name opened step
  have hstep : step = c.take ((Tour.namespaceOf body body.tour context name).forM Site.filing) := by
    simp only [step, name, collectStatement_eq, hchain.tour_statement]
  refine ⟨?_, ?_, ?_, ?_⟩
  · rw [hstep, collectStatement_eq, (Json.IsChain.last hsingle).tour_statement]
    rfl
  · rintro rfl
    rw [hstep]
    exact c.take_namespace name []
  · intro statements hstatements hkind
    have hobj := Json.isObj_of_get hstatements rfl
    have hmodule : (body.get "kind").isStr "ModuleDeclaration" = false :=
      Bool.eq_false_iff.mpr (mt Json.eq_str_of_isStr hkind)
    rw [hstep, Tour.namespaceOf_block hobj hmodule, take_namespace, collectTree_eq]
  · intro part hpart hne
    exact c.mem_openNamespace_of_length_lt (Text.length_join_lt hpart hne hchain.named)

/-- Three links, marked as a namespace, as a nested one and as both, around a block in which the
second statement has no name. -/
theorem collectStatement_chain_three :
    let body := Json.obj [("kind", .str "ModuleBlock"),
      ("statements", .arr [
        .obj [("kind", .str "InterfaceDeclaration"), ("name", Json.identifier "I")],
        .obj [("kind", .str "ClassDeclaration")]])]
    let link (name : Text) (flags : Int) (body : Json) :=
      Json.obj [("kind", .str "ModuleDeclaration"), ("name", Json.identifier name),
        ("flags", .int flags), ("body", body)]
    let chain := link "A" 16 (link "B" 4 (link "C" (-12) body))
    let single := link "A.B.C" 16 body
    let step := ({} : Conversion).collectStatement chain ModuleName.root
    Json.IsChain ["A", "B", "C"] body chain ∧
      step = ({} : Conversion).collectStatement single ModuleName.root ∧
      step.result = .error (.unnamed (some (.str "ClassDeclaration"))) ∧
      step.state.namespaces = ["A.B.C"] ∧
      step.state.contexts.names = ["root", "namespace-module:A.B.C"] ∧
      step.state.store.size = 1 := by
  intro body link chain single step
  have hlink (name : Text) (flags : Int) (body : Json) (hname : name ≠ "")
      (hflags : (Json.int flags).HasFlag 16 ∨ (Json.int flags).HasFlag 4) :
      (link name flags body).IsNamespace name body := ⟨rfl, rfl, hname, hflags, rfl⟩
  have hchain : Json.IsChain ["A", "B", "C"] body chain :=
    .link (hlink _ _ _ (by decide) (.inl ⟨16, rfl, by decide⟩))
      (.link (hlink _ _ _ (by decide) (.inr ⟨4, rfl, by decide⟩))
        (.last (hlink _ _ _ (by decide) (.inr ⟨-12, rfl, by decide⟩))))
  have hsingle : single.IsNamespace (Text.join "." ["A", "B", "C"]) body :=
    hlink _ _ _ (by decide) (.inl ⟨16, rfl, by decide⟩)
  obtain ⟨heq, -⟩ := collectStatement_chain hchain hsingle {} ModuleName.root
  exact ⟨hchain, heq, rfl, rfl, rfl, rfl⟩

end Conversion
end Libdef

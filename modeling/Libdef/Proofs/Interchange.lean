import Libdef.Proofs.Content
import Libdef.Proofs.Declarators

/-!
Neighbouring statements of different kinds. They file in different buckets of the same context, so
their order is seen in the numbers of the handles and in the order of the reports only. Main
statement: when two of them change places, at the top of a file or in the body of a module at any
depth, the conversion has the same text and the same content.
-/

set_option autoImplicit false

namespace Libdef

/-! Sites that may change places. -/

namespace Site

/-- Filed without a fault, the sites leave entries that may be entered in either order. -/
def Apart (s t : Site) : Prop := ∀ e f, s.Files e → t.Files f → e.Apart f

/-- The same sites, but for two runs next to each other that may have changed places. -/
inductive Reordered : List Site → List Site → Prop where
  | same (sites : List Site) : Reordered sites sites
  | swapped (before after : List Site) {first second : List Site}
      (h : ∀ s ∈ first, ∀ t ∈ second, s.Apart t) :
      Reordered (before ++ (first ++ second) ++ after) (before ++ (second ++ first) ++ after)

theorem Reordered.within {l m : List Site} (h : Reordered l m) (before after : List Site) :
    Reordered (before ++ l ++ after) (before ++ m ++ after) := by
  cases h with
  | same => exact .same _
  | swapped before' after' h =>
    have hswap := Reordered.swapped (before ++ before') (after' ++ after) h
    simpa only [List.append_assoc] using hswap

theorem Reordered.cons {l m : List Site} (h : Reordered l m) (site : Site) :
    Reordered (site :: l) (site :: m) := by
  simpa using h.within [site] []

theorem Reordered.mem_iff {l m : List Site} (h : Reordered l m) (site : Site) :
    site ∈ l ↔ site ∈ m := by
  cases h with
  | same => exact Iff.rfl
  | swapped before after h =>
    simp only [List.mem_append]
    tauto

theorem Pass.files {sites : List Site} (h : Pass sites) {e : Entry} (he : e ∈ entries sites) :
    ∃ s ∈ sites, s.Files e := by
  obtain ⟨s, hs, hlog⟩ := List.mem_flatMap.mp he
  obtain ⟨entry, heq, hf⟩ := files_of_ok (h s hs)
  rw [heq, Traced.log_tell, List.mem_singleton] at hlog
  exact ⟨s, hs, hlog ▸ hf⟩

theorem Apart.entries {first second : List Site}
    (h : ∀ s ∈ first, ∀ t ∈ second, s.Apart t)
    (hfirst : Pass first) (hsecond : Pass second) :
    ∀ e ∈ entries first, ∀ f ∈ entries second, e.Apart f := by
  intro e he f hf
  obtain ⟨s, hs, hse⟩ := hfirst.files he
  obtain ⟨t, ht, htf⟩ := hsecond.files hf
  exact h s hs t ht e f hse htf

theorem Reordered.enterAll {l m : List Site} (h : Reordered l m)
    (hok : Pass l) (c : Conversion) :
    Conversion.SameContent (c.enterAll (entries l)) (c.enterAll (entries m)) := by
  cases h with
  | same => exact .refl _
  | @swapped before after first second h =>
    have happart := Apart.entries h (fun s hs => hok s (by simp [hs]))
      fun t ht => hok t (by simp [ht])
    simp only [entries, List.flatMap_append, Conversion.enterAll_append] at happart ⊢
    have hswap := (c.enterAll (entries before)).enterAll_comm happart
    simp only [Conversion.enterAll_append] at hswap
    exact hswap.enterAll _

end Site

/-- The bucket for what a statement of a kind declares, which may be nothing. -/
def Filing.statementBucket? (kind : Json) : Option Bucket :=
  match declarationBucket? kind with
  | some b => some b
  | none =>
    if kind.isStr "VariableStatement" then some .variables
    else if kind.isStr "ExportAssignment" then some .exports
    else none

theorem Json.eq_str_of_isStr {j : Json} {s : Text} (h : j.isStr s = true) : j = .str s := by
  cases j with
  | str t => simpa [isStr] using h
  | _ => cases h

def Bucket.statementKind : Bucket → Text
  | .functions => "FunctionDeclaration"
  | .classes => "ClassDeclaration"
  | .types => "TypeAliasDeclaration"
  | .interfaces => "InterfaceDeclaration"
  | .variables => "VariableStatement"
  | .exports => "ExportAssignment"

theorem Filing.eq_of_statementBucket? {kind : Json} {b : Bucket}
    (h : statementBucket? kind = some b) :
    kind = .str b.statementKind := by
  have htable : ∀ entry ∈ declarationBuckets, entry.1 = entry.2.statementKind := by decide
  simp only [statementBucket?, declarationBucket?] at h
  split at h
  · rename_i hb
    cases h
    split at hb
    · obtain ⟨before, after, hentries, -⟩ := List.lookup_eq_some_iff.mp hb
      exact congrArg Json.str (htable (_, b) (by simp [hentries]))
    · cases hb
  split at h
  · rename_i hv
    cases h
    exact Json.eq_str_of_isStr hv
  split at h
  · rename_i hx
    cases h
    exact Json.eq_str_of_isStr hx
  · cases h

def Entry.In (context : Text) (bucket : Option Bucket) : Entry → Prop
  | .item _ x b => x = context ∧ bucket = some b
  | .report _ => True
  | _ => False

theorem Entry.In.apart {context : Text} {b b' : Option Bucket} {e f : Entry}
    (he : e.In context b) (hf : f.In context b') (hb : ∀ x, b = some x → b' ≠ some x) :
    e.Apart f := by
  match e, f, he, hf with
  | .item _ _ x, .item _ _ y, ⟨rfl, hx⟩, ⟨hc, hy⟩ =>
    refine ⟨hc.symm, ?_⟩
    intro hxy
    exact hb x hx (hxy ▸ hy)
  | .item _ _ _, .report _, _, _ => trivial
  | .report _, .item _ _ _, _, _ => trivial
  | .report _, .report _, _, _ => trivial

theorem Tour.mem_variableStatement {j : Json} {context : Text} {site : Site}
    (hs : site ∈ variableStatement j context) :
    (∃ i, site = .declarator i context) ∨ ∃ fault, site = .malformed fault := by
  have hmalformed {fault : Fault} (hs : site ∈ [Site.malformed fault]) :
      ∃ fault, site = .malformed fault := ⟨fault, List.mem_singleton.mp hs⟩
  simp only [variableStatement] at hs
  split at hs
  · split at hs
    · cases hl : (j.get "declarationList").get "declarations" with
      | arr items =>
        rw [hl] at hs
        obtain ⟨i, -, rfl⟩ := List.mem_map.mp hs
        exact .inl ⟨i, rfl⟩
      | _ =>
        simp only [hl, declarators] at hs
        split at hs
        all_goals first | exact .inr (hmalformed hs) | cases hs
    · exact .inr (hmalformed hs)
  · cases hs

theorem Json.statement_in {j : Json} (hm : (j.get "kind").isStr "ModuleDeclaration" = false)
    {context : Text} {site : Site} (hs : site ∈ j.tour.statement context) {e : Entry}
    (he : site.Files e) : e.In context (Filing.statementBucket? (j.get "kind")) := by
  have hmalformed {fault : Fault} (hs : site ∈ [Site.malformed fault]) :
      e.In context (Filing.statementBucket? (j.get "kind")) := by
    obtain rfl := List.mem_singleton.mp hs
    cases he
  rw [tour_eq] at hs
  cases j with
  | obj fields =>
    simp only [Tour.step, Tour.statementOf, hm, Bool.false_eq_true, if_false] at hs
    split at hs
    · exact hmalformed hs
    cases hb : Filing.declarationBucket? ((Json.obj fields).get "kind") with
    | some bucket =>
      simp only [hb, List.mem_singleton] at hs
      subst hs
      cases he
      simp [Entry.In, Filing.statementBucket?, hb]
    | none =>
      simp only [hb] at hs
      split at hs
      · rename_i hv
        rcases Tour.mem_variableStatement hs with ⟨i, rfl⟩ | ⟨fault, rfl⟩
        · cases he <;> simp [Entry.In, Filing.statementBucket?, hb, hv]
        · cases he
      · rename_i hv
        split at hs
        · rename_i hx
          obtain rfl := List.mem_singleton.mp hs
          cases he <;> simp [Entry.In, Filing.statementBucket?, hb, hv, hx]
        · obtain rfl := List.mem_singleton.mp hs
          cases he
          trivial
  | _ => exact hmalformed hs

/-- Statements of different kinds may change places if neither is a module. -/
theorem Json.statement_apart {s t : Json} (hkind : s.get "kind" ≠ t.get "kind")
    (hs : (s.get "kind").isStr "ModuleDeclaration" = false)
    (ht : (t.get "kind").isStr "ModuleDeclaration" = false) (context : Text) :
    ∀ x ∈ s.tour.statement context, ∀ y ∈ t.tour.statement context, x.Apart y := by
  intro x hx y hy e f he hf
  apply (statement_in hs hx he).apart (statement_in ht hy hf)
  intro b hb hb'
  have hs := Filing.eq_of_statementBucket? hb
  exact hkind (hs.trans (Filing.eq_of_statementBucket? hb').symm)

/-! Trees in which two statements have changed places. -/

namespace Json

structure SameBut (key : Text) (j j' : Json) : Prop where
  isObj : j.isObj = true
  isObj' : j'.isObj = true
  field?_eq : ∀ k, k ≠ key → j.field? k = j'.field? k

theorem SameBut.get_eq {key k : Text} {j j' : Json} (h : SameBut key j j') (hk : k ≠ key) :
    j.get k = j'.get k := by
  rw [get, get, h.field?_eq k hk]

theorem sameBut_field (key : Text) (before after : List (Text × Json)) (v w : Json) :
    SameBut key (.obj (before ++ (key, v) :: after)) (.obj (before ++ (key, w) :: after)) := by
  refine ⟨rfl, rfl, ?_⟩
  intro k hk
  have hne : (k == key) = false := beq_false_of_ne hk
  simp [field?, List.lookup_append, List.lookup_cons, hne]

inductive Role where
  | block
  | module

/-- Two neighbouring statements of different kinds, none of them a module, have changed places:
among the statements of a file or block, or somewhere in the body of one of its modules. -/
inductive Swapped : Role → Json → Json → Prop where
  | neighbours {j j' s t : Json} (before after : List Json) (hsame : SameBut "statements" j j')
      (hj : j.get "statements" = .arr (before ++ s :: t :: after))
      (hj' : j'.get "statements" = .arr (before ++ t :: s :: after))
      (hkind : s.get "kind" ≠ t.get "kind")
      (hs : (s.get "kind").isStr "ModuleDeclaration" = false)
      (ht : (t.get "kind").isStr "ModuleDeclaration" = false) : Swapped .block j j'
  | within {j j' m m' : Json} (before after : List Json) (hsame : SameBut "statements" j j')
      (hj : j.get "statements" = .arr (before ++ m :: after))
      (hj' : j'.get "statements" = .arr (before ++ m' :: after))
      (h : Swapped .module m m') : Swapped .block j j'
  | body {m m' : Json} (hsame : SameBut "body" m m')
      (hkind : (m.get "kind").isStr "ModuleDeclaration" = true)
      (hbody : ((m.get "body").get "kind").isStr "ModuleDeclaration" = false)
      (h : Swapped .block (m.get "body") (m'.get "body")) : Swapped .module m m'
  | dotted {m m' : Json} (hsame : SameBut "body" m m')
      (hkind : (m.get "kind").isStr "ModuleDeclaration" = true)
      (h : Swapped .module (m.get "body") (m'.get "body")) : Swapped .module m m'

namespace Swapped

variable {role : Role} {j j' : Json}

theorem isObj (h : Swapped role j j') : j.isObj = true ∧ j'.isObj = true := by
  cases h with
  | neighbours _ _ hsame | within _ _ hsame | body hsame | dotted hsame =>
    exact ⟨hsame.isObj, hsame.isObj'⟩

theorem kind_eq (h : Swapped role j j') : j.get "kind" = j'.get "kind" := by
  cases h with
  | neighbours _ _ hsame | within _ _ hsame | body hsame | dotted hsame =>
    exact hsame.get_eq (by decide)

theorem isModule (h : Swapped .module j j') :
    (j.get "kind").isStr "ModuleDeclaration" = true := by
  cases h with
  | body _ hkind | dotted _ hkind => exact hkind

end Swapped

theorem tour_module {j : Json} (ho : j.isObj = true) (hb : (j.get "body").isNull = false) :
    j.tour.module = Tour.moduleOf j (j.get "body").tour := by
  cases j with
  | obj fields =>
    rw [tour_eq, ← tour_part hb]
    rfl
  | _ => cases ho

theorem tour_statement_of_module {j : Json} (ho : j.isObj = true)
    (hk : (j.get "kind").isStr "ModuleDeclaration" = true) (context : Text) :
    j.tour.statement context = j.tour.module context none := by
  cases j with
  | obj fields =>
    rw [tour_eq]
    simp only [Tour.step, Tour.statementOf, hk, if_true]
  | _ => cases ho

end Json

namespace Tour

open Site

theorem moduleOf_reordered {m m' : Json} (hsame : Json.SameBut "body" m m') {body body' : Tour}
    (hnamespace : ∀ context name, Reordered (namespaceOf (m.get "body") body context name)
      (namespaceOf (m'.get "body") body' context name))
    (hplain : ∀ name, Reordered (plainModuleOf (m.get "body") body name)
      (plainModuleOf (m'.get "body") body' name)) (context : Text) (qualifier : Option Text) :
    Reordered (moduleOf m body context qualifier) (moduleOf m' body' context qualifier) := by
  have hname : m.get "name" = m'.get "name" := hsame.get_eq (by decide)
  have hflags : m.get "flags" = m'.get "flags" := hsame.get_eq (by decide)
  simp only [moduleOf, hname, hflags]
  split
  · exact .same _
  split
  · exact .same _
  split
  · exact .same _
  · exact hnamespace _ _
  · exact hplain _

variable {inner inner' : Json}

theorem namespaceOf_module (ho : inner.isObj = true)
    (hk : (inner.get "kind").isStr "ModuleDeclaration" = true) (body : Tour)
    (context name : Text) :
    namespaceOf inner body context name = body.module context (some name) := by
  simp [namespaceOf, ho, hk, Json.isNull_of_isObj ho]

theorem namespaceOf_block (ho : inner.isObj = true)
    (hk : (inner.get "kind").isStr "ModuleDeclaration" = false) (body : Tour)
    (context name : Text) :
    namespaceOf inner body context name = .knownNamespace name ::
      .knownContext (ModuleName.contextOf name) :: body.block (ModuleName.contextOf name) := by
  simp [namespaceOf, ho, hk, Json.isNull_of_isObj ho]

theorem plainModuleOf_module (ho : inner.isObj = true)
    (hk : (inner.get "kind").isStr "ModuleDeclaration" = true) (body : Tour) (name : Text) :
    plainModuleOf inner body name = .knownContext name :: body.statement name := by
  simp [plainModuleOf, ho, hk, Json.isNull_of_isObj ho]

theorem plainModuleOf_block (ho : inner.isObj = true)
    (hk : (inner.get "kind").isStr "ModuleDeclaration" = false) (body : Tour) (name : Text) :
    plainModuleOf inner body name = .knownContext name :: body.block name := by
  simp [plainModuleOf, ho, hk, Json.isNull_of_isObj ho]

end Tour

namespace Json

open Site

def Role.Reordered : Role → Json → Json → Prop
  | .block, j, j' => ∀ context, Site.Reordered (j.tour.block context) (j'.tour.block context)
  | .module, j, j' => ∀ context qualifier,
    Site.Reordered (j.tour.module context qualifier) (j'.tour.module context qualifier)

theorem Swapped.reordered {role : Role} {j j' : Json} (h : Swapped role j j') :
    role.Reordered j j' := by
  induction h with
  | @neighbours j j' s t before after hsame hj hj' hkind hs ht =>
    intro context
    have hswap := Site.Reordered.swapped (before.flatMap fun x => x.tour.statement context)
      (after.flatMap fun x => x.tour.statement context) (statement_apart hkind hs ht context)
    rw [tour_block hj, tour_block hj']
    simpa using hswap
  | @within j j' m m' before after hsame hj hj' h ih =>
    intro context
    have hmodule := h.isModule
    have hmodule' := h.kind_eq ▸ hmodule
    have hstatement : Site.Reordered (m.tour.statement context) (m'.tour.statement context) := by
      rw [tour_statement_of_module h.isObj.1 hmodule, tour_statement_of_module h.isObj.2 hmodule']
      exact ih context none
    have hin := hstatement.within (before.flatMap fun x => x.tour.statement context)
      (after.flatMap fun x => x.tour.statement context)
    rw [tour_block hj, tour_block hj']
    simpa using hin
  | @body m m' hsame hkind hbody h ih =>
    have hbody' := h.kind_eq ▸ hbody
    obtain ⟨ho, ho'⟩ := h.isObj
    intro context qualifier
    rw [tour_module hsame.isObj (isNull_of_isObj ho),
      tour_module hsame.isObj' (isNull_of_isObj ho')]
    apply Tour.moduleOf_reordered hsame
    · intro context name
      rw [Tour.namespaceOf_block ho hbody, Tour.namespaceOf_block ho' hbody']
      exact ((ih (ModuleName.contextOf name)).cons _).cons _
    · intro name
      rw [Tour.plainModuleOf_block ho hbody, Tour.plainModuleOf_block ho' hbody']
      exact (ih name).cons _
  | @dotted m m' hsame hkind h ih =>
    have hmodule := h.isModule
    have hmodule' := h.kind_eq ▸ hmodule
    obtain ⟨ho, ho'⟩ := h.isObj
    intro context qualifier
    rw [tour_module hsame.isObj (isNull_of_isObj ho),
      tour_module hsame.isObj' (isNull_of_isObj ho')]
    apply Tour.moduleOf_reordered hsame
    · intro context name
      rw [Tour.namespaceOf_module ho hmodule, Tour.namespaceOf_module ho' hmodule']
      exact ih context (some name)
    · intro name
      rw [Tour.plainModuleOf_module ho hmodule, Tour.plainModuleOf_module ho' hmodule',
        tour_statement_of_module ho hmodule, tour_statement_of_module ho' hmodule']
      exact (ih name none).cons _

end Json

namespace Conversion

open Site

theorem convert_alike_of_reordered (options : Options) {trees trees' : List Json}
    (h : Reordered (sitesOf trees) (sitesOf trees')) :
    Alike (fun c d => c.2 = d.2 ∧ SameContent c.1 d.1) (fun _ _ => True)
      (convert options trees) (convert options trees') := by
  have hiff : Pass (sitesOf trees) ↔ Pass (sitesOf trees') := by
    simp only [Pass, h.mem_iff]
  by_cases hpass : Pass (sitesOf trees)
  · have hpass' := hiff.mp hpass
    have hsame : SameContent (collected options trees) (collected options trees') := by
      rw [collected_of_pass options hpass, collected_of_pass options hpass']
      exact h.enterAll hpass _
    have halike := convert_alike_of_sameContent options hpass hpass' hsame
    exact halike.imp (fun _ _ hr => hr) fun _ _ _ => trivial
  · obtain ⟨e, he⟩ := convert_of_not_pass options hpass
    obtain ⟨f, hf⟩ := convert_of_not_pass options fun hp => hpass (hiff.mpr hp)
    rw [he, hf]
    trivial

/-- When two neighbouring statements of different kinds, none of them a module, change places in
one of the trees, at its top or in the body of a module at any depth, then either both conversions
fail, or they end in the same text, with the same namespaces and imports, the same contexts in the
same order and the same items in the same order in each of their buckets, and with the same
reports in some order. -/
theorem convert_alike_of_swapped (options : Options) (before after : List Json) {tree tree' : Json}
    (h : Json.Swapped .block tree tree') :
    Alike (fun c d => c.2 = d.2 ∧ SameContent c.1 d.1) (fun _ _ => True)
      (convert options (before ++ tree :: after)) (convert options (before ++ tree' :: after)) := by
  apply convert_alike_of_reordered
  have hsites := (h.reordered ModuleName.root).within (sitesOf before) (sitesOf after)
  simpa [sitesOf] using hsites

/-- An export before or after the variable whose value it takes on, in a namespace `Outer.Inner`. -/
theorem convert_alike_of_swapped_nested :
    let x := Json.variableNode "x" (.identifier "Foo")
    let exported := Json.obj [("kind", .str "ExportAssignment"), ("expression", .identifier "x")]
    let tree (statements : List Json) := Json.sourceFile [.obj [("kind", .str "ModuleDeclaration"),
      ("name", .identifier "Outer"), ("flags", .int 16),
      ("body", .namespaceNode "Inner" statements)]]
    let text := "declare module 'npm$namespace$Outer.Inner' \x7b\n\texport default Foo\n\x7d\n"
    Json.Swapped .block (tree [x, exported]) (tree [exported, x]) ∧
      (∃ c, convert {} [tree [x, exported]] = .ok (c, text)) ∧
      ∃ d, convert {} [tree [exported, x]] = .ok (d, text) := by
  -- For any two trees, so that nothing is evaluated here.
  have hsame (a b : Json) (h : Json.Swapped .block a b) (c : Conversion × Text)
      (hc : convert {} [a] = .ok c) : ∃ d, convert {} [b] = .ok d ∧ c.2 = d.2 := by
    obtain ⟨d, hd, htext, -⟩ := (convert_alike_of_swapped {} [] [] h).exists_ok hc
    exact ⟨d, hd, htext⟩
  intro x exported tree text
  have hkind : x.get "kind" ≠ exported.get "kind" := by
    intro h
    exact absurd (Json.str.inj h) (by decide)
  have hblock : Json.Swapped .block ((Json.namespaceNode "Inner" [x, exported]).get "body")
      ((Json.namespaceNode "Inner" [exported, x]).get "body") :=
    .neighbours [] [] (Json.sameBut_field _ [("kind", _)] [] _ _) rfl rfl hkind rfl rfl
  have hinner : Json.Swapped .module (.namespaceNode "Inner" [x, exported])
      (.namespaceNode "Inner" [exported, x]) :=
    .body (Json.sameBut_field _ [("kind", _), ("name", _), ("flags", _)] [] _ _) rfl rfl hblock
  have hswapped : Json.Swapped .block (tree [x, exported]) (tree [exported, x]) :=
    .within [] [] (Json.sameBut_field _ [("kind", _)] [] _ _) rfl rfl
      (.dotted (Json.sameBut_field _ [("kind", _), ("name", _), ("flags", _)] [] _ _) rfl hinner)
  have htext : (convert {} [tree [x, exported]]).toOption.map Prod.snd = some text := by
    decide +kernel
  obtain ⟨c, hc, hct⟩ := exists_ok_of_map htext
  obtain ⟨d, hd, hdt⟩ := hsame _ _ hswapped c hc
  exact ⟨hswapped, ⟨c.1, by rw [hc, ← hct]⟩, d.1, by rw [hd, ← hct, hdt]⟩

end Conversion

end Libdef

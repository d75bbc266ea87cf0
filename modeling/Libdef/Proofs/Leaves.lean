import Mathlib.Data.List.Forall2
import Libdef.Proofs.Declarators

/-!
The leaves of a tree: the places at which going through it stores an item or makes a report.
Namespaces and modules that have a name are no leaves; they stand for what is in their bodies.
Main statement: a tree that is collected without a fault leaves one trace for each of its leaves,
in document order, and no other.
-/

set_option autoImplicit false

namespace Libdef

inductive Leaf where
  | declaration (j : Json)
  | declarator (j : Json)
  | exportAssignment (j : Json)
  | unnamedModule
  | other (j : Json)

/-- The leaves of a value as a statement, as a block or file, and as a list of statements. -/
structure Foliage where
  statement : List Leaf := []
  block : List Leaf := []
  statements : List Leaf := []

def Json.isUnnamed (j : Json) : Bool := (j.get "name").nameText.toOption.join.getD "" == ""

namespace Foliage

/-- A body that is a module itself counts as the statement that it is. -/
def bodyOf (inner : Json) (body : Foliage) : List Leaf :=
  if inner.isNull then []
  else if (inner.get "kind").isStr "ModuleDeclaration" then body.statement
  else body.block

def statementOf (j : Json) (body : Foliage) : List Leaf :=
  let kind := j.get "kind"
  if kind.isStr "ModuleDeclaration" then
    if j.isUnnamed then [.unnamedModule] else bodyOf (j.get "body") body
  else if (Filing.declarationBucket? kind).isSome then [.declaration j]
  else if kind.isStr "VariableStatement" then
    ((j.get "declarationList").get "declarations").items.map Leaf.declarator
  else if kind.isStr "ExportAssignment" then [.exportAssignment j]
  else [.other j]

def step (j : Json) (items : List Foliage) (field : Text → Option Foliage) : Foliage where
  statement := statementOf j ((field "body").getD {})
  block := ((field "statements").getD {}).statements
  statements := items.flatMap statement

end Foliage

namespace Json

def foliage (j : Json) : Foliage := j.visit Foliage.step

theorem foliage_eq (j : Json) :
    j.foliage = Foliage.step j (j.items.map foliage) fun key => (j.field? key).map foliage :=
  visit_eq Foliage.step j

def leaves (j : Json) : List Leaf := j.foliage.block

def leafCount (j : Json) : Nat := j.leaves.length

theorem foliage_part {j : Json} {key : Text} (h : (j.get key).isNull = false) :
    ((j.field? key).map foliage).getD {} = (j.get key).foliage := by
  rw [field?_of_get rfl h]
  rfl

end Json

namespace Site

def leaf? : Site → Option Leaf
  | .declaration j _ _ => some (.declaration j)
  | .declarator j _ => some (.declarator j)
  | .exportAssignment j _ => some (.exportAssignment j)
  | .other j _ => some (.other j)
  | .unnamedModule _ => some .unnamedModule
  | _ => none

theorem not_pass_malformed (fault : Fault) : ¬Pass [.malformed fault] := by
  intro h
  have hf := h (.malformed fault) (by simp)
  cases hf

theorem Pass.tail {site : Site} {rest : List Site} (h : Pass (site :: rest)) : Pass rest :=
  fun s hs => h s (by simp [hs])

end Site

namespace Tour

open Site

/-- A tour of sites that go through comes to just the given leaves. -/
structure Bears (t : Tour) (f : Foliage) : Prop where
  statement : ∀ context, Pass (t.statement context) →
    (t.statement context).filterMap leaf? = f.statement
  block : ∀ context, Pass (t.block context) → (t.block context).filterMap leaf? = f.block
  statements : ∀ context, Pass (t.statements context) →
    (t.statements context).filterMap leaf? = f.statements

variable {j : Json} {context : Text}

theorem declarators_leaves {list : Json} (h : Pass (declarators context list)) :
    (declarators context list).filterMap leaf? = list.items.map Leaf.declarator := by
  cases list with
  | arr items =>
    simp only [declarators, Json.items, List.filterMap_map]
    rw [← List.filterMap_eq_map]
    rfl
  | str _ | obj _ =>
    simp only [declarators] at h ⊢
    split at h
    · rename_i he
      simp [he, Json.items]
    · exact (not_pass_malformed _ h).elim
  | null => rfl
  | bool _ | int _ | real _ =>
    simp only [declarators] at h ⊢
    split at h
    · exact (not_pass_malformed _ h).elim
    · rename_i ht
      simp [ht, Json.items]

theorem variableStatement_leaves (h : Pass (variableStatement j context)) :
    (variableStatement j context).filterMap leaf? =
      ((j.get "declarationList").get "declarations").items.map Leaf.declarator := by
  simp only [variableStatement] at h ⊢
  split at h
  · rename_i ht
    split at h
    · rename_i ho
      simp only [ht, ho, if_true]
      exact declarators_leaves h
    · exact (not_pass_malformed _ h).elim
  · rename_i ht
    -- What counts as absent has no fields.
    cases hl : j.get "declarationList" with
    | obj fields =>
      rw [hl] at ht
      simp_all [Json.truthy, Json.get, Json.field?, Json.items]
    | _ =>
      rw [hl] at ht
      simp_all [Json.get, Json.field?, Json.items]

structure BearsBody (inner : Json) (body : Tour) (f : Foliage) : Prop extends Bears body f where
  module : (inner.get "kind").isStr "ModuleDeclaration" = true → ∀ context qualifier,
    Pass (body.module context qualifier) →
      (body.module context qualifier).filterMap leaf? = f.statement

section Module

variable {inner : Json} {body : Tour} {f : Foliage}

theorem namespaceOf_leaves (hbody : inner.isNull = false → BearsBody inner body f) {name : Text}
    (h : Pass (namespaceOf inner body context name)) :
    (namespaceOf inner body context name).filterMap leaf? = Foliage.bodyOf inner f := by
  simp only [namespaceOf, Foliage.bodyOf] at h ⊢
  by_cases hn : inner.isNull = true
  · simp [hn, leaf?]
  have hb := hbody (by simpa using hn)
  by_cases ho : inner.isObj = true
  · by_cases hm : (inner.get "kind").isStr "ModuleDeclaration" = true
    · simp only [hn, ho, hm, Bool.not_true, if_true] at h ⊢
      exact hb.module hm _ _ h
    · simp only [hn, ho, hm, Bool.not_true, Bool.false_eq_true, if_false] at h ⊢
      exact hb.block _ h.tail.tail
  · simp only [hn, ho, Bool.not_false, if_true] at h
    exact (not_pass_malformed _ h).elim

theorem plainModuleOf_leaves (hbody : inner.isNull = false → BearsBody inner body f)
    {name : Text} (h : Pass (plainModuleOf inner body name)) :
    (plainModuleOf inner body name).filterMap leaf? = Foliage.bodyOf inner f := by
  have ht := h.tail
  simp only [plainModuleOf, Foliage.bodyOf, List.filterMap_cons, leaf?] at ht ⊢
  by_cases hn : inner.isNull = true
  · simp [hn]
  have hb := hbody (by simpa using hn)
  by_cases ho : inner.isObj = true
  · by_cases hm : (inner.get "kind").isStr "ModuleDeclaration" = true
    · simp only [hn, ho, hm, Bool.not_true, if_true] at ht ⊢
      exact hb.statement _ ht
    · simp only [hn, ho, hm, Bool.not_true, Bool.false_eq_true, if_false] at ht ⊢
      exact hb.block _ ht
  · simp only [hn, ho, Bool.not_false, if_true] at ht
    exact (not_pass_malformed _ ht).elim

theorem moduleOf_leaves (hbody : (j.get "body").isNull = false → BearsBody (j.get "body") body f)
    {qualifier : Option Text} (h : Pass (moduleOf j body context qualifier)) :
    (moduleOf j body context qualifier).filterMap leaf? =
      if j.isUnnamed then [.unnamedModule] else Foliage.bodyOf (j.get "body") f := by
  simp only [moduleOf] at h ⊢
  cases hname : (j.get "name").nameText with
  | error e =>
    rw [hname] at h
    exact (not_pass_malformed _ h).elim
  | ok own =>
    simp only [hname] at h
    have hunnamed : j.isUnnamed = (own.getD "" == "") := by
      simp [Json.isUnnamed, hname, Except.toOption]
    by_cases he : own.getD "" = ""
    · simp [he, hunnamed, leaf?]
    simp only [he, if_false] at h
    simp only [he, if_false, hunnamed, beq_iff_eq]
    cases hf : Filing.isNamespace (j.get "flags") with
    | error e =>
      rw [hf] at h
      exact (not_pass_malformed _ h).elim
    | ok isNamespace =>
      rw [hf] at h
      cases isNamespace with
      | true => exact namespaceOf_leaves hbody h
      | false => exact plainModuleOf_leaves hbody h

theorem statementOf_leaves {module : Option Text → List Site}
    (hmodule : Pass (module none) → (module none).filterMap leaf? =
      if j.isUnnamed then [.unnamedModule] else Foliage.bodyOf (j.get "body") f)
    (h : Pass (statementOf j module context)) :
    (statementOf j module context).filterMap leaf? = Foliage.statementOf j f := by
  simp only [statementOf, Foliage.statementOf] at h ⊢
  split at h
  · rename_i hm
    simp only [hm, if_true]
    exact hmodule h
  split at h
  · exact (not_pass_malformed _ h).elim
  rename_i hm hc
  simp only [hm, hc]
  cases hb : Filing.declarationBucket? (j.get "kind") with
  | some bucket => simp [leaf?]
  | none =>
    rw [hb] at h
    simp only [Option.isSome_none] at h ⊢
    split at h
    · rename_i hv
      simp only [hv, if_true]
      exact variableStatement_leaves h
    · rename_i hv
      simp only [hv, Bool.false_eq_true, if_false]
      split <;> rfl

end Module

theorem statementsOf_leaves {items : List Json} (hitems : ∀ i ∈ items, i.tour.Bears i.foliage)
    (h : Pass ((items.map Json.tour).flatMap fun item => item.statement context)) :
    ((items.map Json.tour).flatMap fun item => item.statement context).filterMap leaf? =
      (items.map Json.foliage).flatMap Foliage.statement := by
  induction items with
  | nil => rfl
  | cons i rest ih =>
    simp only [List.map_cons, List.flatMap_cons, List.filterMap_append] at h ⊢
    have hi := hitems i (by simp)
    rw [hi.statement context fun s hs => h s (by simp [hs]),
      ih (fun x hx => hitems x (by simp [hx])) fun s hs => h s (by simp_all)]

end Tour

namespace Json

open Site

theorem tour_bears (j : Json) : Tour.BearsBody j j.tour j.foliage := by
  induction j using Json.induct with
  | h j ih =>
    have hpart {key : Text} (hn : (j.get key).isNull = false) :
        Tour.BearsBody (j.get key) (j.get key).tour (j.get key).foliage :=
      ih _ (mem_children_of_field? (field?_of_get rfl hn))
    have hstatements (context : Text) (h : Pass (j.tour.statements context)) :
        (j.tour.statements context).filterMap leaf? = j.foliage.statements := by
      rw [tour_eq, Tour.step_statements] at h ⊢
      rw [foliage_eq]
      cases j with
      | arr items =>
        exact Tour.statementsOf_leaves (fun i hi => (ih i hi).toBears) h
      | str _ | obj _ =>
        simp only [Tour.statementsOf] at h ⊢
        split at h
        · rename_i he
          simp [he, Foliage.step, items]
        · exact (not_pass_malformed _ h).elim
      | _ => exact (not_pass_malformed _ h).elim
    cases j with
    | obj fields =>
      have hbody (hn : ((Json.obj fields).get "body").isNull = false) :
          Tour.BearsBody ((Json.obj fields).get "body")
            (((Json.obj fields).field? "body").map tour |>.getD (Tour.failing .noFields))
            (((Json.obj fields).field? "body").map foliage |>.getD {}) := by
        rw [tour_part hn, foliage_part hn]
        exact hpart hn
      refine ⟨⟨fun context h => ?_, fun context h => ?_, hstatements⟩, fun hk context q h => ?_⟩
      · rw [tour_eq] at h ⊢
        rw [foliage_eq]
        exact Tour.statementOf_leaves (Tour.moduleOf_leaves hbody) h
      · rw [tour_eq] at h ⊢
        rw [foliage_eq]
        simp only [Tour.step, Tour.blockOf, Foliage.step] at h ⊢
        split at h
        · cases h _ (List.mem_singleton_self _)
        · rename_i hs
          have hn : ((Json.obj fields).get "statements").isNull = false := by simpa using hs
          simp only [hn, Bool.false_eq_true, if_false, tour_part hn, foliage_part hn] at h ⊢
          exact (hpart hn).statements context h
      · rw [tour_eq] at h ⊢
        rw [foliage_eq]
        simp only [Foliage.step, Foliage.statementOf, hk, if_true]
        exact Tour.moduleOf_leaves hbody h
    | _ =>
      -- A value without fields goes through as a list of statements only.
      rw [tour_eq] at hstatements ⊢
      refine ⟨⟨fun context h => ?_, fun context h => ?_, hstatements⟩, fun _ context q h => ?_⟩
      all_goals exact (not_pass_malformed _ h).elim

end Json

/-! What a leaf leaves behind. -/

/-- The trace of a leaf: what is stored for it, or else what is reported. A declaration is always
stored; the others are stored unless a name is missing that they need. -/
inductive Leaf.Gives : Leaf → Item ⊕ Diagnostic → Prop where
  | declaration {j : Json} {node : Node} (h : Node.declarationOfJson j = .ok node) :
      Gives (.declaration j) (.inl (.declaration node))
  | declarator {j : Json} {name type : Text} (h : j.declared? = some (name, type)) :
      Gives (.declarator j)
        (.inl (.variable (Filing.variableOf name (Text.split '.' type))))
  | dropped {j : Json} {d : Diagnostic} (h : j.declared? = none) (hd : d.kind = .droppedVariable) :
      Gives (.declarator j) (.inr d)
  | exportAssignment {j : Json} {name : Text} (h : j.exported? = some name) :
      Gives (.exportAssignment j) (.inl (.export { name, isDefault := true }))
  | unnamedExport {j : Json} {d : Diagnostic} (h : j.exported? = none)
      (hd : d.kind = .ignoredStatement) : Gives (.exportAssignment j) (.inr d)
  | unnamedModule {d : Diagnostic} (hd : d.kind = .ignoredStatement) :
      Gives .unnamedModule (.inr d)
  | other {j : Json} {d : Diagnostic} (hd : d.kind = .ignoredStatement) :
      Gives (.other j) (.inr d)

namespace Site

def reportKind : Site → DiagnosticKind
  | .declarator _ _ => .droppedVariable
  | _ => .ignoredStatement

theorem kind_of_report_mem {site : Site} {d : Diagnostic} (h : .report d ∈ site.filing.log) :
    d.kind = site.reportKind := by
  cases site with
  | declaration j bucket context =>
    obtain ⟨node, h⟩ := Traced.mem_log_lift_bind h
    simp at h
  | declarator j context =>
    have hdropped (name : Option Text)
        (h : .report d ∈ (Filing.variableDeclaration.dropped context name).log) :
        d.kind = .droppedVariable := by
      simp only [Filing.variableDeclaration.dropped, Traced.log_tell, List.mem_singleton,
        Entry.report.injEq] at h
      rw [h]
    simp only [filing, Filing.variableDeclaration] at h
    split at h
    · simp at h
    obtain ⟨name, h⟩ := Traced.mem_log_lift_bind h
    obtain ⟨typeName, h⟩ := Traced.mem_log_lift_bind h
    obtain ⟨parts, h⟩ := Traced.mem_log_lift_bind h
    cases parts with
    | none => exact hdropped name h
    | some parts =>
      dsimp only at h
      split at h
      · exact hdropped name h
      · simp at h
  | exportAssignment j context =>
    obtain ⟨name, h⟩ := Traced.mem_log_lift_bind h
    split at h
    · simp only [Filing.ignored, Traced.log_tell, List.mem_singleton, Entry.report.injEq] at h
      rw [h]
      rfl
    · simp at h
  | other j context =>
    obtain ⟨name, h⟩ := Traced.mem_log_lift_bind h
    simp only [Filing.ignored, Traced.log_tell, List.mem_singleton, Entry.report.injEq] at h
    rw [h]
    rfl
  | unnamedModule context =>
    simp only [filing, Filing.ignored, Traced.log_tell, List.mem_singleton, Entry.report.injEq] at h
    rw [h]
    rfl
  | _ => simp [filing] at h

end Site

def Entry.trace? : Entry → Option (Item ⊕ Diagnostic)
  | .item i _ _ => some (.inl i)
  | .report d => some (.inr d)
  | _ => none

namespace Site

/-- A site that goes through makes one entry: the trace of its leaf, if it has one. -/
theorem exists_trace {site : Site} (hok : site.filing.result = .ok ()) :
    ∃ entry, site.filing.log = [entry] ∧
      Option.Rel Leaf.Gives site.leaf? entry.trace? := by
  obtain ⟨entry, heq, hfiles⟩ := files_of_ok hok
  refine ⟨entry, by rw [heq]; rfl, ?_⟩
  have hkind (d : Diagnostic) (he : entry = .report d) : d.kind = site.reportKind :=
    kind_of_report_mem (by simp [heq, he])
  cases hfiles with
  | declaration j bucket context node =>
    obtain ⟨node', hnode, heq'⟩ := Traced.lift_bind_of_ok hok
    have hentry := congrArg Traced.log (heq'.symm.trans heq)
    simp only [Traced.log_tell, List.cons.injEq, Entry.item.injEq, Item.declaration.injEq,
      and_true] at hentry
    exact .some (hentry ▸ .declaration hnode)
  | declarator context h => exact .some (.declarator h)
  | dropped context h d => exact .some (.dropped h (hkind d rfl))
  | exportAssignment context h => exact .some (.exportAssignment h)
  | unnamedExport context h d => exact .some (.unnamedExport h (hkind d rfl))
  | other j context d => exact .some (.other (hkind d rfl))
  | unnamedModule context d => exact .some (.unnamedModule (hkind d rfl))
  | knownNamespace name => exact .none
  | knownContext name => exact .none

theorem Pass.traces {sites : List Site} (h : Pass sites) :
    List.Forall₂ Leaf.Gives (sites.filterMap leaf?)
      ((sites.forM filing).log.filterMap Entry.trace?) := by
  rw [h.log_eq, entries]
  induction sites with
  | nil => exact .nil
  | cons site rest ih =>
    obtain ⟨entry, hlog, hrel⟩ := exists_trace (h site (by simp))
    have hrest := ih h.tail
    simp only [List.flatMap_cons, hlog, List.singleton_append, List.filterMap_cons]
    cases hl : site.leaf? <;> cases ht : entry.trace? <;> rw [hl, ht] at hrel <;> cases hrel
    · exact hrest
    · exact .cons ‹_› hrest

end Site

def Store.items (store : Store) : List Item := store.entries.toList.map Prod.snd

theorem Store.length_items (store : Store) : store.items.length = store.size := by
  simp [items, size]

namespace Conversion

variable {c d : Conversion}

/-- The store and the log of `d` are those of `c` with the traces added. -/
structure Extends (c d : Conversion) (traces : List (Item ⊕ Diagnostic)) : Prop where
  items : d.store.items = c.store.items ++ traces.filterMap Sum.getLeft?
  records : d.log.records = c.log.records ++ traces.filterMap Sum.getRight?

theorem extends_enter (c : Conversion) (entry : Entry) :
    c.Extends (c.enter entry) entry.trace?.toList := by
  cases entry with
  | item item context b =>
    refine ⟨?_, ?_⟩
    · simp [enter, insert, Store.insert, Store.items, Entry.trace?]
    · simp [enter, insert, Entry.trace?]
  | knownNamespace name =>
    simp only [enter, pushNamespace]
    split <;> refine ⟨?_, ?_⟩ <;> simp [Entry.trace?]
  | knownContext name =>
    refine ⟨?_, ?_⟩ <;> simp [enter, requestContext, Entry.trace?]
  | report d =>
    refine ⟨?_, ?_⟩
    · simp [enter, report, Entry.trace?]
    · simp [enter, report, Log.add, Entry.trace?]

theorem extends_enterAll (c : Conversion) (entries : List Entry) :
    c.Extends (c.enterAll entries) (entries.filterMap Entry.trace?) := by
  induction entries generalizing c with
  | nil => exact ⟨by simp [enterAll], by simp [enterAll]⟩
  | cons entry rest ih =>
    obtain ⟨hi, hr⟩ := c.extends_enter entry
    obtain ⟨hi', hr'⟩ := ih (c.enter entry)
    have hsplit : (entry :: rest).filterMap Entry.trace? =
        entry.trace?.toList ++ rest.filterMap Entry.trace? := by
      cases h : entry.trace? <;> simp [h]
    rw [enterAll, List.foldl_cons, ← enterAll, hsplit]
    exact ⟨by rw [hi', hi]; simp, by rw [hr', hr]; simp⟩

theorem length_getLeft?_add_length_getRight? {α β : Type} (l : List (α ⊕ β)) :
    (l.filterMap Sum.getLeft?).length + (l.filterMap Sum.getRight?).length = l.length := by
  induction l with
  | nil => rfl
  | cons trace rest ih =>
    cases trace with
    | inl a =>
      simp only [List.filterMap_cons, Sum.getLeft?_inl, Sum.getRight?_inl, List.length_cons]
      omega
    | inr b =>
      simp only [List.filterMap_cons, Sum.getLeft?_inr, Sum.getRight?_inr, List.length_cons]
      omega

theorem Extends.size_add_size {traces : List (Item ⊕ Diagnostic)} (h : c.Extends d traces) :
    d.store.size + d.log.size = c.store.size + c.log.size + traces.length := by
  have hcount := length_getLeft?_add_length_getRight? traces
  have hi := congrArg List.length h.items
  have hr := congrArg List.length h.records
  simp only [List.length_append, Store.length_items] at hi hr
  simp only [Log.size]
  omega

/-- A tree that is collected without a fault, in any context and on top of anything, has each of its
leaves stored or reported, once and not both; so the store and the log grow together by as many
entries as the tree has leaves. -/
theorem collectTree_accounts (c : Conversion) (tree : Json) (context : Text)
    (h : (c.collectTree tree context).result = .ok ()) :
    let d := (c.collectTree tree context).state
    d.store.size + d.log.size = c.store.size + c.log.size + tree.leafCount ∧
      ∃ traces, List.Forall₂ Leaf.Gives tree.leaves traces ∧ c.Extends d traces := by
  intro d
  rw [collectTree_eq] at h
  have hpass : Site.Pass (tree.tour.block context) := Site.pass_iff.mp h
  have hextends : c.Extends d (((tree.tour.block context).forM Site.filing).log.filterMap
      Entry.trace?) := by
    simp only [d, collectTree_eq]
    exact c.extends_enterAll _
  have htraces := hpass.traces
  rw [tree.tour_bears.block context hpass] at htraces
  refine ⟨?_, _, htraces, hextends⟩
  rw [hextends.size_add_size, ← htraces.length_eq]
  rfl

/-- A dotted namespace with a class and two declarators, of which one has no type name, a module
around one without a name, an export of nothing and an import make six leaves; two are stored. -/
theorem collectTree_accounts_nested :
    let unnamed := Json.obj [("kind", .str "ModuleDeclaration")]
    let type := Json.obj [("kind", .str "TypeReference"), ("typeName", .str "T")]
    let declarators := Json.obj [("declarations", .arr [
      .obj [("name", .str "x"), ("type", type)], .obj [("name", .str "y")]])]
    let inner := Json.namespaceNode "B" [
      .obj [("kind", .str "ClassDeclaration"), ("name", .str "C")],
      .obj [("kind", .str "VariableStatement"), ("declarationList", declarators)]]
    let outer := Json.obj [("kind", .str "ModuleDeclaration"), ("name", .str "A"),
      ("flags", .int 16), ("body", inner)]
    let plain := Json.obj [("kind", .str "ModuleDeclaration"), ("name", .str "m"),
      ("body", unnamed)]
    let tree := Json.sourceFile [outer, plain, .obj [("kind", .str "ExportAssignment")],
      .obj [("kind", .str "ImportDeclaration")]]
    let step := collectTree {} tree ModuleName.root
    step.result = .ok () ∧ tree.leafCount = 6 ∧ step.state.store.size = 2 ∧
      step.state.store.size + step.state.log.size = 6 := by
  intro unnamed type declarators inner outer plain tree step
  have hok : step.result = .ok () := rfl
  have hcount : tree.leafCount = 6 := by decide +kernel
  have hsize : step.state.store.size = 2 := by decide +kernel
  refine ⟨hok, hcount, hsize, ?_⟩
  rw [(collectTree_accounts {} tree ModuleName.root hok).1, hcount]
  rfl

end Conversion
end Libdef

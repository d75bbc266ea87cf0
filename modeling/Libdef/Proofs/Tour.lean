import Libdef.Conversion.Output
import Libdef.Proofs.Outcome

/-!
The tour of a tree: the sites that the collector comes to, in document order, each with the context
it stands in. It depends on the tree only. Main statement: what the collector does to a conversion
is to enter what the sites of the tree file, one after the other and up to the first fault.
-/

set_option autoImplicit false

namespace Libdef

theorem Json.visit_hom {α β : Type} {f : Json → List α → (Text → Option α) → α}
    {g : Json → List β → (Text → Option β) → β} (φ : α → β)
    (h : ∀ j items field,
      φ (f j items field) = g j (items.map φ) fun key => (field key).map φ) (j : Json) :
    φ (j.visit f) = j.visit g := by
  induction j using Json.induct with
  | h j ih =>
    rw [visit_eq, visit_eq, h, List.map_map]
    congr 1
    · exact List.map_congr_left fun i hi => ih i (mem_children_of_mem_items hi)
    · funext key
      cases hf : j.field? key with
      | none => rfl
      | some i => simp [ih i (mem_children_of_field? hf)]

inductive Site where
  | declaration (j : Json) (bucket : Bucket) (context : Text)
  | declarator (j : Json) (context : Text)
  | exportAssignment (j : Json) (context : Text)
  | other (j : Json) (context : Text)
  | unnamedModule (context : Text)
  | knownNamespace (name : Text)
  | knownContext (name : Text)
  /-- A file or the body of a module that has no list of statements. -/
  | unlisted (j : Json)
  | malformed (fault : Fault)

namespace Site

def filing : Site → Filing
  | .declaration j bucket context => Filing.declaration j bucket context
  | .declarator j context => Filing.variableDeclaration context j
  | .exportAssignment j context => Filing.exportAssignment j context
  | .other j context => Filing.otherStatement j context
  | .unnamedModule context => Filing.ignored none "Ignoring unnamed module declaration" context
  | .knownNamespace name => Traced.tell (.knownNamespace name)
  | .knownContext name => Traced.tell (.knownContext name)
  | .unlisted j => Traced.fail (.noStatements (j.field? "kind"))
  | .malformed fault => Traced.fail fault

def Pass (sites : List Site) : Prop := ∀ site ∈ sites, site.filing.result = .ok ()

def entries (sites : List Site) : List Entry := sites.flatMap fun site => site.filing.log

theorem pass_iff {sites : List Site} : (sites.forM filing).result = .ok () ↔ Pass sites :=
  Traced.result_forM_eq_ok_iff

theorem Pass.log_eq {sites : List Site} (h : Pass sites) :
    (sites.forM filing).log = entries sites :=
  Traced.log_forM_of_ok h

end Site

/-- The sites of a value as a statement, as a block or file, as a list of statements, and as a
module whose name follows a qualifier. -/
structure Tour where
  statement : Text → List Site
  block : Text → List Site
  statements : Text → List Site
  module : Text → Option Text → List Site

namespace Tour

def failing (fault : Fault) : Tour where
  statement _ := [.malformed fault]
  block _ := [.malformed fault]
  statements _ := [.malformed fault]
  module _ _ := [.malformed fault]

def declarators (context : Text) (list : Json) : List Site :=
  match list with
  | .arr items => items.map fun j => .declarator j context
  | .str s => if s = "" then [] else [.malformed .noFields]
  | .obj fields => if fields.isEmpty then [] else [.malformed .noFields]
  | list => if list.truthy then [.malformed .notSequence] else []

def variableStatement (j : Json) (context : Text) : List Site :=
  let list := j.get "declarationList"
  if list.truthy then
    if list.isObj then declarators context (list.get "declarations") else [.malformed .noFields]
  else []

/-- A namespace is known by its whole dotted name, and its body belongs to its own context. -/
def namespaceOf (inner : Json) (body : Tour) (context name : Text) : List Site :=
  if inner.isNull then [.knownNamespace name, .knownContext (ModuleName.contextOf name)]
  else if !inner.isObj then [.malformed .noFields]
  else if (inner.get "kind").isStr "ModuleDeclaration" then body.module context (some name)
  else .knownNamespace name :: .knownContext (ModuleName.contextOf name) ::
    body.block (ModuleName.contextOf name)

def plainModuleOf (inner : Json) (body : Tour) (name : Text) : List Site :=
  .knownContext name ::
    if inner.isNull then []
    else if !inner.isObj then [.malformed .noFields]
    else if (inner.get "kind").isStr "ModuleDeclaration" then body.statement name
    else body.block name

def moduleOf (j : Json) (body : Tour) (context : Text) (qualifier : Option Text) :
    List Site :=
  match (j.get "name").nameText with
  | .error fault => [.malformed fault]
  | .ok own =>
    if own.getD "" = "" then [.unnamedModule context]
    else
      match Filing.isNamespace (j.get "flags") with
      | .error fault => [.malformed fault]
      | .ok true =>
        namespaceOf (j.get "body") body context (ModuleName.qualified qualifier (own.getD ""))
      | .ok false =>
        plainModuleOf (j.get "body") body (ModuleName.qualified qualifier (own.getD ""))

def statementOf (j : Json) (module : Option Text → List Site) (context : Text) :
    List Site :=
  let kind := j.get "kind"
  if kind.isStr "ModuleDeclaration" then module none
  else if kind.isContainer then [.malformed .notLookedUp]
  else
    match Filing.declarationBucket? kind with
    | some bucket => [.declaration j bucket context]
    | none =>
      if kind.isStr "VariableStatement" then variableStatement j context
      else if kind.isStr "ExportAssignment" then [.exportAssignment j context]
      else [.other j context]

def blockOf (j : Json) (statements : Tour) (context : Text) : List Site :=
  if (j.get "statements").isNull then [.unlisted j] else statements.statements context

def statementsOf (j : Json) (items : List Tour) (context : Text) : List Site :=
  match j with
  | .arr _ => items.flatMap fun item => item.statement context
  | .str s => if s = "" then [] else [.malformed .noFields]
  | .obj fields => if fields.isEmpty then [] else [.malformed .noFields]
  | _ => [.malformed .notSequence]

def step (j : Json) (items : List Tour) (field : Text → Option Tour) : Tour :=
  let part (key : Text) := (field key).getD (failing .noFields)
  match j with
  | .obj _ =>
    let module := moduleOf j (part "body")
    { statement := fun context => statementOf j (module context) context
      block := blockOf j (part "statements")
      statements := statementsOf j items
      module }
  | j => { failing .noFields with statements := statementsOf j items }

end Tour

def Json.tour (j : Json) : Tour := j.visit Tour.step

theorem Json.tour_eq (j : Json) :
    j.tour = Tour.step j (j.items.map tour) fun key => (j.field? key).map tour :=
  visit_eq Tour.step j

namespace Conversion

theorem take_andThen (c : Conversion) (first second : Filing) :
    (c.take first).andThen (fun d => d.take second) = c.take (first >>= fun _ => second) := by
  cases h : first.result with
  | error e => simp [take, Step.andThen, Traced.bind_of_error h, h]
  | ok u => simp [take, Step.andThen, Traced.bind_of_ok h, h, enterAll_append]

theorem forEach_take {α : Type} (file : α → Filing) (l : List α) (c : Conversion) :
    forEach (fun a d => d.take (file a)) l c = c.take (l.forM file) := by
  induction l generalizing c with
  | nil => rfl
  | cons a l ih =>
    have hrest : forEach (fun a d => d.take (file a)) l = fun d => d.take (l.forM file) :=
      funext ih
    rw [forEach, hrest, take_andThen]
    rfl

theorem take_singleton (c : Conversion) (site : Site) :
    c.take ([site].forM Site.filing) = c.take site.filing := by
  simp [bind_pure_comp]

theorem take_cons (c : Conversion) (site : Site) (rest : List Site) :
    c.take ((site :: rest).forM Site.filing) =
      (c.take site.filing).andThen fun d => d.take (rest.forM Site.filing) :=
  (c.take_andThen _ _).symm

theorem take_declarators (c : Conversion) (list : Json) (context : Text) :
    c.take ((Tour.declarators context list).forM Site.filing) =
      c.collectDeclarators list context := by
  cases list with
  | arr items =>
    simp only [collectDeclarators, forEach_take, Tour.declarators, List.forM_eq_forM,
      List.forM_map]
    rfl
  | str _ | obj _ =>
    simp only [collectDeclarators, Tour.declarators]
    split
    · rfl
    · exact c.take_singleton _
  | null => rfl
  | bool _ | int _ | real _ =>
    simp only [collectDeclarators, Tour.declarators]
    split
    · exact c.take_singleton _
    · rfl

theorem take_variableStatement (c : Conversion) (j : Json) (context : Text) :
    c.take ((Tour.variableStatement j context).forM Site.filing) =
      c.collectVariables j context := by
  simp only [collectVariables, Tour.variableStatement]
  split
  · split
    · exact c.take_declarators _ _
    · exact c.take_singleton _
  · rfl

end Conversion

namespace Tour

open Conversion

def collector (t : Tour) : Collector where
  statement context c := c.take ((t.statement context).forM Site.filing)
  block context c := c.take ((t.block context).forM Site.filing)
  statements context c := c.take ((t.statements context).forM Site.filing)
  module context qualifier c := c.take ((t.module context qualifier).forM Site.filing)

theorem collector_failing (fault : Fault) :
    (failing fault).collector = Collector.failing fault := by
  simp only [collector, failing, take_singleton]
  rfl

theorem collector_moduleOf (j : Json) (body : Tour) (context : Text) (qualifier : Option Text)
    (c : Conversion) :
    c.take ((moduleOf j body context qualifier).forM Site.filing) =
      Collector.moduleOf j body.collector context qualifier c := by
  simp only [moduleOf, Collector.moduleOf]
  cases (j.get "name").nameText with
  | error fault => exact c.take_singleton _
  | ok own =>
    simp only [reading]
    split
    · exact c.take_singleton _
    cases Filing.isNamespace (j.get "flags") with
    | error fault => exact c.take_singleton _
    | ok isNamespace =>
      generalize ModuleName.qualified qualifier (own.getD "") = name
      generalize j.get "body" = inner
      cases isNamespace with
      | true =>
        cases inner with
        | null => rfl
        | obj fields =>
          cases hm : ((Json.obj fields).get "kind").isStr "ModuleDeclaration" <;>
            simp [namespaceOf, hm, Json.isNull, Json.isObj] <;> rfl
        | _ => exact c.take_singleton _
      | false =>
        cases inner with
        | obj fields =>
          cases hm : ((Json.obj fields).get "kind").isStr "ModuleDeclaration" <;>
            simp [plainModuleOf, hm, Json.isNull, Json.isObj] <;> rfl
        | _ => rfl

theorem collector_statementOf (j : Json) (module : Option Text → List Site) (context : Text)
    (c : Conversion) :
    c.take ((statementOf j module context).forM Site.filing) =
      Collector.statementOf j (fun qualifier d => d.take ((module qualifier).forM Site.filing))
        context c := by
  simp only [statementOf, Collector.statementOf]
  split
  · rfl
  split
  · exact c.take_singleton _
  cases Filing.declarationBucket? (j.get "kind") with
  | some bucket => exact c.take_singleton _
  | none =>
    dsimp only
    split
    · exact c.take_variableStatement _ _
    split
    · exact c.take_singleton _
    · exact c.take_singleton _

theorem collector_blockOf (j : Json) (statements : Tour) (context : Text) (c : Conversion) :
    c.take ((blockOf j statements context).forM Site.filing) =
      Collector.blockOf j statements.collector context c := by
  simp only [blockOf, Collector.blockOf]
  split
  · exact c.take_singleton _
  · rfl

theorem collector_statementsOf (j : Json) (items : List Tour) (context : Text) (c : Conversion) :
    c.take ((statementsOf j items context).forM Site.filing) =
      Collector.statementsOf j (items.map collector) context c := by
  cases j with
  | arr _ =>
    simp only [statementsOf, Collector.statementsOf, Traced.forM_flatMap]
    rw [← forEach_take, Conversion.forEach_map]
    rfl
  | str _ | obj _ =>
    simp only [statementsOf, Collector.statementsOf]
    split
    · rfl
    · exact c.take_singleton _
  | _ => exact c.take_singleton _

theorem collector_step (j : Json) (items : List Tour) (field : Text → Option Tour) :
    (step j items field).collector =
      Collector.step j (items.map collector) fun key => (field key).map collector := by
  have hpart (key : Text) : ((field key).map collector).getD (Collector.failing .noFields) =
      ((field key).getD (failing .noFields)).collector := by
    cases field key <;> simp [collector_failing]
  cases j with
  | obj fields =>
    simp only [step, Collector.step, collector, hpart, Collector.mk.injEq]
    refine ⟨?_, ?_, ?_, ?_⟩
    · funext context c
      rw [collector_statementOf]
      simp only [collector_moduleOf]
      rfl
    · funext context c
      exact collector_blockOf _ _ _ _
    · funext context c
      exact collector_statementsOf _ _ _ _
    · funext context qualifier c
      exact collector_moduleOf _ _ _ _ _
  | _ =>
    -- A value without fields fails as anything but a list of statements.
    simp only [step, Collector.step, collector, failing, Collector.failing, Collector.mk.injEq,
      take_singleton]
    refine ⟨rfl, rfl, ?_, rfl⟩
    funext context c
    exact collector_statementsOf _ _ _ _

end Tour

/-- Whatever a value is collected as, what its sites file is entered, up to the first fault. -/
theorem Json.collector_eq_tour (j : Json) : j.collector = j.tour.collector :=
  (visit_hom Tour.collector Tour.collector_step j).symm

def sitesOf (trees : List Json) : List Site :=
  trees.flatMap fun tree => tree.tour.block ModuleName.root

namespace Conversion

theorem collectStatement_eq (c : Conversion) (statement : Json) (context : Text) :
    c.collectStatement statement context =
      c.take ((statement.tour.statement context).forM Site.filing) := by
  rw [collectStatement, Json.collector_eq_tour]
  rfl

theorem collectTree_eq (c : Conversion) (tree : Json) (context : Text) :
    c.collectTree tree context = c.take ((tree.tour.block context).forM Site.filing) := by
  rw [collectTree, Json.collector_eq_tour]
  rfl

theorem collectTrees_eq (trees : List Json) (c : Conversion) :
    collectTrees trees c = c.take ((sitesOf trees).forM Site.filing) := by
  simp only [collectTrees, collectTree_eq]
  rw [forEach_take, sitesOf, Traced.forM_flatMap]

end Conversion
end Libdef

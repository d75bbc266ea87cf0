import Libdef.Conversion.Filing

/-!
The collector goes through a tree statement by statement. Each of them works on the conversion that
the statements before it have left.
-/

set_option autoImplicit false

namespace Libdef

namespace Conversion

def Step.done (c : Conversion) : Step := ⟨c, .ok ()⟩

def Step.failed (c : Conversion) (fault : Fault) : Step := ⟨c, .error fault⟩

def reading {α : Type} (c : Conversion) (value : Except Fault α) (next : α → Step) : Step :=
  match value with
  | .ok a => next a
  | .error fault => .failed c fault

/-- An absent list of declarations is empty; the items of a text or of an object are texts. -/
def collectDeclarators (c : Conversion) (list : Json) (context : Text) : Step :=
  match list with
  | .arr items => forEach (fun j c => c.take (Filing.variableDeclaration context j)) items c
  | .str s => if s = "" then .done c else .failed c .noFields
  | .obj fields => if fields.isEmpty then .done c else .failed c .noFields
  | list => if list.truthy then .failed c .notSequence else .done c

def collectVariables (c : Conversion) (j : Json) (context : Text) : Step :=
  let list := j.get "declarationList"
  if list.truthy then
    if list.isObj then c.collectDeclarators (list.get "declarations") context
    else .failed c .noFields
  else .done c

end Conversion

/-- How a value is collected as a statement of a context, as a block or file of statements, as a
list of statements, and as a module whose name follows a qualifier. -/
structure Collector where
  statement : Text → Conversion → Conversion.Step
  block : Text → Conversion → Conversion.Step
  statements : Text → Conversion → Conversion.Step
  module : Text → Option Text → Conversion → Conversion.Step

namespace Collector

open Conversion (Step)

def failing (fault : Fault) : Collector where
  statement _ c := .failed c fault
  block _ c := .failed c fault
  statements _ c := .failed c fault
  module _ _ c := .failed c fault

/-- A module inside a namespace declaration continues the name of the namespace. Any other module
has a context of its own, which exists even if nothing is filed in it. -/
def moduleOf (j : Json) (body : Collector) (context : Text) (qualifier : Option Text)
    (c : Conversion) : Step :=
  c.reading (j.get "name").nameText fun own =>
    if own.getD "" = "" then
      c.take (Filing.ignored none "Ignoring unnamed module declaration" context)
    else
      c.reading (Filing.isNamespace (j.get "flags")) fun isNamespace =>
        let name := ModuleName.qualified qualifier (own.getD "")
        let inner := j.get "body"
        let isModule := (inner.get "kind").isStr "ModuleDeclaration"
        if isNamespace && !inner.isNull && !inner.isObj then .failed c .noFields
        else if isNamespace && isModule then body.module context (some name) c
        else
          let c := if isNamespace then c.pushNamespace name else c
          let place := if isNamespace then ModuleName.contextOf name else name
          let c := c.requestContext place
          if inner.isNull then .done c
          else if !inner.isObj then .failed c .noFields
          else if isModule then body.statement place c
          else body.block place c

def statementOf (j : Json) (module : Option Text → Conversion → Step) (context : Text)
    (c : Conversion) : Step :=
  let kind := j.get "kind"
  if kind.isStr "ModuleDeclaration" then module none c
  else if kind.isContainer then .failed c .notLookedUp
  else
    match Filing.declarationBucket? kind with
    | some bucket => c.take (Filing.declaration j bucket context)
    | none =>
      if kind.isStr "VariableStatement" then c.collectVariables j context
      else if kind.isStr "ExportAssignment" then c.take (Filing.exportAssignment j context)
      else c.take (Filing.otherStatement j context)

def blockOf (j : Json) (statements : Collector) (context : Text) (c : Conversion) : Step :=
  if (j.get "statements").isNull then .failed c (.noStatements (j.field? "kind"))
  else statements.statements context c

/-- The items of a text or of an object are texts, which are no statements. -/
def statementsOf (j : Json) (items : List Collector) (context : Text) (c : Conversion) : Step :=
  match j with
  | .arr _ => Conversion.forEach (fun item c => item.statement context c) items c
  | .str s => if s = "" then .done c else .failed c .noFields
  | .obj fields => if fields.isEmpty then .done c else .failed c .noFields
  | _ => .failed c .notSequence

def step (j : Json) (items : List Collector) (field : Text → Option Collector) : Collector :=
  let part (key : Text) := (field key).getD (failing .noFields)
  match j with
  | .obj _ =>
    let module := moduleOf j (part "body")
    { statement := fun context => statementOf j (module context) context
      block := blockOf j (part "statements")
      statements := statementsOf j items
      module }
  | j => { failing .noFields with statements := statementsOf j items }

end Collector

def Json.collector (j : Json) : Collector := j.visit Collector.step

namespace Conversion

def collectStatement (c : Conversion) (statement : Json) (context : Text) : Step :=
  statement.collector.statement context c

def collectTree (c : Conversion) (tree : Json) (context : Text) : Step :=
  tree.collector.block context c

end Conversion
end Libdef

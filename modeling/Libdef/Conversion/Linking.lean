import Libdef.Conversion.Basic

set_option autoImplicit false

namespace Libdef

inductive Request where
  | name (name module : Text)
  | binding (name module : Text)
  | report (d : Diagnostic)
  deriving Repr, DecidableEq

abbrev Linking := Traced Request Unit

namespace Linking

def deepReport (context : Text) (v : Variable) : Diagnostic where
  kind := .deepNamespace
  subject := some v.name
  message :=
    "Only one level of namespace qualification is resolved: " ++ v.qualifier ++ "." ++ v.value
  context := some context

def ofVariable (isNamespace : Text → Bool) (context : Text) (v : Variable) : List Request :=
  if isNamespace v.qualifier then [.name v.value (ModuleName.ofNamespace v.qualifier)]
  else if isNamespace v.value then [.binding v.name (ModuleName.ofNamespace v.value)]
  else if CodePoint.char '.' ∈ v.qualifier.toList then
    if isNamespace ((Text.split '.' v.qualifier).headD "") then [.report (deepReport context v)]
    else []
  else []

def tellAll (requests : List Request) : Linking := requests.forM Traced.tell

end Linking

namespace Conversion

def linkContext (c : Conversion) (context : Text) : Linking := do
  let items ← Traced.lift (c.items context .variables)
  items.forM fun item => do
    let v ← Traced.lift item.asVariable
    Linking.tellAll (Linking.ofVariable c.isNamespace context v)

def link (c : Conversion) : Linking := c.contexts.names.forM c.linkContext

def grant (c : Conversion) : Request → Conversion
  | .name name module => { c with imports := c.imports.addName name module }
  | .binding name module => { c with imports := c.imports.addBinding name module }
  | .report d => c.report d

/-- Grants what the variables of all contexts ask for, also before a fault. -/
def resolveVariables (c : Conversion) : Step :=
  let linking := c.link
  ⟨linking.log.foldl grant c, linking.result⟩

def findVariable (c : Conversion) (context : Text) (name : Option Text) :
    Except Fault (Option Item) := do
  let items ← c.items context .variables
  return (items.filter fun item => item.name == name).getLast?

/-- An export is looked up among the variables of its own context first, then of the root. -/
def findExportTarget (c : Conversion) (context : Text) (name : Option Text) :
    Except Fault (Option Item) := do
  match ← c.findVariable context name with
  | some item => return some item
  | none => if context = ModuleName.root then return none else c.findVariable ModuleName.root name

def unresolved (context : Text) (name : Option Text) : Diagnostic where
  kind := .unresolvedExport
  subject := name
  message := "No variable found, exporting declaration name"
  context := some context

def exportName (c : Conversion) (context : Text) (name : Option Text) :
    Except Fault (Option Text) := do
  match ← c.findExportTarget context name with
  | none => return none
  | some item => return some (← item.asVariable).value

def resolveExport (context : Text) (h : Handle) (c : Conversion) : Step :=
  match c.store.fetch h with
  | .error e => ⟨c, .error e⟩
  | .ok item =>
    match c.exportName context item.name with
    | .error e => ⟨c, .error e⟩
    | .ok none => ⟨c.report (unresolved context item.name), .ok ()⟩
    | .ok (some value) => ⟨{ c with store := c.store.modify h (·.rename value) }, .ok ()⟩

/-- The exports of a context are all there before the first of them is resolved. -/
def resolveContextExports (context : Text) (c : Conversion) : Step :=
  let handles := c.contexts.bucket context .exports
  match c.store.fetchAll handles with
  | .error e => ⟨c, .error e⟩
  | .ok _ => forEach (resolveExport context) handles c

def resolveExports (c : Conversion) : Step :=
  forEach resolveContextExports c.contexts.names c

def resolve (c : Conversion) : Step :=
  c.resolveVariables.andThen resolveExports

end Conversion
end Libdef

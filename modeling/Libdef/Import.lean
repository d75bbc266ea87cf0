import Libdef.Text.Split

set_option autoImplicit false

namespace Libdef

structure Import where
  module : Text
  binding : Option Text := none
  names : List Text := []
  deriving Repr, DecidableEq, Inhabited

namespace Import

def insertName (name : Text) : List Text → List Text
  | [] => [name]
  | n :: rest =>
    if name < n then name :: n :: rest
    else if name = n then n :: rest
    else n :: insertName name rest

def addName (name : Text) (i : Import) : Import :=
  { i with names := insertName name i.names }

def addBinding (name : Text) (i : Import) : Import :=
  match i.binding with
  | none => { i with binding := some name }
  | some old => if name < old then { i with binding := some name } else i

def hasName (i : Import) (name : Text) : Bool := i.names.contains name

def bindingText (i : Import) : Text := i.binding.getD ""

def namesText (i : Import) : Text :=
  if i.names.isEmpty then "" else "\x7b " ++ Text.join ", " i.names ++ " \x7d"

/-- The line that imports the binding and the names; an empty binding is left out. -/
def line (i : Import) : Text :=
  let between : Text := if i.bindingText = "" ∨ i.names.isEmpty then "" else ", "
  "import type " ++ i.bindingText ++ between ++ i.namesText ++ " from '" ++ i.module ++ "'"

def lines (records : List Import) : Text := Text.join "\n" (records.map line)

end Import

structure Imports where
  /-- In ascending order of their modules. -/
  records : List Import := []
  deriving Repr, DecidableEq, Inhabited

namespace Imports

def update (module : Text) (change : Import → Import) : List Import → List Import
  | [] => [change { module := module }]
  | i :: rest =>
    if module < i.module then change { module := module } :: i :: rest
    else if module = i.module then change i :: rest
    else i :: update module change rest

def addName (imports : Imports) (name module : Text) : Imports :=
  ⟨update module (Import.addName name) imports.records⟩

def addBinding (imports : Imports) (name module : Text) : Imports :=
  ⟨update module (Import.addBinding name) imports.records⟩

def get? (imports : Imports) (module : Text) : Option Import :=
  imports.records.find? fun i => i.module == module

/-- Whether a name is imported from a module, `none` for a module that is not imported at all. -/
def hasName? (imports : Imports) (name module : Text) : Option Bool :=
  (imports.get? module).map fun i => i.hasName name

def insertName (imports : Imports) (name module : Text) : Imports × Bool :=
  (imports.addName name module, imports.hasName? name module != some true)

def size (imports : Imports) : Nat := imports.records.length

end Imports
end Libdef

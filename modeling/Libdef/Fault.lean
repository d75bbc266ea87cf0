import Libdef.Json.Label
import Libdef.Node.Handle

set_option autoImplicit false

namespace Libdef

inductive Fault where
  /-- A field is asked of a value that is no object. -/
  | noFields
  /-- A number or a truth value stands where a list is gone through. -/
  | notSequence
  /-- A list or an object stands where a kind or a modifier is looked up. -/
  | notLookedUp
  | flagsNotInteger
  | textNotString
  /-- A signature is laid out although no line width is known. -/
  | noWidth
  | itemMismatch
  | unnamed (kind : Option Json)
  | noStatements (kind : Option Json)
  | nothingToStore
  | dangling (handle : Handle)
  deriving Repr

namespace Fault

def kindLabel (kind : Option Json) : Text :=
  match kind with
  | none => "<unknown>"
  | some j => j.label

def message? : Fault → Option Text
  | .unnamed kind => some ("Cannot resolve a name for " ++ kindLabel kind ++ " declaration")
  | .noStatements kind => some (kindLabel kind ++ " node has no statements")
  | .nothingToStore => some "Trying to insert invalid node"
  | .dangling handle => some ("Trying to reference invalid node: " ++ handle.text)
  | _ => none

end Fault
end Libdef

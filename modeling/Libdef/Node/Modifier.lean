import Libdef.Text.Basic

set_option autoImplicit false

namespace Libdef

inductive Modifier where
  | abstractKeyword
  | declareKeyword
  | defaultKeyword
  | exportKeyword
  | privateKeyword
  | protectedKeyword
  | publicKeyword
  | readonlyKeyword
  | staticKeyword
  deriving Repr, DecidableEq, Inhabited

namespace Modifier

def all : List Modifier := [
  .abstractKeyword, .declareKeyword, .defaultKeyword, .exportKeyword, .privateKeyword,
  .protectedKeyword, .publicKeyword, .readonlyKeyword, .staticKeyword]

def name : Modifier → Text
  | .abstractKeyword => "AbstractKeyword"
  | .declareKeyword => "DeclareKeyword"
  | .defaultKeyword => "DefaultKeyword"
  | .exportKeyword => "ExportKeyword"
  | .privateKeyword => "PrivateKeyword"
  | .protectedKeyword => "ProtectedKeyword"
  | .publicKeyword => "PublicKeyword"
  | .readonlyKeyword => "ReadonlyKeyword"
  | .staticKeyword => "StaticKeyword"

def ofName? (s : Text) : Option Modifier :=
  all.find? fun m => m.name == s

/-- The modifiers among the given ones, each once and in the order of their names. -/
def collect (found : List Modifier) : List Modifier :=
  all.filter fun m => found.contains m

end Modifier
end Libdef

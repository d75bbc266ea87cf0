import Libdef.Command.Path
import Libdef.Json.Reader
import Libdef.Text.Utf8

set_option autoImplicit false

namespace Libdef.Command

inductive Content where
  | file (bytes : List UInt8)
  | directory
  | absent
  deriving Repr, DecidableEq

inductive InputFault where
  | notFound (path : Path)
  | isDirectory (path : Path)
  | notText (fault : Text.Utf8.Fault)
  | malformed (path : Path)
  | oversized (digits : Nat)
  | noSource (path : Path)
  deriving Repr, DecidableEq

def InputFault.message? : InputFault → Option Text
  | .notFound path => some ("Input file not found: " ++ path.text)
  | .isDirectory _ => none
  | .notText fault => some fault.message
  | .malformed path => some ("Invalid JSON in " ++ path.text)
  | .oversized digits =>
    some ("Exceeds the limit (" ++ toString Text.maxDigits ++
      " digits) for integer string conversion: value has " ++ toString digits ++
      " digits; use sys.set_int_max_str_digits() to increase the limit")
  | .noSource path => some (path.text ++ " does not contain a source file node")

def isSource (j : Json) : Bool :=
  match j.get "statements" with
  | .arr _ => true
  | _ => false

def sources (path : Path) (document : Json) : Except InputFault (List Json) :=
  let roots := match document with
    | .arr items => items
    | j => [j]
  if roots.all isSource then .ok roots else .error (.noSource path)

def load (path : Path) : Content → Except InputFault (List Json)
  | .absent => .error (.notFound path)
  | .directory => .error (.isDirectory path)
  | .file bytes =>
    match Text.Utf8.decode bytes with
    | .error fault => .error (.notText fault)
    | .ok text =>
      match Json.read text with
      | .error .malformed => .error (.malformed path)
      | .error (.oversized digits) => .error (.oversized digits)
      | .ok document => sources path document

/-- All nodes of all files, or the fault of the first file that has one. -/
def loadAll (look : Path → Content) (paths : List Path) : Except InputFault (List Json) := do
  let trees ← paths.mapM fun path => load path (look path)
  return trees.flatten

end Libdef.Command

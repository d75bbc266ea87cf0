import Libdef.Text.Split

set_option autoImplicit false

namespace Libdef

structure Path where
  /-- Nothing for a relative path; two slashes are kept apart from any other number of them. -/
  root : Text
  parts : List Text
  deriving Repr, DecidableEq, Inhabited

namespace Path

def rootOf (cs : List CodePoint) : Text :=
  match (cs.takeWhile (· = .char '/')).length with
  | 0 => ""
  | 2 => "//"
  | _ => "/"

def ofText (s : Text) : Path where
  root := rootOf s.toList
  parts := (Text.split '/' s).filter fun part => part != "" && part != "."

def text (p : Path) : Text :=
  let s := p.root ++ Text.join "/" p.parts
  if s = "" then "." else s

/-- A zero cannot stand in a path, nor can a surrogate, unless it stands for a byte that is no
text. -/
def allows : CodePoint → Bool
  | .char c => c != '\x00'
  | .surrogate n => 0x480 ≤ n.val && n.val < 0x500

def isNameable (p : Path) : Bool := p.text.toList.all allows

end Path
end Libdef

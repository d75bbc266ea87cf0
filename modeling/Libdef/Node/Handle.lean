import Libdef.Text.Basic

set_option autoImplicit false

namespace Libdef

/-- The groups in which a module context keeps what is filed in it. -/
inductive Bucket where
  | functions
  | classes
  | types
  | interfaces
  | variables
  | exports
  deriving Repr, DecidableEq, Inhabited

namespace Bucket

def all : List Bucket := [.functions, .classes, .types, .interfaces, .variables, .exports]

theorem mem_all (b : Bucket) : b ∈ all := by
  cases b <;> decide

def name : Bucket → Text
  | .functions => "functions"
  | .classes => "classes"
  | .types => "types"
  | .interfaces => "interfaces"
  | .variables => "variables"
  | .exports => "exports"

def ofName? (s : Text) : Option Bucket :=
  all.find? fun b => b.name == s

end Bucket

structure Handle where
  index : Int
  context : Text
  bucket : Bucket
  name : Text
  deriving Repr, DecidableEq, Inhabited

def Handle.text (h : Handle) : Text :=
  h.context ++ "/" ++ h.bucket.name ++ "/" ++ h.name ++ "#" ++ toString h.index

end Libdef

import Libdef.ModuleName
import Libdef.Node.Handle
import Libdef.Text.Quoted
import Libdef.Text.Split

set_option autoImplicit false

namespace Libdef

structure Context where
  name : Text
  filed : List Handle := []
  deriving Repr, DecidableEq, Inhabited

namespace Context

def bucket (c : Context) (b : Bucket) : List Handle := c.filed.filter fun h => h.bucket == b

def handles (c : Context) : List Handle := Bucket.all.flatMap c.bucket

def isEmpty (c : Context) : Bool := c.filed.isEmpty

def file (c : Context) (h : Handle) : Context := { c with filed := c.filed ++ [h] }

/-- A one-line account of a context: its name and the sizes of its buckets that are not empty. -/
def account (c : Context) : Text :=
  let counts := (Bucket.all.filter fun b => !(c.bucket b).isEmpty).map fun b =>
    b.name ++ "=" ++ toString (c.bucket b).length
  "ModuleContext(name=" ++ Text.shown c.name ++ ", " ++ Text.join ", " counts ++ ")"

end Context

/-- The contexts of a conversion in the order of their creation, the root first. -/
structure Contexts where
  list : List Context := [{ name := ModuleName.root }]
  deriving Repr, DecidableEq, Inhabited

namespace Contexts

def names (cs : Contexts) : List Text := cs.list.map Context.name

def get? (cs : Contexts) (name : Text) : Option Context :=
  cs.list.find? fun c => c.name == name

def request (cs : Contexts) (name : Text) : Contexts :=
  if cs.names.contains name then cs else ⟨cs.list ++ [{ name := name }]⟩

def file (cs : Contexts) (name : Text) (h : Handle) : Contexts :=
  ⟨(cs.request name).list.map fun c => if c.name = name then c.file h else c⟩

theorem names_request (cs : Contexts) (name : Text) :
    (cs.request name).names = if cs.names.contains name then cs.names else cs.names ++ [name] := by
  simp only [request]
  split <;> simp [names]

theorem names_file (cs : Contexts) (name : Text) (h : Handle) :
    (cs.file name h).names = (cs.request name).names := by
  simp only [file, names, List.map_map]
  apply List.map_congr_left
  intro c _
  by_cases hc : c.name = name <;> simp [hc, Context.file]

def bucket (cs : Contexts) (name : Text) (b : Bucket) : List Handle :=
  match cs.get? name with
  | none => []
  | some c => c.bucket b

end Contexts
end Libdef

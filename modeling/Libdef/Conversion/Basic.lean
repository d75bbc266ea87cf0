import Libdef.Context
import Libdef.Diagnostic
import Libdef.Import
import Libdef.Store

set_option autoImplicit false

namespace Libdef

structure Options where
  lineWidth : Int := 80
  rootModule : Text := ModuleName.root
  verbose : Bool := false
  deriving Repr, DecidableEq, Inhabited

structure Conversion where
  options : Options := {}
  store : Store := {}
  contexts : Contexts := {}
  imports : Imports := {}
  log : Log := {}
  /-- The namespaces met so far, each once, in the order of meeting. -/
  namespaces : List Text := []

namespace Conversion

/-- What a step over a conversion leaves behind, and whether it went through. -/
structure Step where
  state : Conversion
  result : Except Fault Unit

def Step.andThen (s : Step) (next : Conversion → Step) : Step :=
  match s.result with
  | .ok () => next s.state
  | .error _ => s

def forEach {α : Type} (step : α → Conversion → Step) : List α → Conversion → Step
  | [], c => ⟨c, .ok ()⟩
  | a :: rest, c => (step a c).andThen (forEach step rest)

theorem forEach_map {α β : Type} (f : α → β) (step : β → Conversion → Step) (l : List α) :
    forEach step (l.map f) = forEach (fun a => step (f a)) l := by
  induction l with
  | nil => rfl
  | cons a l ih =>
    funext c
    simp only [List.map_cons, forEach, ih]

def isNamespace (c : Conversion) (name : Text) : Bool := c.namespaces.contains name

def pushNamespace (c : Conversion) (name : Text) : Conversion :=
  if c.isNamespace name then c else { c with namespaces := c.namespaces ++ [name] }

def requestContext (c : Conversion) (name : Text) : Conversion :=
  { c with contexts := c.contexts.request name }

def insert (c : Conversion) (item : Item) (context : Text) (bucket : Bucket) :
    Conversion × Handle :=
  let (store, handle) := c.store.insert item context bucket
  ({ c with store, contexts := c.contexts.file context handle }, handle)

def fileHandle (c : Conversion) (into : Text) (h : Handle) : Conversion :=
  { c with contexts := c.contexts.file into h }

def report (c : Conversion) (d : Diagnostic) : Conversion :=
  { c with log := c.log.add d }

def reportAll (c : Conversion) (ds : List Diagnostic) : Conversion :=
  { c with log := c.log.addAll ds }

/-- The items in a bucket of a context, none for a context that does not exist. -/
def items (c : Conversion) (context : Text) (bucket : Bucket) : Except Fault (List Item) :=
  c.store.fetchAll (c.contexts.bucket context bucket)

end Conversion
end Libdef

import Libdef.Node.Basic
import Libdef.Traced

set_option autoImplicit false

namespace Libdef

structure Variable where
  name : Text
  value : Text
  /-- The parts before it, or the root context if there are none. -/
  qualifier : Text
  deriving Repr, DecidableEq, Inhabited

structure Export where
  name : Text
  isDefault : Bool := false
  deriving Repr, DecidableEq, Inhabited

inductive Item where
  | declaration (node : Node)
  | variable (v : Variable)
  | export (e : Export)
  deriving Inhabited

namespace Item

def name : Item → Option Text
  | .declaration node => node.name
  | .variable v => some v.name
  | .export e => some e.name

def rename (item : Item) (name : Text) : Item :=
  match item with
  | .declaration node => .declaration (node.rename (some name))
  | .variable v => .variable { v with name }
  | .export e => .export { e with name }

def asDeclaration : Item → Except Fault Node
  | .declaration node => .ok node
  | _ => .error .itemMismatch

def asVariable : Item → Except Fault Variable
  | .variable v => .ok v
  | _ => .error .itemMismatch

/-- Whether the item is exported as the default of its module; a variable has no say in it. -/
def isDefault : Item → Except Fault Bool
  | .declaration node => .ok (node.head.modifiers.contains .defaultKeyword)
  | .variable _ => .error .itemMismatch
  | .export e => .ok e.isDefault

def handleName (item : Item) : Text :=
  match item.name with
  | none => "<anonymous>"
  | some s => if s = "" then "<anonymous>" else s

end Item

structure Store where
  entries : Array (Handle × Item) := #[]
  deriving Inhabited

namespace Store

def size (store : Store) : Nat := store.entries.size

def handles (store : Store) : List Handle := store.entries.toList.map Prod.fst

def nextHandle (store : Store) (item : Item) (context : Text) (bucket : Bucket) : Handle where
  index := store.size
  context := context
  bucket := bucket
  name := item.handleName

def insert (store : Store) (item : Item) (context : Text) (bucket : Bucket) : Store × Handle :=
  let handle := store.nextHandle item context bucket
  ({ entries := store.entries.push (handle, item) }, handle)

theorem handles_insert (store : Store) (item : Item) (context : Text) (bucket : Bucket) :
    (store.insert item context bucket).1.handles =
      store.handles ++ [store.nextHandle item context bucket] := by
  simp [insert, handles]

/-- Only the index of a handle counts. -/
def item? (store : Store) (h : Handle) : Option Item :=
  if h.index < 0 then none else (store.entries[h.index.toNat]?).map Prod.snd

def contains (store : Store) (h : Handle) : Bool := (store.item? h).isSome

def fetch (store : Store) (h : Handle) : Except Fault Item :=
  match store.item? h with
  | none => .error (.dangling h)
  | some item => .ok item

def fetchAll (store : Store) (hs : List Handle) : Except Fault (List Item) :=
  hs.mapM store.fetch

def modify (store : Store) (h : Handle) (change : Item → Item) : Store :=
  if h.index < 0 then store
  else { entries := store.entries.modify h.index.toNat fun entry => (entry.1, change entry.2) }

end Store
end Libdef

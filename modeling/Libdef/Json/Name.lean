import Libdef.Fault

set_option autoImplicit false

namespace Libdef.Json

/-- Two sides of a dotted name; it has a name only if both have one. -/
def dotted (left right : Except Fault (Option Text)) : Except Fault (Option Text) := do
  let l ← left
  let r ← right
  match l, r with
  | some l, some r => return some (l ++ "." ++ r)
  | _, _ => return none

def ownText (j : Json) : Option Text :=
  (j.get "text").str?.or (j.get "escapedText").str?

def nameStep (j : Json) (_ : List (Except Fault (Option Text)))
    (part : Text → Option (Except Fault (Option Text))) : Except Fault (Option Text) :=
  let side (key : Text) := (part key).getD (.ok none)
  match j with
  | .null => .ok none
  | .str s => .ok (some s)
  | .obj _ =>
    let kind := j.get "kind"
    if kind.isStr "QualifiedName" then dotted (side "left") (side "right")
    else if kind.isStr "PropertyAccessExpression" then dotted (side "expression") (side "name")
    else if kind.isStr "ComputedPropertyName" then
      (side "expression").map fun inner => inner.map fun s => "[" ++ s ++ "]"
    else .ok j.ownText
  | _ => .error .noFields

def nameText (j : Json) : Except Fault (Option Text) :=
  j.visit nameStep

theorem nameText_eq (j : Json) :
    j.nameText = nameStep j (j.items.map nameText) fun key => (j.field? key).map nameText :=
  visit_eq nameStep j

def nameParts (j : Json) : Except Fault (Option (List Text)) := do
  match ← j.nameText with
  | none => return none
  | some s => return if s = "" then none else some (Text.split '.' s)

/-- The name that a type annotation refers to, null for a type of another form. -/
def referencedName (j : Json) : Except Fault Json :=
  if j.truthy then
    if j.isObj then
      if (j.get "kind").isStr "TypeReference" then .ok (j.get "typeName")
      else if (j.get "kind").isStr "TypeQuery" then .ok (j.get "exprName")
      else .ok .null
    else .error .noFields
  else .ok .null

end Libdef.Json

import Libdef.Sheet.Basic

set_option autoImplicit false

namespace Libdef.Sheet

def exportMarks (modifiers : List Modifier) : Text :=
  (if modifiers.contains .exportKeyword then ("export " : Text) else "") ++
    (if modifiers.contains .defaultKeyword then ("default " : Text) else "")

def heritageTypes (clauses : List Printed) : Traced Diagnostic (List (Bool × Layout)) := do
  let groups ← clauses.mapM fun clause => do
    let layouts ← clause.types.mapM id
    return layouts.map fun l => (clause.token == some "implements", l)
  return groups.flatten

def heritagePart (word : Text) (layouts : List Layout) : Layout :=
  if layouts.isEmpty then .text "" else .append (.text word) (.joined ", " layouts)

/-- What is extended comes before what is implemented, whatever the order of the clauses. -/
def heritageLayout (types : List (Bool × Layout)) : Layout :=
  let extended := (types.filter fun t => !t.1).map Prod.snd
  let implemented := (types.filter fun t => t.1).map Prod.snd
  .append (heritagePart " extends " extended) (heritagePart " implements " implemented)

def heritage (s : Shape Printed) : Sheet := do
  let types ← heritageTypes s.heritageClauses
  return heritageLayout types

def functionDeclaration (s : Shape Printed) : Sheet :=
  row ["declare function ", nameText s.name, signature s true]

def container (s : Shape Printed) (word : Text) (withSemicolons : Bool) : Sheet :=
  row ["declare ", exportMarks s.modifiers, word, " ", nameText s.name, generics s.typeParameters,
    heritage s, " ", body s withSemicolons]

def interfaceDeclaration (s : Shape Printed) : Sheet := container s "interface" false

def classDeclaration (s : Shape Printed) : Sheet := container s "class" true

def typeAlias (s : Shape Printed) : Sheet :=
  row ["declare ", exportMarks s.modifiers, "type ", nameText s.name, generics s.typeParameters,
    " = ", typeOrAny s.type, ";"]

def exportLine (name : Option Text) (isDefault : Bool) : Text :=
  (if isDefault then ("export default " : Text) else "export ") ++ nameText name

end Libdef.Sheet

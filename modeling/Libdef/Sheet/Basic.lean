import Libdef.Diagnostic
import Libdef.Layout
import Libdef.ModuleName
import Libdef.Node.Basic
import Libdef.Traced

/-!
Sheets: the layout of a node together with the reports made while it was laid out. This module has
the pieces that several kinds of node share.
-/

set_option autoImplicit false

namespace Libdef

abbrev Sheet := Traced Diagnostic Layout

/-- The printed forms of a node that the node around it may ask for. -/
structure Printed where
  kind : Kind
  token : Option Text
  sheet : Sheet
  parameter : Sheet
  types : List Sheet

namespace Sheet

def ofText (s : Text) : Sheet := pure (.text s)

instance : Coe Text Sheet := ⟨ofText⟩

def append (a b : Sheet) : Sheet := do
  let first ← a
  let second ← b
  return .append first second

def row : List Sheet → Sheet
  | [] => ofText ""
  | [a] => a
  | a :: b :: more => append a (row (b :: more))

def list (sep : Text) : List Sheet → Sheet
  | [] => ofText ""
  | [a] => a
  | a :: b :: more => append a (append sep (list sep (b :: more)))

/-- A missing annotation stands for any type. -/
def typeOrAny : Option Printed → Sheet
  | none => ofText "any"
  | some p => p.sheet

def generics (parts : List Printed) : Sheet :=
  if parts.isEmpty then ofText "" else row ["<", list ", " (parts.map Printed.sheet), ">"]

def parameterName (s : Shape Printed) : Sheet :=
  match s.binding with
  | some pattern => pattern.sheet
  | none => ofText (s.name.getD "")

def parameter (s : Shape Printed) : Sheet :=
  row [ofText (if s.rest then "..." else ""), parameterName s,
    ofText (if s.optional then "?" else ""), ": ", typeOrAny s.type]

def parameters (s : Shape Printed) : Sheet :=
  list ", " (s.parameters.map Printed.parameter)

/-- The arrow of a signature in a type, and the colon of one in a declaration. -/
def arrow (asDeclaration : Bool) : Text :=
  if asDeclaration then ":" else " =>"

def signature (s : Shape Printed) (asDeclaration : Bool) : Sheet := do
  let parameters ← parameters s
  let generics ← generics s.typeParameters
  let returns ← typeOrAny s.type
  return .signature generics parameters (arrow asDeclaration) returns

/-- Members that print nothing are left out. -/
def bodyLayout (withSemicolons : Bool) (members : List Layout) : Layout :=
  let shown := members.filter fun l => !l.isEmpty
  if shown.isEmpty then .text "\x7b\x7d"
  else
    let sep : Text := if withSemicolons then ";\n\t\t" else ",\n\t\t"
    .row ["\x7b\n\t\t", .joined sep shown, "\n\t\x7d"]

def body (s : Shape Printed) (withSemicolons : Bool) : Sheet := do
  let members ← (s.members.map Printed.sheet).mapM id
  return bodyLayout withSemicolons members

/-- A node that has no printed form leaves a visible placeholder and a report. -/
def unsupported (s : Shape Printed) : Sheet := do
  let kind := if s.rawKind.truthy then s.rawKind.label else s.kind.name
  Traced.tell { kind := .unsupportedKind, subject := s.name, message := "No printer for " ++ kind }
  ofText ("NO PRINT IMPLEMENTED: " ++ kind)

/-- How a name is written where one has to stand. -/
def nameText (name : Option Text) : Text := name.getD "None"

end Sheet
end Libdef

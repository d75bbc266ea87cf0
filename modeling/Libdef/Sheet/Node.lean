import Libdef.Sheet.Declaration
import Libdef.Text.Quoted

set_option autoImplicit false

namespace Libdef

inductive Vocabulary where
  | types
  | declarations
  deriving Repr, DecidableEq, Inhabited

def Vocabulary.handles : Vocabulary → Kind → Bool
  | .types, kind => !kind.isDeclaration
  | .declarations, _ => true

namespace Sheet

def ownText (s : Shape Printed) : Sheet :=
  match s.text with
  | some (.str t) => ofText (if t = "" then s.name.getD "" else t)
  | some j => if j.truthy then Traced.fail .textNotString else ofText (s.name.getD "")
  | none => ofText (s.name.getD "")

/-- A literal is quoted unless its token says that it is no string. -/
def literal (s : Shape Printed) : Sheet :=
  match s.text with
  | none => unsupported s
  | some (.str t) =>
    match s.token with
    | none => ofText (Text.literal t)
    | some token =>
      if token = "StringLiteral" ∨ token = "NoSubstitutionTemplateLiteral" then
        ofText (Text.literal t)
      else ofText t
  | some _ => Traced.fail .textNotString

def qualifiedName (s : Shape Printed) : Sheet :=
  row [typeOrAny s.left, ".", typeOrAny s.right, generics s.typeArguments]

def typeReference (s : Shape Printed) : Sheet :=
  let name := match s.typeName with
    | some p => if p.kind = .qualifiedName then p.sheet else ofText (s.name.getD "")
    | none => ofText (s.name.getD "")
  row [name, generics s.typeArguments]

def withArguments (s : Shape Printed) : Sheet :=
  row [typeOrAny s.expression, generics s.typeArguments]

def propertyAccess (s : Shape Printed) : Sheet :=
  row [typeOrAny s.expression, ModuleName.accessMark, s.name.getD ""]

def labelled (label : Text) : Option Printed → Sheet
  | none => ofText ""
  | some p => row [label, p.sheet]

def typeParameter (s : Shape Printed) : Sheet :=
  row [s.name.getD "", labelled ": " s.constraint, labelled " = " s.fallback]

def typeQuery (s : Shape Printed) : Sheet :=
  match s.typeName with
  | some p => row ["typeof ", p.sheet]
  | none => row ["typeof ", s.name.getD ""]

def memberMarks (modifiers : List Modifier) : Text :=
  (if modifiers.contains .staticKeyword then ("static " : Text) else "") ++
    (if modifiers.contains .readonlyKeyword then ("+" : Text) else "")

def isPrivate (s : Shape Printed) : Bool := s.modifiers.contains .privateKeyword

def property (s : Shape Printed) : Sheet := row [memberMarks s.modifiers, parameter s]

/-- An optional method is printed as a property of function type. -/
def method (s : Shape Printed) : Sheet :=
  if s.optional then row [memberMarks s.modifiers, nameText s.name, "?: ", signature s false]
  else row [memberMarks s.modifiers, nameText s.name, signature s true]

def indexSignature (s : Shape Printed) : Sheet :=
  row [memberMarks s.modifiers, "[", parameters s, "]: ", typeOrAny s.type]

def ofShape (vocabulary : Vocabulary) (s : Shape Printed) : Sheet :=
  match s.kind with
  | .anyKeyword => ofText "any"
  | .stringKeyword => ofText "string"
  | .numberKeyword => ofText "number"
  | .booleanKeyword => ofText "boolean"
  | .voidKeyword => ofText "void"
  | .undefinedKeyword => ofText "void"
  | .nullKeyword => ofText "null"
  | .neverKeyword => ofText "empty"
  | .objectKeyword => ofText "Object"
  | .symbolKeyword => ofText "Symbol"
  | .unknownKeyword => ofText "mixed"
  | .thisType => ofText "this"
  | .functionDeclaration =>
    if vocabulary = .declarations then functionDeclaration s else unsupported s
  | .interfaceDeclaration =>
    if vocabulary = .declarations then interfaceDeclaration s else unsupported s
  | .classDeclaration =>
    if vocabulary = .declarations then classDeclaration s else unsupported s
  | .typeAliasDeclaration =>
    if vocabulary = .declarations then typeAlias s else unsupported s
  | .heritageClause => list ", " (s.types.map Printed.sheet)
  | .parameter => parameter s
  | .typeParameter => typeParameter s
  | .propertySignature => property s
  | .propertyDeclaration => if isPrivate s then ofText "" else property s
  | .methodSignature => method s
  | .methodDeclaration => if isPrivate s then ofText "" else method s
  | .callSignature => signature s true
  | .constructSignature => row ["new ", signature s true]
  | .constructor => row ["constructor(", parameters s, "): void"]
  | .indexSignature => indexSignature s
  | .functionType => signature s false
  | .typeLiteral => body s false
  | .typeReference => typeReference s
  | .literalType => literal s
  | .tupleType => row ["[", list ", " (s.elementTypes.map Printed.sheet), "]"]
  | .unionType => list " | " (s.types.map Printed.sheet)
  | .intersectionType => list " & " (s.types.map Printed.sheet)
  | .arrayType => row [typeOrAny s.elementType, "[]"]
  | .parenthesizedType => row ["(", typeOrAny s.type, ")"]
  | .typeQuery => typeQuery s
  | .typePredicate => ofText (s.name.getD "")
  | .identifier => ownText s
  | .qualifiedName => qualifiedName s
  | .stringLiteral => ownText s
  | .expressionWithTypeArguments => withArguments s
  | .propertyAccessExpression => propertyAccess s
  | .objectBindingPattern =>
    row ["\x7b", list ", " (s.elements.map Printed.sheet), "\x7d"]
  | .bindingElement => ofText (s.name.getD "")
  | .unsupported => unsupported s

def print (vocabulary : Vocabulary) (s : Shape Printed) : Printed where
  kind := s.kind
  token := s.token
  sheet := ofShape vocabulary s
  parameter := parameter s
  types := s.types.map Printed.sheet

end Sheet

namespace Node

def printed (vocabulary : Vocabulary) (n : Node) : Printed := n.fold (Sheet.print vocabulary)

def parts (vocabulary : Vocabulary) (n : Node) : Shape Printed := n.shape.map (printed vocabulary)

theorem printed_eq (vocabulary : Vocabulary) (n : Node) :
    n.printed vocabulary = Sheet.print vocabulary (n.parts vocabulary) :=
  fold_eq _ n

end Node
end Libdef

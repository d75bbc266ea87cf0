import Libdef.Json.Name
import Libdef.Node.Basic

/-!
Nodes read from JSON trees. A value in the place of a node may be null, which is a missing node;
anything else that is no object is a fault. A value in the place of a list of nodes may be absent.
The first fault in reading order is the one that counts.
-/

set_option autoImplicit false

namespace Libdef

/-- What a value is when it stands for a node, and when it stands for a list of nodes. -/
structure Reading where
  node : Except Fault (Option Node)
  nodes : Except Fault (List Node)

def Reading.absent : Reading := ⟨.ok none, .ok []⟩

namespace Json

def rawKind (j : Json) : Json := (j.field? "kind").getD (.str "")

def isBindingPattern (j : Json) : Bool :=
  (j.get "kind").isStr "ObjectBindingPattern" || (j.get "kind").isStr "ArrayBindingPattern"

/-- The name of a node, or of the type that it refers to if it has no name or a pattern for one. -/
def ownName (j : Json) : Except Fault (Option Text) :=
  let name := j.get "name"
  if name.isNull || name.isBindingPattern then (j.get "typeName").nameText else name.nameText

def modifier (j : Json) : Except Fault (Option Modifier) :=
  match if j.isObj then j.get "kind" else j with
  | .str s => .ok (Modifier.ofName? s)
  | kind => if kind.isContainer then .error .notLookedUp else .ok none

def modifiers (j : Json) : Except Fault (List Modifier) :=
  match j.get "modifiers" with
  | .arr items => do
    let found ← items.mapM modifier
    return Modifier.collect (found.filterMap id)
  | .obj fields => .ok (Modifier.collect (fields.filterMap fun field => Modifier.ofName? field.1))
  | .str _ => .ok []
  | value => if value.truthy then .error .notSequence else .ok []

def literalKeywords : List (Text × Text) := [
  ("TrueKeyword", "true"), ("FalseKeyword", "false"), ("NullKeyword", "null")]

def textLiterals : List Text := [
  "StringLiteral", "NoSubstitutionTemplateLiteral", "NumericLiteral", "BigIntLiteral"]

/-- The text of a literal with a sign, which only numbers have. -/
def signedText (literal : Json) : Except Fault (Option Text) :=
  let operand := literal.get "operand"
  if operand.truthy then
    if operand.isObj then
      let kind := operand.get "kind"
      if kind.isStr "NumericLiteral" || kind.isStr "BigIntLiteral" then
        operand.nameText.map fun text => text.map fun s => "-" ++ s
      else .ok none
    else .error .noFields
  else .ok none

def literalText (literal kind : Json) : Except Fault (Option Text) :=
  match kind with
  | .str s =>
    match literalKeywords.lookup s with
    | some text => .ok (some text)
    | none =>
      if s = "PrefixUnaryExpression" then literal.signedText
      else if s ∈ textLiterals then literal.nameText
      else .ok none
  | _ => if kind.isContainer then .error .notLookedUp else .ok none

end Json

namespace Node

def readHead (j : Json) (kind : Kind) : Except Fault Head := do
  let name ← j.ownName
  let modifiers ← j.modifiers
  return { kind, name, rawKind := j.rawKind, modifiers }

def readBare (j : Json) (kind : Kind) (rawKind : Json) : Except Fault (Shape Node) := do
  let name ← j.ownName
  return { kind, name, rawKind }

def readText (j : Json) (kind : Kind) : Except Fault (Shape Node) := do
  let name ← j.nameText
  return { kind, name, rawKind := .str kind.name, text := name.map .str }

def readLiteral (j : Json) : Except Fault (Shape Node) := do
  let literal := j.get "literal"
  if literal.isObj then
    let kind := (literal.field? "kind").getD (.str "StringLiteral")
    match ← literal.literalText kind with
    | none => readBare j .unsupported kind
    | some text =>
      let head ← readHead j .literalType
      return { toHead := { head with token := kind.str?, text := some (.str text) } }
  else
    let text := j.get "text"
    if text.isNull then readBare j .unsupported j.rawKind
    else
      let head ← readHead j .literalType
      return { toHead := { head with token := some "StringLiteral", text := some text } }

def readSignature (j : Json) (part : Text → Reading) (kind : Kind) : Except Fault (Shape Node) := do
  let head ← readHead j kind
  let parameters ← (part "parameters").nodes
  let typeParameters ← (part "typeParameters").nodes
  let type ← (part "type").node
  return { toHead := { head with optional := (j.get "questionToken").truthy }
           parameters, typeParameters, type }

def readContainer (j : Json) (part : Text → Reading) (kind : Kind) : Except Fault (Shape Node) := do
  let head ← readHead j kind
  let typeParameters ← (part "typeParameters").nodes
  let heritageClauses ← (part "heritageClauses").nodes
  let members ← (part "members").nodes
  return { toHead := head, typeParameters, heritageClauses, members }

def readProperty (j : Json) (part : Text → Reading) (kind : Kind) : Except Fault (Shape Node) := do
  let head ← readHead j kind
  let type ← (part "type").node
  return { toHead := { head with optional := (j.get "questionToken").truthy }, type }

end Node

inductive Visitor where
  | signature (kind : Kind)
  | container (kind : Kind)
  | property (kind : Kind)
  | typeAlias
  | heritageClause
  | parameter
  | typeParameter
  | typeLiteral
  | typeReference
  | literal
  | tuple
  | typeList (kind : Kind)
  | array
  | parenthesized
  | typeQuery
  | typePredicate
  | word (kind : Kind)
  | qualifiedName
  | expression
  | propertyAccess
  | bindingPattern
  | bindingElement
  deriving Repr, DecidableEq

namespace Visitor

def declarations : List (Text × Visitor) := [
  ("FunctionDeclaration", .signature .functionDeclaration),
  ("InterfaceDeclaration", .container .interfaceDeclaration),
  ("ClassDeclaration", .container .classDeclaration),
  ("TypeAliasDeclaration", .typeAlias),
  ("HeritageClause", .heritageClause),
  ("Parameter", .parameter),
  ("TypeParameter", .typeParameter)]

def members : List (Text × Visitor) := [
  ("PropertySignature", .property .propertySignature),
  ("PropertyDeclaration", .property .propertyDeclaration),
  ("MethodSignature", .signature .methodSignature),
  ("MethodDeclaration", .signature .methodDeclaration),
  ("CallSignature", .signature .callSignature),
  ("ConstructSignature", .signature .constructSignature),
  ("Constructor", .signature .constructor),
  ("IndexSignature", .signature .indexSignature)]

def types : List (Text × Visitor) := [
  ("FunctionType", .signature .functionType),
  ("FunctionTypeAnnotation", .signature .functionType),
  ("TypeLiteral", .typeLiteral),
  ("TypeReference", .typeReference),
  ("LiteralType", .literal),
  ("StringLiteralType", .literal),
  ("LastTypeNode", .literal),
  ("TupleType", .tuple),
  ("UnionType", .typeList .unionType),
  ("IntersectionType", .typeList .intersectionType),
  ("ArrayType", .array),
  ("ParenthesizedType", .parenthesized),
  ("TypeQuery", .typeQuery),
  ("TypePredicate", .typePredicate)]

def names : List (Text × Visitor) := [
  ("Identifier", .word .identifier),
  ("StringLiteral", .word .stringLiteral),
  ("QualifiedName", .qualifiedName),
  ("ExpressionWithTypeArguments", .expression),
  ("PropertyAccessExpression", .propertyAccess),
  ("ObjectBindingPattern", .bindingPattern),
  ("BindingElement", .bindingElement)]

def table : List (Text × Visitor) := declarations ++ members ++ types ++ names

def ofJson? : Json → Option Visitor
  | .str s => table.lookup s
  | _ => none

open Node in
def read (j : Json) (part : Text → Reading) : Visitor → Except Fault (Shape Node)
  | .signature kind => readSignature j part kind
  | .container kind => readContainer j part kind
  | .property kind => readProperty j part kind
  | .typeAlias => do
    let head ← readHead j .typeAliasDeclaration
    let typeParameters ← (part "typeParameters").nodes
    let type ← (part "type").node
    return { toHead := head, typeParameters, type }
  | .heritageClause => do
    let head ← readHead j .heritageClause
    let token : Text :=
      if (j.get "token").isStr "ImplementsKeyword" then "implements" else "extends"
    let types ← (part "types").nodes
    return { toHead := { head with token := some token }, types }
  | .parameter => do
    let shape ← readProperty j part .parameter
    let isPattern := ((j.get "name").get "kind").isStr "ObjectBindingPattern"
    let binding ← if isPattern then (part "name").node else .ok none
    return { shape with binding, rest := (j.get "dotDotDotToken").truthy }
  | .typeParameter => do
    let head ← readHead j .typeParameter
    let constraint ← (part "constraint").node
    let fallback ← (part "default").node
    return { toHead := head, constraint, fallback }
  | .typeLiteral => do
    let head ← readHead j .typeLiteral
    let members ← (part "members").nodes
    return { toHead := head, members }
  | .typeReference => do
    let head ← readHead j .typeReference
    let typeName ← (part "typeName").node
    let typeArguments ← (part "typeArguments").nodes
    return { toHead := head, typeName, typeArguments }
  | .literal => readLiteral j
  | .tuple => do
    let head ← readHead j .tupleType
    let key : Text := if (j.get "elementTypes").truthy then "elementTypes" else "elements"
    let elementTypes ← (part key).nodes
    return { toHead := head, elementTypes }
  | .typeList kind => do
    let head ← readHead j kind
    let types ← (part "types").nodes
    return { toHead := head, types }
  | .array => do
    let head ← readHead j .arrayType
    let elementType ← (part "elementType").node
    return { toHead := head, elementType }
  | .parenthesized => do
    let head ← readHead j .parenthesizedType
    let type ← (part "type").node
    return { toHead := head, type }
  | .typeQuery => do
    let head ← readHead j .typeQuery
    let typeName ← (part "exprName").node
    let name ← (j.get "exprName").nameText
    return { toHead := { head with name }, typeName }
  | .typePredicate => do
    let head ← readHead j .typePredicate
    let subject ← (j.get "parameterName").nameText
    let name := if subject.getD "" = "" then head.name else subject
    let type ← (part "type").node
    return { toHead := { head with name }, type }
  | .word kind => readText j kind
  | .qualifiedName => do
    let name ← j.nameText
    let left ← (part "left").node
    let right ← (part "right").node
    let typeArguments ← (part "typeArguments").nodes
    return { kind := .qualifiedName, name, rawKind := .str "QualifiedName", left, right
             typeArguments }
  | .expression => do
    let head ← readHead j .expressionWithTypeArguments
    let expression ← (part "expression").node
    let name ← (j.get "expression").nameText
    let typeArguments ← (part "typeArguments").nodes
    return { toHead := { head with name }, expression, typeArguments }
  | .propertyAccess => do
    let head ← readHead j .propertyAccessExpression
    let expression ← (part "expression").node
    let name ← (j.get "name").nameText
    return { toHead := { head with name }, expression }
  | .bindingPattern => do
    let elements ← (part "elements").nodes
    return { kind := .objectBindingPattern, rawKind := .str "ObjectBindingPattern", elements }
  | .bindingElement => do
    let head ← readHead j .bindingElement
    return { toHead := head }

end Visitor

namespace Node

/-- An object without a visitor is a keyword, or it is not supported. -/
def readGeneric (j : Json) : Except Fault (Shape Node) :=
  match Kind.ofJson? j.rawKind with
  | none => .error .notLookedUp
  | some kind => readBare j (if kind.isKeyword then kind else .unsupported) j.rawKind

def readShape (j : Json) (part : Text → Reading) : Except Fault (Shape Node) :=
  match Visitor.ofJson? j.rawKind with
  | some visitor => visitor.read j part
  | none => readGeneric j

def readObject (j : Json) (part : Text → Reading) : Except Fault Node :=
  (readShape j part).map .mk

end Node

namespace Reading

def nodeOf (j : Json) (part : Text → Reading) : Except Fault (Option Node) :=
  match j with
  | .null => .ok none
  | .obj _ => (Node.readObject j part).map some
  | _ => .error .noFields

/-- Missing items are passed over. An item of a text or of an object is a text, hence no node. -/
def nodesOf (j : Json) (items : List Reading) : Except Fault (List Node) :=
  match j with
  | .arr _ => (items.mapM Reading.node).map fun found => found.filterMap id
  | .null => .ok []
  | .str s => if s = "" then .ok [] else .error .noFields
  | .obj fields => if fields.isEmpty then .ok [] else .error .noFields
  | j => if j.truthy then .error .notSequence else .ok []

def step (j : Json) (items : List Reading) (field : Text → Option Reading) : Reading where
  node := nodeOf j fun key => (field key).getD absent
  nodes := nodesOf j items

end Reading

def Json.reading (j : Json) : Reading := j.visit Reading.step

theorem Json.reading_eq (j : Json) :
    j.reading = Reading.step j (j.items.map reading) fun key => (j.field? key).map reading :=
  visit_eq Reading.step j

namespace Node

def ofJson (j : Json) : Except Fault (Option Node) := j.reading.node

def listOfJson (j : Json) : Except Fault (List Node) := j.reading.nodes

/-- A declaration, which has to be there and to have a name. -/
def declarationOfJson (j : Json) : Except Fault Node := do
  match ← ofJson j with
  | none => .error .noFields
  | some node =>
    if node.name.getD "" = "" then .error (.unnamed (j.field? "kind")) else return node

end Node
end Libdef

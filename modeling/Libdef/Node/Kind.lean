import Libdef.Json.Basic

set_option autoImplicit false

namespace Libdef

inductive Kind where
  | anyKeyword
  | stringKeyword
  | numberKeyword
  | booleanKeyword
  | voidKeyword
  | undefinedKeyword
  | nullKeyword
  | neverKeyword
  | objectKeyword
  | symbolKeyword
  | unknownKeyword
  | thisType
  | functionDeclaration
  | interfaceDeclaration
  | typeAliasDeclaration
  | classDeclaration
  | heritageClause
  | parameter
  | typeParameter
  | propertySignature
  | propertyDeclaration
  | methodSignature
  | methodDeclaration
  | callSignature
  | constructSignature
  | constructor
  | indexSignature
  | functionType
  | typeLiteral
  | typeReference
  | literalType
  | tupleType
  | unionType
  | intersectionType
  | arrayType
  | parenthesizedType
  | typeQuery
  | typePredicate
  | identifier
  | qualifiedName
  | stringLiteral
  | expressionWithTypeArguments
  | propertyAccessExpression
  | objectBindingPattern
  | bindingElement
  | unsupported
  deriving Repr, DecidableEq, Inhabited

namespace Kind

def all : List Kind := [
  .anyKeyword, .stringKeyword, .numberKeyword, .booleanKeyword, .voidKeyword, .undefinedKeyword,
  .nullKeyword, .neverKeyword, .objectKeyword, .symbolKeyword, .unknownKeyword, .thisType,
  .functionDeclaration, .interfaceDeclaration, .typeAliasDeclaration, .classDeclaration,
  .heritageClause, .parameter, .typeParameter,
  .propertySignature, .propertyDeclaration, .methodSignature, .methodDeclaration, .callSignature,
  .constructSignature, .constructor, .indexSignature,
  .functionType, .typeLiteral, .typeReference, .literalType, .tupleType, .unionType,
  .intersectionType, .arrayType, .parenthesizedType, .typeQuery, .typePredicate,
  .identifier, .qualifiedName, .stringLiteral, .expressionWithTypeArguments,
  .propertyAccessExpression, .objectBindingPattern, .bindingElement,
  .unsupported]

theorem mem_all (k : Kind) : k ∈ all := by
  cases k <;> decide

def name : Kind → Text
  | .anyKeyword => "AnyKeyword"
  | .stringKeyword => "StringKeyword"
  | .numberKeyword => "NumberKeyword"
  | .booleanKeyword => "BooleanKeyword"
  | .voidKeyword => "VoidKeyword"
  | .undefinedKeyword => "UndefinedKeyword"
  | .nullKeyword => "NullKeyword"
  | .neverKeyword => "NeverKeyword"
  | .objectKeyword => "ObjectKeyword"
  | .symbolKeyword => "SymbolKeyword"
  | .unknownKeyword => "UnknownKeyword"
  | .thisType => "ThisType"
  | .functionDeclaration => "FunctionDeclaration"
  | .interfaceDeclaration => "InterfaceDeclaration"
  | .typeAliasDeclaration => "TypeAliasDeclaration"
  | .classDeclaration => "ClassDeclaration"
  | .heritageClause => "HeritageClause"
  | .parameter => "Parameter"
  | .typeParameter => "TypeParameter"
  | .propertySignature => "PropertySignature"
  | .propertyDeclaration => "PropertyDeclaration"
  | .methodSignature => "MethodSignature"
  | .methodDeclaration => "MethodDeclaration"
  | .callSignature => "CallSignature"
  | .constructSignature => "ConstructSignature"
  | .constructor => "Constructor"
  | .indexSignature => "IndexSignature"
  | .functionType => "FunctionType"
  | .typeLiteral => "TypeLiteral"
  | .typeReference => "TypeReference"
  | .literalType => "LiteralType"
  | .tupleType => "TupleType"
  | .unionType => "UnionType"
  | .intersectionType => "IntersectionType"
  | .arrayType => "ArrayType"
  | .parenthesizedType => "ParenthesizedType"
  | .typeQuery => "TypeQuery"
  | .typePredicate => "TypePredicate"
  | .identifier => "Identifier"
  | .qualifiedName => "QualifiedName"
  | .stringLiteral => "StringLiteral"
  | .expressionWithTypeArguments => "ExpressionWithTypeArguments"
  | .propertyAccessExpression => "PropertyAccessExpression"
  | .objectBindingPattern => "ObjectBindingPattern"
  | .bindingElement => "BindingElement"
  | .unsupported => "Unsupported"

def aliases : List (Text × Kind) := [
  ("StringLiteralType", .literalType),
  ("LastTypeNode", .literalType),
  ("FunctionTypeAnnotation", .functionType)]

def ofName? (s : Text) : Option Kind :=
  (aliases.lookup s).or (all.find? fun k => k.name == s)

/-- The kind that a value found in the place of a kind name stands for; a list or an object there
has no kind at all. -/
def ofJson? : Json → Option Kind
  | .str s => some ((ofName? s).getD .unsupported)
  | j => if j.isContainer then none else some .unsupported

def isKeyword : Kind → Bool
  | .anyKeyword | .stringKeyword | .numberKeyword | .booleanKeyword | .voidKeyword
  | .undefinedKeyword | .nullKeyword | .neverKeyword | .objectKeyword | .symbolKeyword
  | .unknownKeyword | .thisType => true
  | _ => false

def isDeclaration : Kind → Bool
  | .functionDeclaration | .interfaceDeclaration | .typeAliasDeclaration | .classDeclaration => true
  | _ => false

end Kind
end Libdef

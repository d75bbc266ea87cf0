import Libdef.Conversion.Basic
import Libdef.Node.Reading

set_option autoImplicit false

namespace Libdef

inductive Entry where
  | item (item : Item) (context : Text) (bucket : Bucket)
  | knownNamespace (name : Text)
  | knownContext (name : Text)
  | report (d : Diagnostic)

abbrev Filing := Traced Entry Unit

namespace Filing

def ignored (subject : Option Text) (message context : Text) : Filing :=
  Traced.tell (.report { kind := .ignoredStatement, subject, message, context := some context })

def declarationBuckets : List (Text × Bucket) := [
  ("FunctionDeclaration", .functions), ("InterfaceDeclaration", .interfaces),
  ("TypeAliasDeclaration", .types), ("ClassDeclaration", .classes)]

def declarationBucket? : Json → Option Bucket
  | .str s => declarationBuckets.lookup s
  | _ => none

def declaration (j : Json) (bucket : Bucket) (context : Text) : Filing := do
  let node ← Traced.lift (Node.declarationOfJson j)
  Traced.tell (.item (.declaration node) context bucket)

def variableOf (name : Text) (parts : List Text) : Variable where
  name := name
  value := parts.getLastD ""
  qualifier := if parts.length ≤ 1 then ModuleName.root else Text.join "." parts.dropLast

/-- A variable that has no name, or no type name, is dropped. -/
def variableDeclaration (context : Text) (j : Json) : Filing := do
  if !j.isObj then Traced.fail .noFields
  else
    let name ← Traced.lift (j.get "name").nameText
    let typeName ← Traced.lift (j.get "type").referencedName
    let parts ← Traced.lift typeName.nameParts
    match parts with
    | some parts =>
      if name.getD "" = "" then dropped name
      else Traced.tell (.item (.variable (variableOf (name.getD "") parts)) context .variables)
    | none => dropped name
where
  dropped (name : Option Text) : Filing :=
    Traced.tell (.report {
      kind := .droppedVariable, subject := name, message := "Declared type has no type name",
      context := some context })

def exportAssignment (j : Json) (context : Text) : Filing := do
  let name ← Traced.lift (j.get "expression").nameText
  if name.getD "" = "" then
    ignored none "Ignoring export assignment of an unnamed expression" context
  else
    Traced.tell (.item (.export { name := name.getD "", isDefault := true }) context .exports)

def otherStatement (j : Json) (context : Text) : Filing := do
  let name ← Traced.lift (j.get "name").nameText
  ignored name ("Ignoring " ++ (j.get "kind").label ++ " statement") context

/-- The bits among the flags of a module that mark a namespace or a nested one. -/
def namespaceBits : Nat := 20

def isNamespace (flags : Json) : Except Fault Bool :=
  match flags with
  | .int n => .ok (((n % 32).toNat &&& namespaceBits) != 0)
  | .bool _ => .ok false
  | flags => if flags.truthy then .error .flagsNotInteger else .ok false

end Filing

namespace Conversion

def enter (c : Conversion) : Entry → Conversion
  | .item item context bucket => (c.insert item context bucket).1
  | .knownNamespace name => c.pushNamespace name
  | .knownContext name => c.requestContext name
  | .report d => c.report d

def enterAll (c : Conversion) (entries : List Entry) : Conversion :=
  entries.foldl enter c

theorem enterAll_append (c : Conversion) (es fs : List Entry) :
    c.enterAll (es ++ fs) = (c.enterAll es).enterAll fs := by
  simp [enterAll]

/-- Enters what was filed, also before a fault. -/
def take (c : Conversion) (filing : Filing) : Step :=
  ⟨c.enterAll filing.log, filing.result⟩

end Conversion
end Libdef

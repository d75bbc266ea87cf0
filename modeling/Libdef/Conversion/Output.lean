import Libdef.Conversion.Collector
import Libdef.Conversion.Linking
import Libdef.Sheet.Node

/-!
The library file: import lines, then a block for each context that has something to declare. In a
block, type aliases come first, then interfaces, functions, classes and exports.
-/

set_option autoImplicit false

namespace Libdef

structure Module where
  name : Text
  functions : List Item := []
  classes : List Item := []
  types : List Item := []
  interfaces : List Item := []
  exports : List Item := []
  deriving Inhabited

namespace Module

def isEmpty (m : Module) : Bool :=
  m.functions.isEmpty && m.classes.isEmpty && m.types.isEmpty && m.interfaces.isEmpty &&
    m.exports.isEmpty

def isPrinted (m : Module) : Bool := m.name != ModuleName.scratch && !m.isEmpty

end Module

namespace Sheet

def declarationItem (print : Shape Printed → Sheet) (item : Item) : Sheet := do
  let node ← Traced.lift item.asDeclaration
  print (node.parts .declarations)

def exportItem (item : Item) : Sheet := do
  let isDefault ← Traced.lift item.isDefault
  ofText (exportLine item.name isDefault)

def group (print : Item → Sheet) (items : List Item) : Traced Diagnostic (List Layout) := do
  if items.isEmpty then return []
  else
    let layouts ← items.mapM print
    return [.append (.text "\t") (.joined "\n\n\t" layouts)]

def block (rootName : Text) (m : Module) : Sheet := do
  let types ← group (declarationItem typeAlias) m.types
  let interfaces ← group (declarationItem interfaceDeclaration) m.interfaces
  let functions ← group (declarationItem functionDeclaration) m.functions
  let classes ← group (declarationItem classDeclaration) m.classes
  let exports ← group exportItem m.exports
  let groups := types ++ interfaces ++ functions ++ classes ++ exports
  return .row ["declare module '", ModuleName.printed rootName m.name, "' \x7b\n",
    .joined "\n\n" groups, "\n\x7d"]

def file (rootName : Text) (imports : List Import) (modules : List Module) : Sheet := do
  let blocks ← (modules.filter Module.isPrinted).mapM (block rootName)
  let lines := Import.lines imports
  let head : Text := if lines = "" then "" else lines ++ "\n\n"
  return .row [head, .joined "\n\n" blocks, "\n"]

end Sheet

namespace Conversion

def module (c : Conversion) (context : Context) : Except Fault Module := do
  let functions ← c.store.fetchAll (context.bucket .functions)
  let classes ← c.store.fetchAll (context.bucket .classes)
  let types ← c.store.fetchAll (context.bucket .types)
  let interfaces ← c.store.fetchAll (context.bucket .interfaces)
  let exports ← c.store.fetchAll (context.bucket .exports)
  return { name := context.name, functions, classes, types, interfaces, exports }

def modules (c : Conversion) : Except Fault (List Module) :=
  c.contexts.list.mapM c.module

def printed (c : Conversion) (sheet : Sheet) : Conversion × Except Fault Text :=
  (c.reportAll sheet.log, sheet.result.map (Layout.render c.options.lineWidth))

def fileSheet (c : Conversion) : Sheet := do
  let modules ← Traced.lift c.modules
  Sheet.file c.options.rootModule c.imports.records modules

def render (c : Conversion) : Conversion × Except Fault Text := c.printed c.fileSheet

/-- The block of one context, also if it has nothing to declare; `none` if there is no such
context. -/
def renderBlock (c : Conversion) (context : Text) :
    Conversion × Except Fault (Option Text) :=
  match c.modules with
  | .error e => (c, .error e)
  | .ok modules =>
    match modules.find? fun m => m.name == context with
    | none => (c, .ok none)
    | some m =>
      let (state, text) := c.printed (Sheet.block c.options.rootModule m)
      (state, text.map some)

def printedBuckets : List Bucket := [.types, .interfaces, .functions, .classes, .exports]

/-- The handles of everything in printed contexts, a line each, in the order of printing. -/
def listing (c : Conversion) : Text :=
  let contexts := c.contexts.list.filter fun context => context.name != ModuleName.scratch
  Text.join "\n" (contexts.flatMap fun context =>
    (printedBuckets.flatMap context.bucket).map Handle.text)

def collectTrees (trees : List Json) (c : Conversion) : Step :=
  forEach (fun tree c => c.collectTree tree ModuleName.root) trees c

def convert (options : Options) (trees : List Json) : Except Fault (Conversion × Text) := do
  let linked := (collectTrees trees { options := options }).andThen resolve
  linked.result
  let (state, text) := linked.state.render
  return (state, ← text)

end Conversion
end Libdef

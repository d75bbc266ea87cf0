import Libdef.Conversion.Output

/-!
Conversion when no line width is known. Only signatures ask for the width, so the conversion comes
out as with any width unless a signature is printed, which is a fault.
-/

set_option autoImplicit false

namespace Libdef

def Layout.hasSignature : Layout → Bool
  | .text _ => false
  | .append a b => a.hasSignature || b.hasSignature
  | .signature _ _ _ _ => true

/-- A layout without signatures is rendered alike at every width. -/
theorem Layout.render_eq_of_hasSignature_eq_false (v w : Int) (l : Layout)
    (h : l.hasSignature = false) : l.render v = l.render w := by
  induction l with
  | text s => rfl
  | append a b iha ihb =>
    simp only [hasSignature, Bool.or_eq_false_iff] at h
    simp [render, iha h.1, ihb h.2]
  | signature g p arrow r => simp [hasSignature] at h

namespace Sheet

/-- A sheet that fails once it has laid out a signature. -/
def unmeasured (sheet : Sheet) : Sheet := do
  let layout ← sheet
  if layout.hasSignature then Traced.fail .noWidth else return layout

/-- A node lays out its own signature after all its parts, so the first fault in the order of
printing is found if every node is checked by itself. -/
def printUnmeasured (s : Shape Printed) : Printed :=
  let printed := print .declarations s
  { printed with sheet := unmeasured printed.sheet }

def unmeasuredItem (print : Shape Printed → Sheet) (item : Item) : Sheet := do
  let node ← Traced.lift item.asDeclaration
  unmeasured (print (node.shape.map fun part => part.fold printUnmeasured))

end Sheet

def Module.unmeasuredSheets (m : Module) : List Sheet :=
  m.types.map (Sheet.unmeasuredItem Sheet.typeAlias) ++
    m.interfaces.map (Sheet.unmeasuredItem Sheet.interfaceDeclaration) ++
    m.functions.map (Sheet.unmeasuredItem Sheet.functionDeclaration) ++
    m.classes.map (Sheet.unmeasuredItem Sheet.classDeclaration) ++
    m.exports.map Sheet.exportItem

namespace Conversion

def checkUnmeasured (c : Conversion) : Except Fault Unit := do
  let modules ← c.modules
  let sheets := (modules.filter Module.isPrinted).flatMap Module.unmeasuredSheets
  let _ ← (sheets.mapM id).result

/-- The conversion without a line width; the one in the options is not used. -/
def convertUnmeasured (options : Options) (trees : List Json) :
    Except Fault (Conversion × Text) := do
  let linked := (collectTrees trees { options := options }).andThen resolve
  linked.result
  linked.state.checkUnmeasured
  convert options trees

end Conversion
end Libdef

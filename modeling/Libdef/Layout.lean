import Libdef.Text.Split

/-!
Text that is laid out for a line width. Only signatures depend on the width: one that does not fit
gets its parameters on an indented line of their own.
-/

set_option autoImplicit false

namespace Libdef

inductive Layout where
  | text (s : Text)
  | append (a b : Layout)
  | signature (generics parameters : Layout) (arrow : Text) (returns : Layout)
  deriving Repr, DecidableEq, Inhabited

namespace Layout

instance : Coe Text Layout := ⟨text⟩

def row : List Layout → Layout
  | [] => .text ""
  | [a] => a
  | a :: b :: more => .append a (row (b :: more))

def joined (sep : Text) : List Layout → Layout
  | [] => .text ""
  | [a] => a
  | a :: b :: more => .append a (.append (.text sep) (joined sep (b :: more)))

def signatureLine (generics parameters arrow returns : Text) : Text :=
  generics ++ "(" ++ parameters ++ ")" ++ arrow ++ " " ++ returns

def signatureText (width : Int) (generics parameters arrow returns : Text) : Text :=
  let line := signatureLine generics parameters arrow returns
  if width < line.length then
    signatureLine generics ("\n\t\t" ++ parameters ++ "\n\t") arrow returns
  else line

def render (width : Int) : Layout → Text
  | .text s => s
  | .append a b => a.render width ++ b.render width
  | .signature generics parameters arrow returns =>
    signatureText width (generics.render width) (parameters.render width) arrow
      (returns.render width)

theorem render_row (width : Int) : ∀ layouts : List Layout,
    (row layouts).render width = Text.join "" (layouts.map (render width))
  | [] => rfl
  | [_] => rfl
  | _ :: b :: more => by
    simp [row, render, Text.join, render_row width (b :: more)]

theorem render_joined (width : Int) (sep : Text) : ∀ layouts : List Layout,
    (joined sep layouts).render width = Text.join sep (layouts.map (render width))
  | [] => rfl
  | [_] => rfl
  | _ :: b :: more => by
    simp [joined, render, Text.join, render_joined width sep (b :: more), Text.append_assoc]

/-- Whether nothing is printed, which no width changes. -/
def isEmpty : Layout → Bool
  | .text s => s == ""
  | .append a b => a.isEmpty && b.isEmpty
  | .signature _ _ _ _ => false

theorem signatureLine_ne_empty (g p a r : Text) : signatureLine g p a r ≠ "" := by
  intro h
  have := congrArg Text.toList h
  simp [signatureLine] at this

theorem signatureText_ne_empty (width : Int) (g p a r : Text) :
    signatureText width g p a r ≠ "" := by
  simp only [signatureText]
  split <;> exact signatureLine_ne_empty _ _ _ _

theorem isEmpty_iff (width : Int) (l : Layout) : l.isEmpty = true ↔ l.render width = "" := by
  induction l with
  | text s => simp [isEmpty, render]
  | append a b iha ihb =>
    simp [isEmpty, render, iha, ihb]
  | signature g p arrow r => simp [isEmpty, render, signatureText_ne_empty]

end Layout
end Libdef

/-!
Texts: lists of code points. A file holds characters only, but a numbered escape may also give a
surrogate that is not part of a pair, and such a text cannot be written to a file.
-/

set_option autoImplicit false

namespace Libdef

/-- A character, or a surrogate that is not part of a pair. -/
inductive CodePoint where
  | char (c : Char)
  | surrogate (n : Fin 0x800)
  deriving Repr, DecidableEq, Inhabited

namespace CodePoint

instance : Coe Char CodePoint := ⟨char⟩

def value : CodePoint → Nat
  | .char c => c.toNat
  | .surrogate n => 0xd800 + n

def ofNat (n : Nat) : CodePoint :=
  if h : 0xd800 ≤ n ∧ n < 0xe000 then .surrogate ⟨n - 0xd800, by omega⟩ else .char (Char.ofNat n)

def char? : CodePoint → Option Char
  | .char c => some c
  | .surrogate _ => none

end CodePoint

structure Text where
  ofList ::
  toList : List CodePoint
  deriving Repr, DecidableEq, Inhabited

namespace Text

def ofChars (cs : List Char) : Text := ⟨cs.map .char⟩

def ofString (s : String) : Text := ofChars s.toList

instance : Coe String Text := ⟨ofString⟩

instance : Append Text := ⟨fun s t => ⟨s.toList ++ t.toList⟩⟩

def string? (s : Text) : Option String := (s.toList.mapM CodePoint.char?).map String.ofList

def singleton (c : CodePoint) : Text := ⟨[c]⟩

def length (s : Text) : Nat := s.toList.length

/-- Texts are ordered by the values of their code points. -/
instance : LT Text := ⟨fun s t => s.toList.map CodePoint.value < t.toList.map CodePoint.value⟩

instance (s t : Text) : Decidable (s < t) := inferInstanceAs (Decidable (_ < (_ : List Nat)))

theorem toList_inj {s t : Text} : s.toList = t.toList ↔ s = t := by
  cases s
  cases t
  simp

@[simp] theorem toList_append (s t : Text) : (s ++ t).toList = s.toList ++ t.toList := rfl

@[simp] theorem toList_ofList (cs : List CodePoint) : (ofList cs).toList = cs := rfl

@[simp] theorem ofList_toList (s : Text) : ofList s.toList = s := rfl

@[simp] theorem toList_ofString (s : String) : (ofString s).toList = s.toList.map .char := rfl

@[simp] theorem ofString_inj {s t : String} : ofString s = ofString t ↔ s = t := by
  have hchar : ∀ c d : Char, CodePoint.char c = CodePoint.char d → c = d :=
    fun _ _ => CodePoint.char.inj
  rw [← toList_inj, toList_ofString, toList_ofString, List.map_inj_right hchar, String.toList_inj]

@[simp] theorem ofString_beq (s t : String) : (ofString s == ofString t) = (s == t) := by
  rw [Bool.eq_iff_iff, beq_iff_eq, beq_iff_eq, ofString_inj]

theorem ofString_append (s t : String) : ofString (s ++ t) = ofString s ++ ofString t := by
  simp [← toList_inj]

@[simp] theorem toList_singleton (c : CodePoint) : (singleton c).toList = [c] := rfl

theorem append_assoc (s t u : Text) : s ++ t ++ u = s ++ (t ++ u) :=
  toList_inj.mp (List.append_assoc _ _ _)

@[simp] theorem append_empty (s : Text) : s ++ "" = s := toList_inj.mp (List.append_nil _)

@[simp] theorem empty_append (s : Text) : "" ++ s = s := toList_inj.mp (List.nil_append _)

@[simp] theorem append_right_inj (s : Text) {t u : Text} : s ++ t = s ++ u ↔ t = u := by
  simp [← toList_inj]

@[simp] theorem append_left_inj {s t : Text} (u : Text) : s ++ u = t ++ u ↔ s = t := by
  simp [← toList_inj]

@[simp] theorem length_toList (s : Text) : s.toList.length = s.length := rfl

@[simp] theorem length_ofString (s : String) : (ofString s).length = s.length := by
  rw [← length_toList, toList_ofString, List.length_map, String.length_toList]

theorem length_eq_zero_iff {s : Text} : s.length = 0 ↔ s = "" := by
  rw [← length_toList, List.length_eq_zero_iff, ← toList_inj]
  rfl

@[simp] theorem length_append (s t : Text) : (s ++ t).length = s.length + t.length :=
  List.length_append

@[simp] theorem append_eq_empty_iff {s t : Text} : s ++ t = "" ↔ s = "" ∧ t = "" := by
  simp only [← toList_inj]
  exact List.append_eq_nil_iff

end Text
end Libdef

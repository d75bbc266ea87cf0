import Libdef.Text.Basic

set_option autoImplicit false

namespace Libdef.Text

/-- The pieces between the occurrences of `sep`; there is always one more piece than occurrences. -/
def pieces (sep : CodePoint) : List CodePoint → List (List CodePoint)
  | [] => [[]]
  | c :: cs =>
    if c = sep then [] :: pieces sep cs
    else
      match pieces sep cs with
      | [] => [[c]]
      | piece :: more => (c :: piece) :: more

def split (sep : CodePoint) (s : Text) : List Text :=
  (pieces sep s.toList).map Text.ofList

def join (sep : Text) : List Text → Text
  | [] => ""
  | [s] => s
  | s :: t :: more => s ++ sep ++ join sep (t :: more)

theorem pieces_ne_nil (sep : CodePoint) (cs : List CodePoint) : pieces sep cs ≠ [] := by
  cases cs with
  | nil => simp [pieces]
  | cons c cs =>
    by_cases h : c = sep
    · simp [pieces, h]
    · simp only [pieces, h, if_false]
      split <;> simp

theorem pieces_of_not_mem {sep : CodePoint} {cs : List CodePoint} (h : sep ∉ cs) :
    pieces sep cs = [cs] := by
  induction cs with
  | nil => rfl
  | cons c cs ih =>
    simp only [List.mem_cons, not_or] at h
    simp [pieces, Ne.symm h.1, ih h.2]

theorem pieces_append (sep : CodePoint) (cs ds : List CodePoint) :
    pieces sep (cs ++ sep :: ds) = pieces sep cs ++ pieces sep ds := by
  induction cs with
  | nil => simp [pieces]
  | cons c cs ih =>
    obtain ⟨piece, more, hp⟩ := List.exists_cons_of_ne_nil (pieces_ne_nil sep cs)
    by_cases h : c = sep
    · simp [pieces, h, ih]
    · simp [pieces, h, ih, hp]

theorem split_of_not_mem {sep : CodePoint} {s : Text} (h : sep ∉ s.toList) : split sep s = [s] := by
  simp [split, pieces_of_not_mem h]

theorem flatMap_split_of_not_mem {sep : CodePoint} {ts : List Text} (h : ∀ t ∈ ts, sep ∉ t.toList) :
    ts.flatMap (split sep) = ts := by
  induction ts with
  | nil => rfl
  | cons t more ih =>
    rw [List.forall_mem_cons] at h
    rw [List.flatMap_cons, split_of_not_mem h.1, ih h.2, List.singleton_append]

theorem split_concat {sep : CodePoint} (s : Text) {t : Text} (h : sep ∉ t.toList) :
    split sep (s ++ singleton sep ++ t) = split sep s ++ [t] := by
  have hlist : (s ++ singleton sep ++ t).toList = s.toList ++ sep :: t.toList := by simp
  rw [split, hlist, pieces_append, pieces_of_not_mem h, List.map_append]
  rfl

theorem not_mem_numeral {c : Char} (h : c.isDigit = false) (n : Nat) :
    CodePoint.char c ∉ (ofString (toString n)).toList := by
  intro hc
  have hmem : c ∈ Nat.toDigits 10 n := by simpa [Nat.repr] using hc
  have hdigit : c.isDigit = true := Nat.isDigit_of_mem_toDigits (by decide) (by decide) hmem
  rw [h] at hdigit
  cases hdigit

/-- Joined texts come apart into the pieces of each of them. -/
theorem split_join (sep : CodePoint) {ts : List Text} (h : ts ≠ []) :
    split sep (join (Text.singleton sep) ts) = ts.flatMap (split sep) := by
  induction ts with
  | nil => exact absurd rfl h
  | cons t more ih =>
    cases more with
    | nil => simp [join]
    | cons u rest =>
      have hlist : (join (Text.singleton sep) (t :: u :: rest)).toList =
          t.toList ++ sep :: (join (Text.singleton sep) (u :: rest)).toList := by
        simp [join]
      rw [split, hlist, pieces_append, List.map_append, List.flatMap_cons, ← ih (by simp)]
      rfl

theorem toList_join_pieces (sep : CodePoint) (cs : List CodePoint) :
    (join (Text.singleton sep) ((pieces sep cs).map Text.ofList)).toList = cs := by
  induction cs with
  | nil => rfl
  | cons c cs ih =>
    obtain ⟨piece, more, hp⟩ := List.exists_cons_of_ne_nil (pieces_ne_nil sep cs)
    rw [hp] at ih
    by_cases h : c = sep
    · simp only [pieces, h, if_true, hp, List.map_cons, join, Text.toList_append]
      simp only [List.map_cons] at ih
      simp [ih]
    · simp only [pieces, h, if_false, hp]
      cases more with
      | nil =>
        simp only [List.map_cons, List.map_nil, join, Text.toList_ofList] at ih ⊢
        rw [ih]
      | cons next more =>
        simp only [List.map_cons, join, Text.toList_append] at ih ⊢
        simp [← ih]

theorem join_split (sep : CodePoint) (s : Text) :
    join (Text.singleton sep) (split sep s) = s := by
  apply Text.toList_inj.mp
  exact toList_join_pieces sep s.toList

end Libdef.Text

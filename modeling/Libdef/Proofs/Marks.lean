import Libdef.Layout
import Libdef.Text.Quoted

/-!
The mark of a placeholder in texts and layouts. What stands between two texts in a printed node has
a character that the mark lacks and neither of the letters it starts and ends with, so that marks
can be counted piece by piece.
-/

set_option autoImplicit false

namespace Libdef

namespace Text

def mark : List CodePoint := ("NO PRINT IMPLEMENTED" : Text).toList

def marksIn : List CodePoint → Nat
  | [] => 0
  | c :: cs => (if mark <+: c :: cs then 1 else 0) + marksIn cs

def marks (s : Text) : Nat := marksIn s.toList

theorem mark_eq_cons : mark = .char 'N' :: mark.tail := by decide

theorem mark_eq_concat : mark = mark.dropLast ++ [.char 'D'] := by decide

theorem mark_ne_nil : mark ≠ [] := by decide

theorem marksIn_append_of_no_start {l : List CodePoint} (h : CodePoint.char 'N' ∉ l)
    (cs : List CodePoint) :
    marksIn (l ++ cs) = marksIn cs := by
  induction l with
  | nil => rfl
  | cons c l ih =>
    simp only [List.mem_cons, not_or] at h
    have hnone : ¬mark <+: c :: (l ++ cs) := by
      rw [mark_eq_cons, List.cons_prefix_cons]
      exact fun hc => h.1 hc.1
    rw [List.cons_append, marksIn, if_neg hnone, ih h.2, Nat.zero_add]

theorem marksIn_concat {c : CodePoint} (h : c ≠ 'D') (cs : List CodePoint) :
    marksIn (cs ++ [c]) = marksIn cs := by
  have hend (ds : List CodePoint) : mark <+: ds ++ [c] ↔ mark <+: ds := by
    rw [List.prefix_concat_iff, or_iff_right]
    intro heq
    rw [mark_eq_concat] at heq
    exact h (List.append_inj' heq rfl |>.2 |> List.singleton_inj.mp |>.symm)
  induction cs with
  | nil =>
    have hnone : ¬mark <+: [c] := fun hp => mark_ne_nil (List.prefix_nil.mp ((hend []).mp hp))
    simp [marksIn, hnone]
  | cons d ds ih =>
    have hsame := hend (d :: ds)
    rw [List.cons_append] at hsame
    rw [List.cons_append, marksIn, marksIn, ih]
    simp only [hsame]

theorem marksIn_append_of_no_end {l : List CodePoint} (h : CodePoint.char 'D' ∉ l)
    (cs : List CodePoint) :
    marksIn (cs ++ l) = marksIn cs := by
  induction l generalizing cs with
  | nil => rw [List.append_nil]
  | cons c l ih =>
    simp only [List.mem_cons, not_or] at h
    rw [List.append_cons, ih h.2, marksIn_concat (Ne.symm h.1)]

/-- A character that is not in the mark parts a text. -/
theorem marksIn_cut {c : CodePoint} (h : c ∉ mark) (as bs : List CodePoint) :
    marksIn (as ++ c :: bs) = marksIn as + marksIn bs := by
  have hcut (ds : List CodePoint) : mark <+: ds ++ c :: bs ↔ mark <+: ds := by
    refine ⟨fun hp => ?_, fun hp => hp.trans (List.prefix_append _ _)⟩
    by_cases hlen : mark.length ≤ ds.length
    · exact List.prefix_of_prefix_length_le hp (List.prefix_append _ _) hlen
    -- Otherwise the mark reaches over the character and has it.
    · have hstart : ds ++ [c] <+: ds ++ c :: bs := ⟨bs, by simp⟩
      have hover : ds ++ [c] <+: mark := by
        refine List.prefix_of_prefix_length_le hstart hp ?_
        simp only [List.length_append, List.length_singleton]
        omega
      exact (h (hover.subset (by simp))).elim
  induction as with
  | nil =>
    have hnone : ¬mark <+: c :: bs :=
      fun hp => mark_ne_nil (List.prefix_nil.mp ((hcut []).mp hp))
    simp [marksIn, hnone]
  | cons d ds ih =>
    have hsame := hcut (d :: ds)
    rw [List.cons_append] at hsame
    rw [List.cons_append, marksIn, marksIn, ih]
    simp only [hsame]
    omega

theorem marks_append_of_no_start {l : Text} (h : CodePoint.char 'N' ∉ l.toList) (s : Text) :
    marks (l ++ s) = marks s := by
  rw [marks, Text.toList_append, marksIn_append_of_no_start h]
  rfl

theorem marks_append_of_no_end {l : Text} (h : CodePoint.char 'D' ∉ l.toList) (s : Text) :
    marks (s ++ l) = marks s := by
  rw [marks, Text.toList_append, marksIn_append_of_no_end h]
  rfl

/-- A text that never is part of a mark and parts what stands before it from what follows. -/
def IsSeam (l : Text) : Prop :=
  CodePoint.char 'N' ∉ l.toList ∧ CodePoint.char 'D' ∉ l.toList ∧ ∃ c ∈ l.toList, c ∉ mark

instance (l : Text) : Decidable (IsSeam l) :=
  decidable_of_iff (CodePoint.char 'N' ∉ l.toList ∧ CodePoint.char 'D' ∉ l.toList ∧
      l.toList.any (· ∉ mark) = true)
    (by simp [IsSeam])

theorem IsSeam.marks_append {l : Text} (h : IsSeam l) (s t : Text) :
    marks (s ++ (l ++ t)) = marks s + marks t := by
  obtain ⟨hstart, hend, c, hc, hmark⟩ := h
  obtain ⟨before, after, hl⟩ := List.append_of_mem hc
  rw [hl] at hstart hend
  simp only [List.mem_append, List.mem_cons, not_or] at hstart hend
  have hcut := marksIn_cut hmark (s.toList ++ before) (after ++ t.toList)
  rw [marksIn_append_of_no_end hend.1, marksIn_append_of_no_start hstart.2.2] at hcut
  rw [marks, Text.toList_append, Text.toList_append, hl]
  simpa [marks] using hcut

/-- Only characters that are not in the mark are escaped, by one that is not in it either. -/
theorem marksIn_append_escaped (before cs : List CodePoint) :
    marksIn (before ++ escaped cs) = marksIn (before ++ cs) := by
  induction cs generalizing before with
  | nil => rfl
  | cons c cs ih =>
    by_cases h : c = '\\' ∨ c = '\x22'
    · have hc : c ∉ mark := by rcases h with rfl | rfl <;> decide
      have hrest : marksIn (c :: escaped cs) = marksIn (escaped cs) :=
        marksIn_append_of_no_start (l := [c]) (by rcases h with rfl | rfl <;> decide) _
      rw [escaped, if_pos h, marksIn_cut (by decide), marksIn_cut hc, hrest]
      exact congrArg _ (ih [])
    · have hnext := ih (before ++ [c])
      rw [List.append_assoc, List.append_assoc] at hnext
      rw [escaped, if_neg h]
      exact hnext

theorem marks_literal (s : Text) : marks (literal s) = marks s := by
  rw [marks, literal, Text.toList_ofList, marksIn_append_of_no_end (by decide)]
  exact (marksIn_append_of_no_start (l := [.char '\x22']) (by decide) _).trans
    (marksIn_append_escaped [] s.toList)

theorem marks_join {sep : Text} (hsep : IsSeam sep) {ts : List Text}
    (h : ∀ t ∈ ts, marks t = 0) : marks (join sep ts) = 0 := by
  induction ts with
  | nil => rfl
  | cons t more ih =>
    cases more with
    | nil => exact h t (by simp)
    | cons u rest =>
      have hrest := ih fun x hx => h x (by simp [hx])
      rw [join, Text.append_assoc, hsep.marks_append, h t (by simp), hrest]

end Text

namespace Layout

variable {a b l : Layout} {j k : Nat}

def Shows (l : Layout) (k : Nat) : Prop := ∀ width, Text.marks (l.render width) = k

/-- It adds this many marks to whatever text stands before it. -/
def Opens (l : Layout) (k : Nat) : Prop :=
  ∀ width s, Text.marks (s ++ l.render width) = Text.marks s + k

theorem Shows.of_eq (h : l.Shows j) (hjk : j = k) : l.Shows k := hjk ▸ h

theorem Opens.of_eq (h : l.Opens j) (hjk : j = k) : l.Opens k := hjk ▸ h

theorem shows_text {s : Text} (h : Text.marks s = k) : (text s).Shows k := fun _ => h

theorem opens_text {s : Text} (h : CodePoint.char 'D' ∉ s.toList) : (text s).Opens 0 :=
  fun _ t => Text.marks_append_of_no_end h t

theorem Opens.shows (h : l.Opens k) : l.Shows k := by
  intro width
  have hempty := h width ""
  rw [Text.empty_append] at hempty
  rw [hempty, show Text.marks "" = 0 from rfl, Nat.zero_add]

theorem Shows.append (ha : a.Shows j) (hb : b.Opens k) : (a.append b).Shows (j + k) := by
  intro width
  rw [render, hb width, ha width]

theorem Opens.append (ha : a.Opens j) (hb : b.Opens k) : (a.append b).Opens (j + k) := by
  intro width s
  rw [render, ← Text.append_assoc, hb width, ha width, Nat.add_assoc]

theorem Shows.after {s : Text} (h : CodePoint.char 'N' ∉ s.toList) (hl : l.Shows k) :
    ((text s).append l).Shows k := by
  intro width
  rw [render, render, Text.marks_append_of_no_start h, hl width]

theorem Shows.afterSeam {s : Text} (h : Text.IsSeam s) (hl : l.Shows k) :
    ((text s).append l).Opens k := by
  intro width t
  rw [render, render, h.marks_append, hl width]

theorem marks_signatureLine {arrow : Text} (h : Text.IsSeam (")" ++ arrow ++ " "))
    (before generics parameters returns : Text) :
    Text.marks (before ++ signatureLine generics parameters arrow returns) =
      Text.marks (before ++ generics) + Text.marks parameters + Text.marks returns := by
  have hopen : Text.IsSeam "(" := by decide
  have hinner := h.marks_append parameters returns
  have hall := hopen.marks_append (before ++ generics)
    (parameters ++ (")" ++ arrow ++ " " ++ returns))
  rw [hinner] at hall
  simpa only [signatureLine, Text.append_assoc, Nat.add_assoc] using hall

/-- A signature has the same marks whether or not it is wrapped. -/
theorem opens_signature {generics parameters returns : Layout} {arrow : Text} {i j k : Nat}
    (ha : Text.IsSeam (")" ++ arrow ++ " ")) (hg : generics.Opens i) (hp : parameters.Shows j)
    (hr : returns.Shows k) : (signature generics parameters arrow returns).Opens (i + j + k) := by
  intro width s
  have hwrapped : Text.marks ("\n\t\t" ++ parameters.render width ++ "\n\t") = j := by
    rw [Text.marks_append_of_no_end (by decide), Text.marks_append_of_no_start (by decide),
      hp width]
  simp only [render, signatureText]
  split
  · rw [marks_signatureLine ha, hg width, hwrapped, hr width, Nat.add_assoc, Nat.add_assoc,
      Nat.add_assoc]
  · rw [marks_signatureLine ha, hg width, hp width, hr width, Nat.add_assoc, Nat.add_assoc,
      Nat.add_assoc]

/-! Layouts that have so many marks together. -/

inductive ShowAll : List Layout → Nat → Prop
  | nil : ShowAll [] 0
  | cons {l : Layout} {ls : List Layout} {j k : Nat} (head : l.Shows j) (tail : ShowAll ls k) :
    ShowAll (l :: ls) (j + k)

namespace ShowAll

variable {ls ms : List Layout}

theorem eq_zero (h : ShowAll [] k) : k = 0 := by
  cases h
  rfl

theorem joined {sep : Text} (hsep : Text.IsSeam sep) (h : ShowAll ls k) :
    (Layout.joined sep ls).Shows k := by
  induction h with
  | nil => exact shows_text rfl
  | cons head tail ih =>
    cases tail with
    | nil => exact head
    | cons _ _ => exact head.append (ih.afterSeam hsep)

theorem shown (h : ShowAll ls k) : ShowAll (ls.filter fun l => !l.isEmpty) k := by
  induction h with
  | nil => exact .nil
  | @cons l _ j _ head _ ih =>
    cases hl : l.isEmpty with
    | false =>
      rw [List.filter_cons_of_pos (by simp [hl])]
      exact .cons head ih
    | true =>
      have hj : j = 0 := by
        rw [← head 0, (isEmpty_iff 0 l).mp hl]
        rfl
      rw [List.filter_cons_of_neg (by simp [hl]), hj, Nat.zero_add]
      exact ih

theorem partition {α : Type} {f : α → Layout} (p : α → Bool) {as : List α}
    (h : ShowAll (as.map f) k) : ∃ i j, ShowAll ((as.filter fun a => !p a).map f) i ∧
      ShowAll ((as.filter p).map f) j ∧ i + j = k := by
  induction as generalizing k with
  | nil =>
    cases h with
    | nil => exact ⟨0, 0, .nil, .nil, rfl⟩
  | cons a as ih =>
    cases h with
    | @cons _ _ m n head tail =>
      obtain ⟨i, j, hi, hj, rfl⟩ := ih tail
      cases hp : p a with
      | false =>
        refine ⟨m + i, j, ?_, ?_, Nat.add_assoc m i j⟩
        · simpa [hp] using hi.cons head
        · simpa [hp] using hj
      | true =>
        refine ⟨i, m + j, ?_, ?_, Nat.add_left_comm i m j⟩
        · simpa [hp] using hi
        · simpa [hp] using hj.cons head

end ShowAll

end Layout
end Libdef

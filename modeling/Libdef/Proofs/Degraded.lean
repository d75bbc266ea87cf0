import Libdef.Proofs.Marks
import Libdef.Proofs.Survey

/-!
Degraded spots of a node: the nodes in it that reach the text as placeholders. Main statement: a
printed node reports its degraded spots, each of them once and in the order of visiting, and has as
many placeholders.
-/

set_option autoImplicit false

namespace Libdef

namespace Head

/-- A node that has no printed form is degraded itself, and so is a literal without a text. -/
def ownSpot (h : Head) : List Head :=
  match h.kind with
  | .unsupported => [h]
  | .literalType => if h.text.isNone then [h] else []
  | _ => []

def report (h : Head) : Diagnostic where
  kind := .unsupportedKind
  subject := h.name
  message := "No printer for " ++ (if h.rawKind.truthy then h.rawKind.label else h.kind.name)

def words (h : Head) : List Text :=
  h.name.toList ++ h.rawKind.label ::
    match h.text with
    | some (.str t) => [t]
    | _ => []

/-- None of its texts looks like a placeholder. -/
def IsPlain (h : Head) : Prop := ∀ t ∈ h.words, Text.marks t = 0

instance (h : Head) : Decidable h.IsPlain := inferInstanceAs (Decidable (∀ t ∈ h.words, _ = 0))

end Head

namespace Node

/-- The heads of the nodes that reach the text as placeholders, in the order of visiting. -/
def degraded (n : Node) : Role → List Head := n.borne .declarations Head.ownSpot

def IsPlain (n : Node) : Prop := ∀ h ∈ n.heads, h.IsPlain

instance (n : Node) : Decidable n.IsPlain := inferInstanceAs (Decidable (∀ h ∈ n.heads, _))

end Node

/-! Computations that report degraded spots. -/

namespace Traced

variable {α β : Type} {P : α → Prop} {R : β → Prop} {spots more : List Head}

/-- The log is the reports on these spots, or the first of them where there is a failure. A result
has the property. -/
structure Tells (t : Traced Diagnostic α) (spots : List Head) (P : α → Prop) : Prop where
  log : t.log <+: spots.map Head.report
  of_ok : ∀ a, t.result = .ok a → t.log = spots.map Head.report ∧ P a

theorem tells_pure {a : α} (h : P a) : (Pure.pure a : Traced Diagnostic α).Tells [] P := by
  refine ⟨List.prefix_rfl, fun b hb => ?_⟩
  cases hb
  exact ⟨rfl, h⟩

theorem tells_fail (e : Fault) : (fail e : Traced Diagnostic α).Tells spots P :=
  ⟨List.nil_prefix, fun _ hb => nomatch hb⟩

theorem tells_tell (h : Head) : (tell h.report).Tells [h] fun _ => True :=
  ⟨List.prefix_rfl, fun _ _ => ⟨rfl, trivial⟩⟩

theorem Tells.bind {t : Traced Diagnostic α} {f : α → Traced Diagnostic β} (ht : t.Tells spots P)
    (hf : ∀ a, P a → (f a).Tells more R) : (t >>= f).Tells (spots ++ more) R := by
  cases hr : t.result with
  | error e =>
    rw [bind_of_error hr]
    refine ⟨?_, fun _ hb => nomatch hb⟩
    rw [List.map_append]
    exact ht.log.trans (List.prefix_append _ _)
  | ok a =>
    obtain ⟨hlog, ha⟩ := ht.of_ok a hr
    obtain ⟨hstarts, hok⟩ := hf a ha
    rw [bind_of_ok hr]
    refine ⟨?_, fun b hb => ⟨?_, (hok b hb).2⟩⟩
    · rw [List.map_append, hlog]
      exact (List.prefix_append_right_inj _).mpr hstarts
    · rw [List.map_append, ← hlog, ← (hok b hb).1]

theorem Tells.map {t : Traced Diagnostic α} {g : α → β} (ht : t.Tells spots P)
    (hg : ∀ a, P a → R (g a)) : (t >>= fun a => Pure.pure (g a)).Tells spots R := by
  have h := ht.bind fun a ha => tells_pure (hg a ha)
  rwa [List.append_nil] at h

end Traced

def Survey.spots (plain : Prop) : Survey .declarations Head where
  runs := Traced.Tells
  holds l spots := plain → l.Shows spots.length
  opens l spots := plain → l.Opens spots.length
  own := Head.ownSpot
  fine h := plain → h.IsPlain

/-- The sheet reports these spots and, if `plain`, has as many marks. -/
def Sheet.Marked (plain : Prop) (sheet : Sheet) (spots : List Head) : Prop :=
  sheet.Tells spots fun l => plain → l.Shows spots.length

theorem Survey.All.showAll {plain : Prop} {ls : List Layout} {spots : List Head}
    (h : (Survey.spots plain).All ls spots) (hp : plain) : Layout.ShowAll ls spots.length := by
  induction h with
  | nil => exact .nil
  | cons head _ ih =>
    rw [List.length_append]
    exact .cons (head hp) ih

namespace Layout

theorem opens_bodyLayout {ls : List Layout} {k : Nat} (withSemicolons : Bool)
    (h : ShowAll ls k) : (Sheet.bodyLayout withSemicolons ls).Opens k := by
  have hsep : Text.IsSeam (if withSemicolons then ";\n\t\t" else ",\n\t\t") := by
    split <;> decide
  have hshown := h.shown
  simp only [Sheet.bodyLayout]
  split
  · rename_i hnone
    rw [List.isEmpty_iff.mp hnone] at hshown
    rw [hshown.eq_zero]
    exact opens_text (by decide)
  · exact ((hshown.joined hsep).append (opens_text (by decide))).afterSeam (by decide)

theorem opens_heritagePart {word : Text} (hword : Text.IsSeam word) {ls : List Layout} {k : Nat}
    (h : ShowAll ls k) : (Sheet.heritagePart word ls).Opens k := by
  simp only [Sheet.heritagePart]
  split
  · rename_i hnone
    rw [List.isEmpty_iff.mp hnone] at h
    rw [h.eq_zero]
    exact opens_text (by decide)
  · exact (h.joined (by decide)).afterSeam hword

theorem opens_heritageLayout {types : List (Bool × Layout)} {k : Nat}
    (h : ShowAll (types.map Prod.snd) k) : (Sheet.heritageLayout types).Opens k := by
  obtain ⟨i, j, hi, hj, hij⟩ := h.partition Prod.fst
  exact ((opens_heritagePart (by decide) hi).append (opens_heritagePart (by decide) hj)).of_eq hij

end Layout

namespace Sheet

open Traced Layout

variable {plain : Prop}

theorem ofText_marked {s : Text} (h : plain → Text.marks s = 0) : Marked plain (ofText s) [] :=
  tells_pure fun hp => shows_text (h hp)

theorem marks_name {h : Head} (hplain : h.IsPlain) : Text.marks (h.name.getD "") = 0 := by
  cases hn : h.name with
  | none => rfl
  | some t => exact hplain t (by simp [Head.words, hn])

theorem marks_nameText {h : Head} (hplain : h.IsPlain) : Text.marks (nameText h.name) = 0 := by
  cases hn : h.name with
  | none => decide
  | some t => exact hplain t (by simp [Head.words, hn])

theorem marks_text {h : Head} (hplain : h.IsPlain) {t : Text} (ht : h.text = some (.str t)) :
    Text.marks t = 0 := hplain t (by simp [Head.words, ht])

theorem unsupported_marked {s : Shape Printed} (hplain : plain → s.toHead.IsPlain) :
    Marked plain (unsupported s) [s.toHead] := by
  refine (tells_tell s.toHead).map fun _ _ hp => ?_
  have hkind : Text.marks (if s.rawKind.truthy then s.rawKind.label else s.kind.name) = 0 := by
    split
    · exact hplain hp _ (by simp [Head.words])
    · cases s.kind <;> decide
  have hseam : Text.IsSeam ": " := by decide
  have hmark := hseam.marks_append "NO PRINT IMPLEMENTED"
    (if s.rawKind.truthy then s.rawKind.label else s.kind.name)
  rw [hkind, ← Text.append_assoc] at hmark
  exact shows_text hmark

theorem ownText_marked {s : Shape Printed} (hplain : plain → s.toHead.IsPlain) :
    Marked plain (ownText s) [] := by
  rcases ownText_cases s with ⟨-, hs⟩ | ⟨t, ht, -, hs⟩ | ⟨_, -, -, hs⟩ <;> rw [hs]
  · exact ofText_marked fun hp => marks_name (hplain hp)
  · exact ofText_marked fun hp => marks_text (hplain hp) ht
  · exact tells_fail _

theorem literal_marked {s : Shape Printed} (hplain : plain → s.toHead.IsPlain) :
    Marked plain (literal s) (if s.text.isNone then [s.toHead] else []) := by
  rcases literal_cases s with ⟨ht, hs⟩ | ⟨t, ht, ⟨-, hs⟩ | ⟨-, hs⟩⟩ | ⟨_, -, -, hs⟩ <;> rw [hs]
  · rw [ht]
    exact unsupported_marked hplain
  · rw [ht]
    exact ofText_marked fun hp => (Text.marks_literal t).trans (marks_text (hplain hp) ht)
  · rw [ht]
    exact ofText_marked fun hp => marks_text (hplain hp) ht
  · exact tells_fail _

end Sheet

namespace Survey

open Layout

variable {plain : Prop}

theorem spots_lawful : (spots plain).Lawful where
  pure := Traced.tells_pure
  bind := Traced.Tells.bind
  holds_of_opens h hp := (h hp).shows
  append ha hb hp := ((ha hp).append (hb hp)).of_eq List.length_append.symm
  opens_append ha hb hp := ((ha hp).append (hb hp)).of_eq List.length_append.symm
  keyword t ht _ := shows_text ((by decide : ∀ t ∈ Sheet.keywords, Text.marks t = 0) t ht)
  lead t ht h hp :=
    (h hp).after ((by decide : ∀ t ∈ Sheet.leads, CodePoint.char 'N' ∉ t.toList) t ht)
  seam t ht h hp := (h hp).afterSeam ((by decide : ∀ t ∈ Sheet.seams, Text.IsSeam t) t ht)
  tail t ht _ := opens_text ((by decide : ∀ t ∈ Sheet.tails, CodePoint.char 'D' ∉ t.toList) t ht)
  enclosed e he h hp := by
    have hends : ∀ e ∈ Sheet.ends, Text.IsSeam e.1 ∧ CodePoint.char 'D' ∉ e.2.toList := by decide
    exact ((h hp).append (opens_text (hends e he).2)).afterSeam (hends e he).1
  indexed hp ht plain := by
    have hrest := (hp plain).append ((ht plain).afterSeam (s := "]: ") (by decide))
    exact (hrest.after (by decide)).of_eq List.length_append.symm
  signature asDeclaration hp hq hr plain := by
    have harrow : Text.IsSeam (")" ++ Sheet.arrow asDeclaration ++ " ") := by
      cases asDeclaration <;> decide
    refine (opens_signature harrow (hq plain) (hp plain) (hr plain)).of_eq ?_
    simp only [List.length_append]
    omega
  body withSemicolons h hp := opens_bodyLayout withSemicolons (h.showAll hp)
  heritage h hp := opens_heritageLayout (h.showAll hp)
  name h hp := shows_text (Sheet.marks_name (h hp))
  nameText h hp := shows_text (Sheet.marks_nameText (h hp))
  unsupported {s} h hk := by
    have hown : (spots plain).own s.toHead = [s.toHead] := by
      rcases hk with hk | hk
      · simp [spots, Head.ownSpot, hk]
      · cases hk
    rw [hown]
    exact Sheet.unsupported_marked h
  literal {s} h hk := by
    have hown : (spots plain).own s.toHead = if s.text.isNone then [s.toHead] else [] := by
      simp [spots, Head.ownSpot, hk]
    rw [hown]
    exact Sheet.literal_marked h
  ownText {s} h hk := by
    have hown : (spots plain).own s.toHead = [] := by
      rcases hk with hk | hk <;> simp [spots, Head.ownSpot, hk]
    rw [hown]
    exact Sheet.ownText_marked h
  own_eq_nil {h} hk := by
    simp only [spots, Head.ownSpot]
    split <;> simp_all

end Survey

namespace Node

theorem told {plain : Prop} (n : Node) (h : plain → n.IsPlain) :
    Sheet.Marked plain (n.printed .declarations).sheet (n.degraded .whole) :=
  (Survey.spots_lawful.surveyed n fun head hh hp => h hp head hh).sheet

end Node
end Libdef

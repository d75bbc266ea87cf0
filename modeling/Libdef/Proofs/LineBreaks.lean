import Libdef.Proofs.Listing
import Libdef.Proofs.Quotation

/-!
Line feeds in layouts. The printer breaks lines in bodies and in wrapped signatures, where a bracket
or a separator stands before the line feed or a closing bracket comes next. A layout carries strings
if it has each of them in its text and line feeds of another sort only in them, at every width. Main
statements: what is put together from layouts carries the strings of all of them, and a string in
quotes cannot hide its line feeds behind what stands around it.
-/

set_option autoImplicit false

namespace Libdef

namespace Text

/-- A line feed between these characters belongs to the layout. A tab follows it, and it stands
behind an opening bracket or a separator, or a closing bracket comes next. -/
def IsBreak (before after : List CodePoint) : Prop :=
  after.head? = some (.char '\t') ∧
    (before.getLast? ∈ [some (.char '\x7b'), some (.char '('), some (.char ','), some (.char ';')] ∨
      after[1]? ∈ [some (.char '\x7d'), some (.char ')')])

instance (before after : List CodePoint) : Decidable (IsBreak before after) :=
  inferInstanceAs (Decidable (_ ∧ _))

/-- All line feeds belong to the layout. -/
def LaidOut (s : Text) : Prop :=
  ∀ before after, s.toList = before ++ .char '\n' :: after → IsBreak before after

theorem laidOut_iff {s : Text} :
    LaidOut s ↔ ∀ i < s.toList.length, s.toList[i]? = some (.char '\n') →
    IsBreak (s.toList.take i) (s.toList.drop (i + 1)) := by
  constructor
  · intro h i hi hbreak
    refine h _ _ ?_
    obtain ⟨_, hget⟩ := List.getElem?_eq_some_iff.mp hbreak
    rw [← hget, List.getElem_cons_drop, List.take_append_drop]
  · intro h before after hs
    have hbreak := h before.length (by simp [hs]) (by simp [hs])
    simpa [hs] using hbreak

instance (s : Text) : Decidable (LaidOut s) := decidable_of_iff _ laidOut_iff.symm

theorem laidOut_of_not_mem {s : Text} (h : CodePoint.char '\n' ∉ s.toList) : LaidOut s := by
  intro before after hs
  simp [hs] at h

theorem IsBreak.extend {before after : List CodePoint} (h : IsBreak before after)
    (front back : List CodePoint) : IsBreak (front ++ before) (after ++ back) := by
  obtain ⟨htab, hside⟩ := h
  refine ⟨by simp [htab], hside.imp (fun hlast => ?_) fun hnext => ?_⟩
  · cases hb : before.getLast? with
    | none => simp [hb] at hlast
    | some c => simpa [List.getLast?_append, hb] using hlast
  · cases ha : after[1]? with
    | none => simp [ha] at hnext
    | some c =>
      obtain ⟨hlt, -⟩ := List.getElem?_eq_some_iff.mp ha
      rwa [List.getElem?_append_left hlt]

/-- Nothing is lost by looking at a line feed inside a text that begins before it and does not end
in a tab. -/
theorem IsBreak.shrink {front before after back : List CodePoint} (hbefore : before ≠ [])
    (hafter : after ≠ []) (hend : after.getLast? ≠ some (.char '\t'))
    (h : IsBreak (front ++ before) (after ++ back)) : IsBreak before after := by
  obtain ⟨htab, hside⟩ := h
  rw [List.head?_append_of_ne_nil _ hafter] at htab
  rw [List.getLast?_append_of_ne_nil _ hbefore] at hside
  refine ⟨htab, hside.imp_right fun hnext => ?_⟩
  match after, hafter with
  | [c], _ => exact absurd htab hend
  | c :: d :: rest, _ => simpa using hnext

theorem LaidOut.append {s t : Text} (hs : LaidOut s) (ht : LaidOut t) : LaidOut (s ++ t) := by
  intro before after h
  rw [Text.toList_append] at h
  rcases List.append_eq_append_iff.mp h with ⟨mid, hbefore, hmid⟩ | ⟨mid, hs', hmid⟩
  · have hbreak := (ht mid after hmid).extend s.toList []
    rwa [← hbefore, List.append_nil] at hbreak
  · cases mid with
    | nil =>
      have hbreak := (ht [] after hmid.symm).extend before []
      rwa [List.append_nil, List.append_nil] at hbreak
    | cons c mid =>
      obtain ⟨rfl, rfl⟩ := List.cons.inj hmid
      exact (hs before mid hs').extend [] t.toList

theorem laidOut_join {sep : Text} {ts : List Text} (hsep : LaidOut sep)
    (h : ∀ t ∈ ts, LaidOut t) : LaidOut (join sep ts) := by
  induction ts with
  | nil =>
    show LaidOut ""
    decide
  | cons t rest ih =>
    cases rest with
    | nil => exact h t (by simp)
    | cons u more =>
      rw [join_cons (List.cons_ne_nil u more)]
      exact ((h t (by simp)).append hsep).append (ih fun x hx => h x (by simp [hx]))

theorem toList_literal (t : Text) :
    (literal t).toList = .char '\x22' :: (escaped t.toList ++ [.char '\x22']) := by
  simp [literal]

/-- The quotes of a literal keep what stands around it apart from its text. -/
theorem LaidOut.of_occurs {t s : Text} (h : Occurs (literal t) s) (hs : LaidOut s) :
    LaidOut (literal t) := by
  obtain ⟨front, back, hs'⟩ := h
  intro before after ht
  have hwhole : s.toList = (front ++ before) ++ .char '\n' :: (after ++ back) := by
    rw [← hs', ht]
    simp
  rw [toList_literal] at ht
  have hbefore : before ≠ [] := by
    rintro rfl
    simp at ht
  have hlast : (CodePoint.char '\n' :: after).getLast? = some (.char '\x22') := by
    have hends := congrArg List.getLast? ht
    rw [List.getLast?_append_of_ne_nil _ (List.cons_ne_nil _ _)] at hends
    rw [← hends, ← List.cons_append, List.getLast?_concat]
  have hafter : after ≠ [] := by
    rintro rfl
    simp at hlast
  rw [← List.singleton_append, List.getLast?_append_of_ne_nil _ hafter] at hlast
  exact (hs _ _ hwhole).shrink hbefore hafter (by simp [hlast])

theorem mem_escaped_iff {c : CodePoint} (hc : c ≠ '\\') {cs : List CodePoint} :
    c ∈ escaped cs ↔ c ∈ cs := by
  induction cs with
  | nil => rfl
  | cons d cs ih => by_cases hd : d = '\\' ∨ d = '\x22' <;> simp [escaped, hd, hc, ih]

theorem lineFeed_mem_literal {t : Text} :
    CodePoint.char '\n' ∈ (literal t).toList ↔ CodePoint.char '\n' ∈ t.toList := by
  simp [toList_literal, mem_escaped_iff]

end Text

namespace Layout

variable {a b l : Layout} {ls : List Layout} {ss ts : List Text}

/-- The strings are in the text, and the line feeds outside them belong to the layout. -/
structure Carries (l : Layout) (ss : List Text) : Prop where
  occurs : ∀ width, ∀ s ∈ ss, Text.Occurs s (l.render width)
  laidOut : (∀ s ∈ ss, Text.LaidOut s) → ∀ width, Text.LaidOut (l.render width)

structure CarryAll (ls : List Layout) (ss : List Text) : Prop where
  occurs : ∀ width, ∀ s ∈ ss, ∃ l ∈ ls, Text.Occurs s (l.render width)
  laidOut : (∀ s ∈ ss, Text.LaidOut s) → ∀ l ∈ ls, ∀ width, Text.LaidOut (l.render width)

theorem carries_text {s : Text} (h : Text.LaidOut s) : (text s).Carries [] :=
  ⟨fun _ _ hs => (nomatch hs), fun _ _ => h⟩

theorem carries_string (s : Text) : (text s).Carries [s] := by
  refine ⟨fun _ t ht => ?_, fun h _ => h s (by simp)⟩
  rw [List.mem_singleton.mp ht]
  exact Text.occurs_refl s

theorem Carries.append (ha : a.Carries ss) (hb : b.Carries ts) :
    (a.append b).Carries (ss ++ ts) := by
  refine ⟨fun width s hs => ?_, fun h width => ?_⟩
  · rcases List.mem_append.mp hs with hs | hs
    · exact (ha.occurs width s hs).append_right _
    · exact (hb.occurs width s hs).append_left _
  · rw [List.forall_mem_append] at h
    exact (ha.laidOut h.1 width).append (hb.laidOut h.2 width)

theorem carryAll_nil : CarryAll [] [] := ⟨fun _ _ hs => (nomatch hs), fun _ _ hl => nomatch hl⟩

theorem Carries.singleton (h : l.Carries ss) : CarryAll [l] ss :=
  ⟨fun width s hs => ⟨l, by simp, h.occurs width s hs⟩,
    fun hss m hm => List.mem_singleton.mp hm ▸ h.laidOut hss⟩

theorem CarryAll.append {ms : List Layout} (h : CarryAll ls ss) (hm : CarryAll ms ts) :
    CarryAll (ls ++ ms) (ss ++ ts) := by
  refine ⟨fun width s hs => ?_, fun hss l hl => ?_⟩
  · rcases List.mem_append.mp hs with hs | hs
    · obtain ⟨l, hl, hoccurs⟩ := h.occurs width s hs
      exact ⟨l, List.mem_append_left _ hl, hoccurs⟩
    · obtain ⟨l, hl, hoccurs⟩ := hm.occurs width s hs
      exact ⟨l, List.mem_append_right _ hl, hoccurs⟩
  · rw [List.forall_mem_append] at hss
    exact (List.mem_append.mp hl).elim (h.laidOut hss.1 l) (hm.laidOut hss.2 l)

theorem Carries.cons (hl : l.Carries ss) (h : CarryAll ls ts) : CarryAll (l :: ls) (ss ++ ts) :=
  hl.singleton.append h

theorem Carries.closed {s : Text} (hl : l.Carries ss) (hs : Text.LaidOut s) :
    CarryAll [l, text s] ss := by
  have h := hl.cons (carries_text hs).singleton
  rwa [List.append_nil] at h

theorem CarryAll.joined {sep : Text} (h : CarryAll ls ss) (hsep : Text.LaidOut sep) :
    (joined sep ls).Carries ss := by
  refine ⟨fun width s hs => ?_, fun hss width => ?_⟩
  · obtain ⟨l, hl, hoccurs⟩ := h.occurs width s hs
    rw [render_joined]
    exact hoccurs.trans (Text.occurs_join (List.mem_map_of_mem hl))
  · rw [render_joined]
    refine Text.laidOut_join hsep fun t ht => ?_
    obtain ⟨l, hl, rfl⟩ := List.mem_map.mp ht
    exact h.laidOut hss l hl width

theorem CarryAll.row (h : CarryAll ls ss) : (row ls).Carries ss := by
  have hjoined : (Layout.joined "" ls).Carries ss := h.joined (by decide)
  refine ⟨fun width => ?_, fun hss width => ?_⟩
  · simpa only [render_row, render_joined] using hjoined.occurs width
  · simpa only [render_row, render_joined] using hjoined.laidOut hss width

/-- What is in no layout with a text is empty. -/
theorem CarryAll.occurs_shown (h : CarryAll ls ss) (width : Int) {s : Text} (hs : s ∈ ss) :
    s = "" ∨ ∃ l ∈ ls.filter (fun l => !l.isEmpty), Text.Occurs s (l.render width) := by
  obtain ⟨l, hl, hoccurs⟩ := h.occurs width s hs
  by_cases hempty : l.isEmpty = true
  · rw [(isEmpty_iff width l).mp hempty] at hoccurs
    exact .inl (Text.toList_inj.mp (List.infix_nil.mp hoccurs))
  · exact .inr ⟨l, List.mem_filter.mpr ⟨hl, by simpa using hempty⟩, hoccurs⟩

theorem CarryAll.shown (h : CarryAll ls ss) (hne : ls.filter (fun l => !l.isEmpty) ≠ []) :
    CarryAll (ls.filter fun l => !l.isEmpty) ss := by
  refine ⟨fun width s hs => ?_, fun hss l hl => h.laidOut hss l (List.mem_of_mem_filter hl)⟩
  rcases h.occurs_shown width hs with rfl | hshown
  · obtain ⟨l, hl⟩ := List.exists_mem_of_ne_nil _ hne
    exact ⟨l, hl, List.nil_infix⟩
  · exact hshown

theorem CarryAll.hidden {t : Text} (h : CarryAll ls ss) (ht : Text.LaidOut t)
    (hnone : ls.filter (fun l => !l.isEmpty) = []) : (text t).Carries ss := by
  refine ⟨fun width s hs => ?_, fun _ _ => ht⟩
  rcases h.occurs_shown width hs with rfl | ⟨l, hl, -⟩
  · exact List.nil_infix
  · rw [hnone] at hl
    cases hl

theorem exists_render_signature_eq_row (width : Int) (g p : Layout) (arrow : Text) (r : Layout) :
    ∃ before after, Text.LaidOut before ∧ Text.LaidOut after ∧
      (signature g p arrow r).render width =
        (row [g, text before, p, text after, text arrow, text " ", r]).render width := by
  simp only [render, row, signatureText]
  split
  · refine ⟨"(\n\t\t", "\n\t)", by decide, by decide, ?_⟩
    apply Text.toList_inj.mp
    simp [signatureLine]
  · refine ⟨"(", ")", by decide, by decide, ?_⟩
    simp [signatureLine, Text.append_assoc]

theorem carries_signature {g p r : Layout} {arrow : Text} {gs ps rs : List Text}
    (harrow : Text.LaidOut arrow) (hg : g.Carries gs) (hp : p.Carries ps) (hr : r.Carries rs) :
    (signature g p arrow r).Carries (ps ++ (gs ++ rs)) := by
  -- the strings are visited with the parameters first, but printed with the generics first
  have hmem (s : Text) : s ∈ ps ++ (gs ++ rs) ↔ s ∈ gs ++ (ps ++ rs) := by
    simp only [List.mem_append]
    tauto
  have hrow {before after : Text} (hb : Text.LaidOut before) (ha : Text.LaidOut after) :
      (row [g, text before, p, text after, text arrow, text " ", r]).Carries
        (gs ++ (ps ++ rs)) := by
    have hspace : (text " ").Carries [] := carries_text (by decide)
    have hreturns := (carries_text harrow).cons (hspace.cons hr.singleton)
    have hparameters := hp.cons ((carries_text ha).cons hreturns)
    exact (hg.cons ((carries_text hb).cons hparameters)).row
  refine ⟨fun width s hs => ?_, fun hss width => ?_⟩
  · obtain ⟨before, after, hb, ha, htext⟩ := exists_render_signature_eq_row width g p arrow r
    rw [htext]
    exact (hrow hb ha).occurs width s ((hmem s).mp hs)
  · obtain ⟨before, after, hb, ha, htext⟩ := exists_render_signature_eq_row width g p arrow r
    rw [htext]
    exact (hrow hb ha).laidOut (fun s hs => hss s ((hmem s).mpr hs)) width

end Layout

namespace Sheet

open Layout

variable {word : Text} {layouts : List Layout} {width : Int}

theorem occurs_heritagePart {l : Layout} (hl : l ∈ layouts) :
    Text.Occurs (l.render width) ((heritagePart word layouts).render width) := by
  have hne : layouts.isEmpty = false := by
    rw [List.isEmpty_eq_false_iff]
    exact List.ne_nil_of_mem hl
  simp only [heritagePart, hne, Bool.false_eq_true, if_false, render, render_joined]
  exact (Text.occurs_join (List.mem_map_of_mem hl)).append_left word

theorem laidOut_heritagePart (hword : Text.LaidOut word)
    (h : ∀ l ∈ layouts, Text.LaidOut (l.render width)) :
    Text.LaidOut ((heritagePart word layouts).render width) := by
  simp only [heritagePart]
  split
  · show Text.LaidOut ""
    decide
  · rw [render, render_joined]
    refine hword.append (Text.laidOut_join (by decide) fun t ht => ?_)
    obtain ⟨l, hl, rfl⟩ := List.mem_map.mp ht
    exact h l hl

theorem carries_body (withSemicolons : Bool) {ss : List Text} (h : CarryAll layouts ss) :
    (bodyLayout withSemicolons layouts).Carries ss := by
  have hsep : Text.LaidOut (if withSemicolons then ";\n\t\t" else ",\n\t\t") := by
    split <;> decide
  simp only [bodyLayout]
  split
  · rename_i hnone
    exact h.hidden (by decide) (List.isEmpty_iff.mp hnone)
  · rename_i hsome
    have hshown := h.shown (mt List.isEmpty_iff.mpr hsome)
    exact ((carries_text (by decide)).cons ((hshown.joined hsep).closed (by decide))).row

theorem carries_heritage {types : List (Bool × Layout)} {ss : List Text}
    (h : CarryAll (types.map Prod.snd) ss) : (heritageLayout types).Carries ss := by
  refine ⟨fun width s hs => ?_, fun hss width => ?_⟩
  · obtain ⟨l, hl, hoccurs⟩ := h.occurs width s hs
    obtain ⟨t, ht, rfl⟩ := List.mem_map.mp hl
    rw [heritageLayout, render]
    cases hflag : t.1 with
    | false =>
      refine Text.Occurs.append_right (hoccurs.trans (occurs_heritagePart ?_)) _
      exact List.mem_map_of_mem (List.mem_filter.mpr ⟨ht, by simp [hflag]⟩)
    | true =>
      refine Text.Occurs.append_left (hoccurs.trans (occurs_heritagePart ?_)) _
      exact List.mem_map_of_mem (List.mem_filter.mpr ⟨ht, hflag⟩)
  · have hall {p : Bool × Layout → Bool} :
        ∀ l ∈ (types.filter p).map Prod.snd, Text.LaidOut (l.render width) := by
      intro l hl
      obtain ⟨t, ht, rfl⟩ := List.mem_map.mp hl
      exact h.laidOut hss _ (List.mem_map_of_mem (List.mem_of_mem_filter ht)) width
    exact (laidOut_heritagePart (by decide) hall).append
      (laidOut_heritagePart (by decide) hall)

end Sheet

end Libdef

import Libdef.Proofs.LineBreaks
import Libdef.Proofs.Printing

/-!
Strings in printed nodes: the texts of string literals, which may have any characters. Main
statement: in a node without line feeds in its names, the line feeds are those of the layout and
those of its strings, each of which is in the text as it is, on as many lines as it has.
-/

set_option autoImplicit false

namespace Libdef

namespace Head

/-- A string literal as it is printed: in quotes as a type, and as it is as a name. -/
def string? (h : Head) : Option Text :=
  match h.kind, h.text with
  | .literalType, some (.str t) =>
    if h.token ∈ [none, some ("StringLiteral" : Text), some "NoSubstitutionTemplateLiteral"] then
      some (Text.literal t)
    else none
  | .stringLiteral, some (.str t) => if t = "" then none else some t
  | _, _ => none

/-- The names of a node, its raw kind, and its text if it is a literal other than a string. -/
def bareWords (h : Head) : List Text :=
  h.name.toList ++ h.rawKind.label ::
    match h.string?, h.kind, h.text with
    | none, .identifier, some (.str t) | none, .literalType, some (.str t) => [t]
    | _, _, _ => []

/-- No line feed but in the text of a string, or in one that is not printed. -/
def IsFlat (h : Head) : Prop := ∀ w ∈ h.bareWords, CodePoint.char '\n' ∉ w.toList

instance (h : Head) : Decidable h.IsFlat := inferInstanceAs (Decidable (∀ w ∈ h.bareWords, _))

variable {h : Head}

theorem string?_of_kind (hl : h.kind ≠ .literalType) (hs : h.kind ≠ .stringLiteral) :
    h.string? = none := by
  simp only [string?]
  split <;> simp_all

theorem IsFlat.nameOr (hflat : h.IsFlat) {t : Text} (ht : Text.LaidOut t) :
    Text.LaidOut (h.name.getD t) := by
  cases hn : h.name with
  | none => exact ht
  | some name => exact Text.laidOut_of_not_mem (hflat name (by simp [bareWords, hn]))

theorem IsFlat.name (hflat : h.IsFlat) : Text.LaidOut (h.name.getD "") :=
  hflat.nameOr (by decide)

theorem IsFlat.nameText (hflat : h.IsFlat) : Text.LaidOut (Sheet.nameText h.name) :=
  hflat.nameOr (by decide)

theorem IsFlat.rawKind (hflat : h.IsFlat) : Text.LaidOut h.rawKind.label :=
  Text.laidOut_of_not_mem (hflat _ (by simp [bareWords]))

theorem IsFlat.text (hflat : h.IsFlat) {t : Text} (hs : h.string? = none)
    (hk : h.kind = .identifier ∨ h.kind = .literalType) (ht : h.text = some (.str t)) :
    Text.LaidOut t := by
  refine Text.laidOut_of_not_mem (hflat t ?_)
  rcases hk with hk | hk <;> simp [bareWords, hs, hk, ht]

end Head

namespace Node

/-- The strings that reach the text of a node, as they are printed. -/
def strings (vocabulary : Vocabulary) (n : Node) : Role → List Text :=
  n.borne vocabulary fun h => h.string?.toList

end Node

namespace Sheet

open Traced Layout

theorem arrow_laidOut (asDeclaration : Bool) : Text.LaidOut (arrow asDeclaration) := by
  cases asDeclaration <;> decide

section Own

variable {s : Shape Printed} (hflat : s.toHead.IsFlat)
include hflat

theorem unsupported_carried : (unsupported s).Yields (Carries · []) := by
  have hkind : Text.LaidOut (if s.rawKind.truthy then s.rawKind.label else s.kind.name) := by
    split
    · exact hflat.rawKind
    · cases s.kind <;> decide
  have hmark : Text.LaidOut "NO PRINT IMPLEMENTED: " := by decide
  exact (yields_of_forall (fun _ => trivial) _).bind fun _ (_ : True) =>
    yields_pure (carries_text (hmark.append hkind))

theorem ownText_carried (hkind : s.kind = .identifier ∨ s.kind = .stringLiteral) :
    (ownText s).Yields (Carries · s.string?.toList) := by
  rcases ownText_cases s with ⟨hempty, hs⟩ | ⟨t, ht, hne, hs⟩ | ⟨_, -, -, hs⟩ <;> rw [hs]
  · have hnone : s.string? = none := by
      simp only [Head.string?]
      split <;> simp_all
    rw [hnone]
    exact yields_pure (carries_text hflat.name)
  · rcases hkind with hk | hk
    · have hnone : s.string? = none := by simp [Head.string?, hk]
      rw [hnone]
      exact yields_pure (carries_text (hflat.text hnone (.inl hk) ht))
    · have hsome : s.string? = some t := by simp [Head.string?, hk, ht, hne]
      rw [hsome]
      exact yields_pure (carries_string t)
  · exact yields_fail _

theorem literal_carried (hkind : s.kind = .literalType) :
    (literal s).Yields (Carries · s.string?.toList) := by
  rcases literal_cases s with ⟨ht, hs⟩ | ⟨t, ht, ⟨htoken, hs⟩ | ⟨htoken, hs⟩⟩ | ⟨_, -, -, hs⟩ <;>
    rw [hs]
  · rw [show s.string? = none by simp [Head.string?, ht]]
    exact unsupported_carried hflat
  · have hsome : s.string? = some (Text.literal t) := by
      simp only [Head.string?, hkind, ht, if_pos htoken]
    rw [hsome]
    exact yields_pure (carries_string _)
  · have hnone : s.string? = none := by
      simp only [Head.string?, hkind, ht, if_neg htoken]
    rw [hnone]
    exact yields_pure (carries_text (hflat.text hnone (.inr hkind) ht))
  · exact yields_fail _

end Own

end Sheet

def Survey.strings (vocabulary : Vocabulary) : Survey vocabulary Text where
  runs t _ P := t.Yields P
  holds := Layout.Carries
  opens := Layout.Carries
  own h := h.string?.toList
  fine := Head.IsFlat

namespace Survey

open Layout

variable {vocabulary : Vocabulary}

theorem All.carryAll {ls : List Layout} {ss : List Text}
    (h : (Survey.strings vocabulary).All ls ss) : CarryAll ls ss := by
  induction h with
  | nil => exact carryAll_nil
  | cons head _ ih => exact head.cons ih

theorem strings_lawful : (strings vocabulary).Lawful where
  pure h := h
  bind := Traced.Yields.bind
  holds_of_opens h := h
  append := Carries.append
  opens_append := Carries.append
  keyword t ht := carries_text ((by decide : ∀ t ∈ Sheet.keywords, Text.LaidOut t) t ht)
  lead t ht h := .append (carries_text ((by decide : ∀ t ∈ Sheet.leads, Text.LaidOut t) t ht)) h
  seam t ht h := .append (carries_text ((by decide : ∀ t ∈ Sheet.seams, Text.LaidOut t) t ht)) h
  tail t ht := carries_text ((by decide : ∀ t ∈ Sheet.tails, Text.LaidOut t) t ht)
  enclosed e he h := by
    have hends : ∀ e ∈ Sheet.ends, Text.LaidOut e.1 ∧ Text.LaidOut e.2 := by decide
    exact ((carries_text (hends e he).1).cons (h.closed (hends e he).2)).row
  indexed hp ht := by
    have hclosing : (text "]: ").Carries [] := carries_text (by decide)
    have hopening : (text "[").Carries [] := carries_text (by decide)
    exact (hopening.cons (hp.cons (hclosing.cons ht.singleton))).row
  signature asDeclaration hp hq hr :=
    carries_signature (Sheet.arrow_laidOut asDeclaration) hq hp hr
  body withSemicolons h := Sheet.carries_body withSemicolons h.carryAll
  heritage h := Sheet.carries_heritage h.carryAll
  name h := carries_text h.name
  nameText h := carries_text h.nameText
  unsupported {s} h hk := by
    have hnone : s.string? = none := by
      rcases hk with hk | hk
      · exact Head.string?_of_kind (by simp [hk]) (by simp [hk])
      · have hdeclaration := Vocabulary.isDeclaration_of_handles_eq_false hk
        exact Head.string?_of_kind (by rintro hl; simp [hl, Kind.isDeclaration] at hdeclaration)
          (by rintro hl; simp [hl, Kind.isDeclaration] at hdeclaration)
    have hown : (strings vocabulary).own s.toHead = [] := by simp [strings, hnone]
    rw [hown]
    exact Sheet.unsupported_carried h
  literal h hk := Sheet.literal_carried h hk
  ownText h hk := Sheet.ownText_carried h hk
  own_eq_nil {h} hk := by
    have hnone : h.string? = none :=
      Head.string?_of_kind (by rintro hl; simp [hl] at hk) (by rintro hl; simp [hl] at hk)
    simp [strings, hnone]

end Survey

namespace Node

theorem carried {vocabulary : Vocabulary} (n : Node) (hflat : ∀ h ∈ n.heads, h.IsFlat) :
    (n.printed vocabulary).sheet.Yields (Layout.Carries · (n.strings vocabulary .whole)) :=
  (Survey.strings_lawful.surveyed n hflat).sheet

/-- Take a node without line feeds in its names, its raw kinds and the texts of its literals other
than strings. Each of its strings is in the text as it is. All line feeds in the text belong to the
layout if those in the strings do, as where the strings have none, and only if those in the string
literal types do. A string literal type is on one line just if its text has no line feed. -/
theorem laidOut_as_strings_are (vocabulary : Vocabulary) {n : Node}
    (hflat : ∀ h ∈ n.heads, h.IsFlat) :
    let sheet := (n.printed vocabulary).sheet
    let strings := n.strings vocabulary .whole
    (n.printable = true → ∃ l, sheet.result = .ok l) ∧
      ∀ l, sheet.result = .ok l → ∀ width,
        let text := l.render width
        (∀ s ∈ strings, Text.Occurs s text) ∧
          ((∀ s ∈ strings, Text.LaidOut s) → Text.LaidOut text) ∧
          ((∀ s ∈ strings, CodePoint.char '\n' ∉ s.toList) → Text.LaidOut text) ∧
          (Text.LaidOut text → ∀ t, Text.literal t ∈ strings → Text.LaidOut (Text.literal t)) ∧
          ∀ t, n.IsStringLiteral t →
            (CodePoint.char '\n' ∈ text.toList ↔ CodePoint.char '\n' ∈ t.toList) := by
  intro sheet strings
  refine ⟨fun hp => ?_, fun l hl width => ?_⟩
  · obtain ⟨l, hl, -⟩ := (n.printed_endsIn vocabulary (.of_eq_true hp)).exists_ok
    exact ⟨l, hl⟩
  · intro text
    have hcarries := (carried n hflat).of_ok hl
    refine ⟨hcarries.occurs width, fun h => hcarries.laidOut h width, fun h => ?_, fun h t ht => ?_,
      fun t ht => ?_⟩
    · exact hcarries.laidOut (fun s hs => Text.laidOut_of_not_mem (h s hs)) width
    · exact h.of_occurs (hcarries.occurs width _ ht)
    · have hsheet : sheet = Sheet.ofText (Text.literal t) := ht.sheet_eq vocabulary
      rw [hsheet] at hl
      cases hl
      exact Text.lineFeed_mem_literal

/-- A body with a wrapped signature in it, between strings with quotes and with what a line of a
body ends with. -/
theorem laidOut_as_strings_are_body :
    let literal (t : Text) := Node.mk { kind := .literalType, text := some (.str t) }
    let parameter := Node.mk { kind := .parameter, name := some "key",
                               type := some (literal ";\n\t") }
    let method := Node.mk { kind := .methodSignature, name := some "get", parameters := [parameter],
                            type := some (literal "a\x22") }
    let mode := Node.mk { kind := .propertySignature, name := some "mode",
                          type := some (literal "on") }
    let body := Node.mk { kind := .typeLiteral, members := [method, mode] }
    let text := "\x7b\n\t\tget(\n\t\tkey: \x22;\n\t\x22\n\t): \x22a\\\x22\x22,\n\t\t" ++
      "mode: \x22on\x22\n\t\x7d"
    (∀ h ∈ body.heads, h.IsFlat) ∧
      ((body.printed .types).sheet.result.map (Layout.render 10)).toOption = some text ∧
      body.strings .types .whole = ["\x22;\n\t\x22", "\x22a\\\x22\x22", "\x22on\x22"] ∧
      Text.LaidOut text := by
  intro literal parameter method mode body text
  have hflat : ∀ h ∈ body.heads, h.IsFlat := by decide +kernel
  have hrender : ((body.printed .types).sheet.result.map (Layout.render 10)).toOption =
      some text := by decide +kernel
  have hstrings : body.strings .types .whole =
      ["\x22;\n\t\x22", "\x22a\\\x22\x22", "\x22on\x22"] := by decide +kernel
  obtain ⟨hok, hlaidOut⟩ := laidOut_as_strings_are .types hflat
  obtain ⟨l, hl⟩ := hok (by decide +kernel)
  have hsame := hrender
  rw [hl] at hsame
  refine ⟨hflat, hrender, hstrings, Option.some.inj hsame ▸ (hlaidOut l hl 10).2.1 ?_⟩
  rw [hstrings]
  decide +kernel

/-- The line feed of a string literal type is printed as it is, and no tab follows it. -/
theorem stringLiteral_broken :
    let literal := Node.mk { kind := .literalType, text := some (.str "a\nb"),
                             token := some "StringLiteral" }
    (∀ h ∈ literal.heads, h.IsFlat) ∧ literal.IsStringLiteral "a\nb" ∧
      (∀ width, Layout.render width <$> (literal.printed .types).sheet = pure "\x22a\nb\x22") ∧
      ¬Text.LaidOut "\x22a\nb\x22" := by
  intro literal
  have hliteral : literal.IsStringLiteral "a\nb" := ⟨rfl, rfl, by decide⟩
  refine ⟨by decide +kernel, hliteral, fun width => ?_, by decide +kernel⟩
  rw [hliteral.sheet_eq]
  rfl

end Node
end Libdef

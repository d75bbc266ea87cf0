import Libdef.Proofs.Outcome
import Libdef.Sheet.Node

set_option autoImplicit false

namespace Libdef

namespace Text

/-- The value of a string from behind its opening quote, with what follows the closing one. -/
def inQuotes : List CodePoint → Option (List CodePoint × List CodePoint)
  | [] => none
  | .char '\x22' :: rest => some ([], rest)
  | [.char '\\'] => none
  | .char '\\' :: c :: rest => (inQuotes rest).map (Prod.map (c :: ·) id)
  | c :: rest => (inQuotes rest).map (Prod.map (c :: ·) id)

/-- The value of the string in double quotes at the start of a text, with the rest of the text. -/
def unquote (s : Text) : Option (Text × Text) :=
  match s.toList with
  | .char '\x22' :: cs => (inQuotes cs).map (Prod.map Text.ofList Text.ofList)
  | _ => none

theorem inQuotes_escaped (cs tail : List CodePoint) :
    inQuotes (escaped cs ++ .char '\x22' :: tail) = some (cs, tail) := by
  induction cs with
  | nil => rfl
  | cons c cs ih =>
    by_cases h : c = '\\' ∨ c = '\x22'
    · simp [escaped, h, inQuotes, ih]
    · obtain ⟨hb, hq⟩ := not_or.mp h
      simp [escaped, inQuotes, hb, hq, ih]

/-- A literal is read without touching what follows it. -/
theorem unquote_literal (t tail : Text) : unquote (literal t ++ tail) = some (t, tail) := by
  have hlist : (literal t ++ tail).toList =
      .char '\x22' :: (escaped t.toList ++ .char '\x22' :: tail.toList) := by
    simp [literal]
  simp [unquote, hlist, inQuotes_escaped]

theorem inQuotes_append {cs value tail : List CodePoint} (h : inQuotes cs = some (value, tail))
    (more : List CodePoint) : inQuotes (cs ++ more) = some (value, tail ++ more) := by
  induction cs using inQuotes.induct generalizing value with
  | case1 => cases h
  | case2 rest =>
    simp only [inQuotes, Option.some.injEq, Prod.mk.injEq] at h
    obtain ⟨rfl, rfl⟩ := h
    rfl
  | case3 => cases h
  | case4 c rest ih =>
    simp only [inQuotes, Option.map_eq_some_iff, Prod.map, Prod.mk.injEq] at h
    obtain ⟨⟨v, t⟩, hread, rfl, rfl⟩ := h
    simp [inQuotes, ih hread]
  | case5 c rest _ hend hb ih =>
    have hc : c ≠ '\\' := by
      intro hc
      cases rest with
      | nil => exact hend hc rfl
      | cons d rest => exact hb d rest hc rfl
    simp only [inQuotes, Option.map_eq_some_iff, Prod.map, Prod.mk.injEq] at h
    obtain ⟨⟨v, t⟩, hread, rfl, rfl⟩ := h
    simp [inQuotes, hc, ih hread]

theorem unquote_append {s value tail : Text} (h : unquote s = some (value, tail))
    (more : Text) : unquote (s ++ more) = some (value, tail ++ more) := by
  simp only [unquote] at h
  split at h
  · rename_i cs hs
    simp only [Option.map_eq_some_iff, Prod.map, Prod.mk.injEq] at h
    obtain ⟨⟨v, t⟩, hread, rfl, rfl⟩ := h
    simp [unquote, hs, inQuotes_append hread, ← Text.toList_inj]
  · cases h

/-- No shorter start of a literal is a closed string. -/
theorem eq_empty_of_unquote {t start rest : Text} (h : literal t = start ++ rest)
    (hclosed : unquote start ≠ none) : rest = "" := by
  obtain ⟨⟨value, tail⟩, hread⟩ := Option.ne_none_iff_exists'.mp hclosed
  have hwhole := unquote_literal t ""
  rw [Text.append_empty, h, unquote_append hread] at hwhole
  have htail : tail ++ rest = "" := congrArg Prod.snd (Option.some.inj hwhole)
  exact (Text.append_eq_empty_iff.mp htail).2

theorem literal_append_inj {t u rest rest' : Text}
    (h : literal t ++ rest = literal u ++ rest') : t = u ∧ rest = rest' := by
  have hread := congrArg unquote h
  rw [unquote_literal, unquote_literal] at hread
  exact Prod.mk.inj (Option.some.inj hread)

def replaced (c : CodePoint) (new cs : List CodePoint) : List CodePoint :=
  cs.flatMap fun d => if d = c then new else [d]

/-- Escapes can be put in by two passes, for the backslashes and then for the quotes. The other
order would double the backslashes of the quotes. -/
theorem escaped_eq_replaced (cs : List CodePoint) :
    escaped cs = replaced '\x22' ['\\', '\x22'] (replaced '\\' ['\\', '\\'] cs) := by
  induction cs with
  | nil => rfl
  | cons c cs ih =>
    by_cases hb : c = '\\'
    · simp_all [escaped, replaced]
    · by_cases hq : c = '\x22' <;> simp_all [escaped, replaced]

end Text

namespace Node

/-- A literal type of this text that is a string by its token, or by having none. -/
structure IsStringLiteral (n : Node) (t : Text) : Prop where
  kind : n.head.kind = .literalType
  text : n.head.text = some (.str t)
  token : n.head.token ∈ [none, some ("StringLiteral" : Text), some "NoSubstitutionTemplateLiteral"]

theorem IsStringLiteral.sheet_eq {n : Node} {t : Text} (h : n.IsStringLiteral t)
    (vocabulary : Vocabulary) : (n.printed vocabulary).sheet = Sheet.ofText (Text.literal t) := by
  have hkind : (n.parts vocabulary).kind = .literalType := h.kind
  have htext : (n.parts vocabulary).text = some (.str t) := h.text
  have htoken : (n.parts vocabulary).token = n.head.token := rfl
  rw [printed_eq]
  show Sheet.ofShape vocabulary (n.parts vocabulary) = _
  simp only [Sheet.ofShape, hkind, Sheet.literal, htext, htoken]
  have hcases := h.token
  simp only [List.mem_cons, List.not_mem_nil, or_false] at hcases
  rcases hcases with ht | ht | ht <;> simp [ht]

/-- A string literal is printed without a report, as a string from which the reader takes its text
and behind which it leaves everything as it is. It is not closed before its end, and whatever
follows, two of them with different texts never begin alike. -/
theorem stringLiteral_delimits_itself {n : Node} {t : Text} (h : n.IsStringLiteral t)
    (vocabulary : Vocabulary) (width : Int) :
    ∃ text, Layout.render width <$> (n.printed vocabulary).sheet = pure text ∧
      text.toList = .char '\x22' :: Text.replaced '\x22' ['\\', '\x22']
        (Text.replaced '\\' ['\\', '\\'] t.toList) ++ [.char '\x22'] ∧
      (∀ rest, Text.unquote (text ++ rest) = some (t, rest)) ∧
      (∀ start rest, text = start ++ rest → Text.unquote start ≠ none → rest = "") ∧
      ∀ (m : Node) (u : Text), m.IsStringLiteral u →
        ∃ other, Layout.render width <$> (m.printed vocabulary).sheet = pure other ∧
          ∀ rest rest', text ++ rest = other ++ rest' → t = u ∧ rest = rest' := by
  have hprinted {m : Node} {u : Text} (hm : m.IsStringLiteral u) :
      Layout.render width <$> (m.printed vocabulary).sheet = pure (Text.literal u) := by
    rw [hm.sheet_eq, Sheet.ofText, map_pure]
    rfl
  refine ⟨Text.literal t, hprinted h, ?_, Text.unquote_literal t,
    fun start rest => Text.eq_empty_of_unquote,
    fun m u hm => ⟨Text.literal u, hprinted hm, fun _ _ => Text.literal_append_inj⟩⟩
  simp [Text.literal, Text.escaped_eq_replaced]

/-- A text with a quote behind two backslashes and a backslash at its end, and a text that would
close the quotes, each followed by what could be read as more of it. -/
theorem stringLiteral_delimits_itself_backslashes :
    let literal (t : Text) :=
      Node.mk { kind := .literalType, text := some (.str t), token := some "StringLiteral" }
    let first : Text := "a\\\\\x22\\"
    let second : Text := "a\x22"
    (literal first).IsStringLiteral first ∧ (literal second).IsStringLiteral second ∧
      Layout.render 80 <$> ((literal first).printed .types).sheet =
        pure "\x22a\\\\\\\\\\\x22\\\\\x22" ∧
      Text.unquote "\x22a\\\\\\\\\\\x22\\\\\x22\x22;" = some (first, (("\x22;" : String) : Text)) ∧
      Layout.render 80 <$> ((literal second).printed .types).sheet = pure "\x22a\\\x22\x22" ∧
      Text.unquote "\x22a\\\x22\x22 | b" = some (second, ((" | b" : String) : Text)) := by
  intro literal first second
  have hfirst : (literal first).IsStringLiteral first := ⟨rfl, rfl, by decide⟩
  have hsecond : (literal second).IsStringLiteral second := ⟨rfl, rfl, by decide⟩
  obtain ⟨text, htext, hlist, hread, -, -⟩ := stringLiteral_delimits_itself hfirst .types 80
  obtain ⟨other, hother, hlist', hread', -, -⟩ := stringLiteral_delimits_itself hsecond .types 80
  have htext' : text = "\x22a\\\\\\\\\\\x22\\\\\x22" :=
    Text.toList_inj.mp (hlist.trans (by decide))
  have hother' : other = "\x22a\\\x22\x22" :=
    Text.toList_inj.mp (hlist'.trans (by decide))
  subst htext' hother'
  exact ⟨hfirst, hsecond, htext, hread "\x22;", hother, hread' " | b"⟩

end Node
end Libdef

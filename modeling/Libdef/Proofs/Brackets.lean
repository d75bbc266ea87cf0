import Libdef.Json.Label

set_option autoImplicit false

namespace Libdef

namespace Text

def closer? : CodePoint → Option CodePoint
  | .char '(' => some ')'
  | .char '[' => some ']'
  | .char '\x7b' => some '\x7d'
  | _ => none

def isCloser (c : CodePoint) : Bool := c == ')' || c == ']' || c == '\x7d'

def isBracket (c : CodePoint) : Bool := (closer? c).isSome || isCloser c

inductive Nested : List CodePoint → Prop where
  | nil : Nested []
  | plain {c : CodePoint} {cs : List CodePoint} (hc : isBracket c = false) (h : Nested cs) :
    Nested (c :: cs)
  | pair {o c : CodePoint} {inner rest : List CodePoint} (ho : closer? o = some c)
      (hi : Nested inner) (hr : Nested rest) : Nested (o :: (inner ++ c :: rest))

def Balanced (s : Text) : Prop := Nested s.toList

/-- The brackets that are due to be closed after one more character, the innermost first. -/
def closeChar (due : List CodePoint) (c : CodePoint) : Option (List CodePoint) :=
  match closer? c with
  | some d => some (d :: due)
  | none =>
    if isCloser c then
      match due with
      | [] => none
      | d :: more => if c = d then some more else none
    else some due

def close (due cs : List CodePoint) : Option (List CodePoint) := cs.foldlM closeChar due

theorem close_cons (due : List CodePoint) (c : CodePoint) (cs : List CodePoint) :
    close due (c :: cs) = (closeChar due c).bind fun more => close more cs := rfl

theorem close_append (due xs ys : List CodePoint) :
    close due (xs ++ ys) = (close due xs).bind fun more => close more ys :=
  List.foldlM_append

theorem closeChar_plain {c : CodePoint} (hc : isBracket c = false) (due : List CodePoint) :
    closeChar due c = some due := by
  simp only [isBracket, Bool.or_eq_false_iff, Option.isSome_eq_false_iff, Option.isNone_iff_eq_none]
    at hc
  simp [closeChar, hc]

theorem closeChar_opener {o c : CodePoint} (ho : closer? o = some c) (due : List CodePoint) :
    closeChar due o = some (c :: due) := by
  simp [closeChar, ho]

theorem closeChar_closer {o c : CodePoint} (ho : closer? o = some c) (due : List CodePoint) :
    closeChar (c :: due) c = some due := by
  have hc : closer? c = none ∧ isCloser c = true := by
    simp only [closer?] at ho
    split at ho <;> cases ho <;> decide
  simp [closeChar, hc]

theorem Nested.close {cs : List CodePoint} (h : Nested cs) (due : List CodePoint) :
    Text.close due cs = some due := by
  induction h generalizing due with
  | nil => rfl
  | plain hc _ ih => rw [close_cons, closeChar_plain hc, Option.bind_some, ih]
  | pair ho _ _ ihi ihr =>
    rw [close_cons, closeChar_opener ho, Option.bind_some, close_append, ihi, Option.bind_some,
      close_cons, closeChar_closer ho, Option.bind_some, ihr]

/-- The text closes what is due, and is nested between these brackets and after the last. -/
def Closes : List CodePoint → List CodePoint → Prop
  | [], cs => Nested cs
  | d :: due, cs => ∃ inner rest, cs = inner ++ d :: rest ∧ Nested inner ∧ Closes due rest

theorem Closes.plain {due cs : List CodePoint} {c : CodePoint} (hc : isBracket c = false)
    (h : Closes due cs) : Closes due (c :: cs) := by
  cases due with
  | nil => exact Nested.plain hc h
  | cons d due =>
    obtain ⟨inner, rest, rfl, hi, hr⟩ := h
    exact ⟨c :: inner, rest, rfl, .plain hc hi, hr⟩

theorem Closes.opener {due cs : List CodePoint} {o c : CodePoint} (ho : closer? o = some c)
    (h : Closes (c :: due) cs) : Closes due (o :: cs) := by
  obtain ⟨inner, rest, rfl, hi, hr⟩ := h
  cases due with
  | nil => exact Nested.pair ho hi hr
  | cons d due =>
    obtain ⟨inner', rest', rfl, hi', hr'⟩ := hr
    exact ⟨o :: (inner ++ c :: inner'), rest', by simp, .pair ho hi hi', hr'⟩

theorem closes_of_close {due cs : List CodePoint} (h : close due cs = some []) : Closes due cs := by
  induction cs generalizing due with
  | nil =>
    obtain rfl := Option.some.inj h
    exact .nil
  | cons c cs ih =>
    obtain ⟨more, hc, hmore⟩ := Option.bind_eq_some_iff.mp h
    simp only [closeChar] at hc
    split at hc
    · rename_i d ho
      cases hc
      exact (ih hmore).opener ho
    · rename_i ho
      split at hc
      · split at hc
        · cases hc
        · split at hc <;> cases hc
          rename_i heq
          exact ⟨[], cs, by simp [heq], .nil, ih hmore⟩
      · rename_i hcloser
        cases hc
        exact (ih hmore).plain (by simp [isBracket, ho, hcloser])

theorem nested_iff {cs : List CodePoint} : Nested cs ↔ close [] cs = some [] :=
  ⟨fun h => h.close [], closes_of_close⟩

instance (s : Text) : Decidable (Balanced s) :=
  decidable_of_iff (close [] s.toList = some []) nested_iff.symm

/-! Texts that are written out, alone and as the two ends of something. -/

theorem balanced_ofList {cs : List CodePoint} (h : close [] cs = some []) :
    Balanced (Text.ofList cs) := by
  rw [Balanced, Text.toList_ofList]
  exact nested_iff.mpr h

theorem balanced_ends {xs ys : List CodePoint} (h : close [] (xs ++ ys) = some []) :
    Balanced (Text.ofList xs ++ Text.ofList ys) := by
  rw [Balanced, Text.toList_append, Text.toList_ofList, Text.toList_ofList]
  exact nested_iff.mpr h

theorem Nested.append {xs ys : List CodePoint} (hx : Nested xs) (hy : Nested ys) :
    Nested (xs ++ ys) := by
  rw [nested_iff, close_append, hx.close, Option.bind_some, hy.close]

theorem Nested.insert {xs ys zs : List CodePoint} (h : Nested (xs ++ zs)) (hy : Nested ys) :
    Nested (xs ++ ys ++ zs) := by
  rw [nested_iff, close_append] at h
  obtain ⟨due, hx, hz⟩ := Option.bind_eq_some_iff.mp h
  rw [nested_iff, close_append, close_append, hx, Option.bind_some, hy.close, Option.bind_some, hz]

theorem Nested.of_append {xs ys : List CodePoint} (hx : Nested xs) (h : Nested (xs ++ ys)) :
    Nested ys := by
  rw [nested_iff, close_append, hx.close, Option.bind_some] at h
  exact nested_iff.mpr h

theorem Balanced.append {s t : Text} (hs : Balanced s) (ht : Balanced t) : Balanced (s ++ t) := by
  rw [Balanced, Text.toList_append]
  exact Nested.append hs ht

theorem Balanced.enclosed {before s after : Text} (hs : Balanced s)
    (h : Balanced (before ++ after)) : Balanced (before ++ s ++ after) := by
  simp only [Balanced, Text.toList_append] at h ⊢
  exact h.insert hs

theorem balanced_join {sep : Text} (hsep : Balanced sep) : ∀ {texts : List Text},
    (∀ s ∈ texts, Balanced s) → Balanced (join sep texts)
  | [], _ => .nil
  | [s], h => h s (by simp)
  | s :: t :: more, h => by
    have hrest := balanced_join hsep fun u hu => h u (List.mem_cons_of_mem s hu)
    exact ((h s (by simp)).append hsep).append hrest

def brackets (cs : List CodePoint) : List CodePoint := cs.filter isBracket

theorem brackets_append (xs ys : List CodePoint) :
    brackets (xs ++ ys) = brackets xs ++ brackets ys :=
  List.filter_append xs ys

theorem close_brackets (due cs : List CodePoint) : close due (brackets cs) = close due cs := by
  induction cs generalizing due with
  | nil => rfl
  | cons c cs ih =>
    cases hc : isBracket c with
    | true =>
      simp only [brackets, List.filter_cons, hc, if_true, close_cons] at ih ⊢
      simp only [ih]
    | false =>
      rw [close_cons, closeChar_plain hc, Option.bind_some, ← ih]
      simp [brackets, hc]

theorem nested_congr {xs ys : List CodePoint} (h : brackets xs = brackets ys) :
    Nested xs ↔ Nested ys := by
  rw [nested_iff, nested_iff, ← close_brackets, h, close_brackets]

theorem brackets_escaped (cs : List CodePoint) : brackets (escaped cs) = brackets cs := by
  induction cs with
  | nil => rfl
  | cons c cs ih =>
    simp only [brackets] at ih ⊢
    by_cases h : c = '\\' ∨ c = '\x22'
    · have hslash : isBracket '\\' = false := by decide
      simp [escaped, h, hslash, List.filter_cons, ih]
    · simp [escaped, h, List.filter_cons, ih]

theorem balanced_literal {s : Text} (h : Balanced s) : Balanced (literal s) := by
  have hquote : isBracket '\x22' = false := by decide
  have hbrackets : brackets (.char '\x22' :: escaped s.toList ++ [.char '\x22']) =
      brackets s.toList := by
    rw [← brackets_escaped s.toList]
    simp [brackets, hquote]
  rw [Balanced, literal, Text.toList_ofList]
  exact (nested_congr hbrackets).mpr h

theorem brackets_hexDigits (width n : Nat) : brackets (hexDigits width n) = [] := by
  have hdigit : ∀ k : Fin 16, isBracket (.char (Nat.digitChar k)) = false := by decide
  induction width generalizing n with
  | zero => rfl
  | succ width ih =>
    have hlast := hdigit ⟨n % 16, Nat.mod_lt n (by decide)⟩
    rw [hexDigits, brackets_append, ih]
    simp [brackets, hlast]

theorem brackets_numbered (c : CodePoint) : brackets (numbered c) = [] := by
  have hnumber (mark : CodePoint) (hm : isBracket mark = false) (width : Nat) :
      brackets (.char '\\' :: mark :: hexDigits width c.value) = [] := by
    have hslash : isBracket '\\' = false := by decide
    have hdigits := brackets_hexDigits width c.value
    simp only [brackets] at hdigits
    simp [brackets, hslash, hm, hdigits]
  simp only [numbered]
  split
  · exact hnumber 'x' (by decide) 2
  split
  · exact hnumber 'u' (by decide) 4
  · exact hnumber 'U' (by decide) 8

theorem of_isBracket {p : CodePoint → Bool} 
    (hall : ['(', '[', '\x7b', ')', ']', '\x7d'].all (fun c => p (.char c)) = true)
    {c : CodePoint} (h : isBracket c = true) : p c = true := by
  simp only [isBracket, isCloser, closer?] at h
  split at h <;> simp_all [or_assoc]
  rcases h with rfl | rfl | rfl <;> simp [hall]

theorem isPrintable_of_isBracket {c : CodePoint} (h : isBracket c = true) : isPrintable c = true :=
  of_isBracket (by decide +kernel) h

theorem brackets_shownChar (quote c : CodePoint) : brackets (shownChar quote c) = brackets [c] := by
  have hslash : isBracket '\\' = false := by decide
  simp only [shownChar]
  split
  · simp [brackets, List.filter_cons, hslash]
  split
  · rename_i hc
    rw [hc]
    decide
  split
  · rename_i hc
    rw [hc]
    decide
  split
  · rename_i hc
    rw [hc]
    decide
  split
  · rfl
  · rename_i hprint
    have hc : isBracket c = false := by
      cases hb : isBracket c with
      | false => rfl
      | true => exact (hprint (isPrintable_of_isBracket hb)).elim
    rw [brackets_numbered]
    simp [brackets, hc]

theorem balanced_shown {s : Text} (h : Balanced s) : Balanced (shown s) := by
  have hquote : isBracket (quoteFor s.toList) = false := by
    simp only [quoteFor]
    split <;> decide
  have hchars (cs : List CodePoint) :
      brackets (cs.flatMap (shownChar (quoteFor s.toList))) = brackets cs := by
    induction cs with
    | nil => rfl
    | cons c cs ih =>
      rw [List.flatMap_cons, brackets_append, ih, brackets_shownChar, ← brackets_append]
      rfl
  rw [Balanced, shown, Text.toList_ofList]
  refine (nested_congr ?_).mpr h
  rw [← hchars s.toList]
  simp [brackets, hquote]

end Text

/-! Numbers in decimal notation have no brackets. -/

open Text

def Text.Plain (cs : List Char) : Prop := ∀ c ∈ cs, isBracket c = false

namespace Text.Plain

variable {xs ys : List Char}

theorem nested (h : Plain xs) : Nested (xs.map .char) := by
  have hbrackets : brackets (xs.map .char) = brackets [] := by simpa [brackets, Plain] using h
  exact (nested_congr hbrackets).mpr .nil

theorem nil : Plain [] := by simp [Plain]

theorem cons {c : Char} (hc : isBracket c = false) (h : Plain xs) : Plain (c :: xs) :=
  List.forall_mem_cons.mpr ⟨hc, h⟩

theorem append (hx : Plain xs) (hy : Plain ys) : Plain (xs ++ ys) :=
  List.forall_mem_append.mpr ⟨hx, hy⟩

theorem subset (hx : Plain xs) (h : ys ⊆ xs) : Plain ys := fun c hc => hx c (h hc)

theorem zeros (n : Nat) : Plain (List.replicate n '0') := by
  intro c hc
  rw [(List.mem_replicate.mp hc).2]
  decide

theorem toDigits (n : Nat) : Plain (Nat.toDigits 10 n) := by
  intro c hc
  have hdigit : c.isDigit = true := Nat.isDigit_of_mem_toDigits (by decide) (by decide) hc
  cases hb : isBracket c with
  | false => rfl
  | true =>
    have hno : (!c.isDigit) = true :=
      of_isBracket (p := fun c => !c.char?.any Char.isDigit) (by decide) hb
    rw [hdigit] at hno
    cases hno

end Text.Plain

theorem Decimal.plain_ofGrid (c : Nat) (k : Int) : Plain (Digits.ofGrid c k).digits := by
  refine (Plain.toDigits c).subset fun x hx => ?_
  simp only [Digits.ofGrid, trimZeros, List.mem_reverse] at hx
  simpa using List.dropWhile_subset _ hx

theorem Decimal.plain_shortest (b : Binary) : Plain b.shortest.digits := by
  simp only [Binary.shortest]
  cases hfound : (List.range 17).findSome? fun (n : Nat) =>
      (b.onGrid (b.magnitude - (n + 1))).map (Digits.ofGrid · (b.magnitude - (n + 1))) with
  | none => exact plain_ofGrid 0 0
  | some d =>
    obtain ⟨n, -, hn⟩ := List.exists_of_findSome?_eq_some hfound
    obtain ⟨c, -, rfl⟩ := Option.map_eq_some_iff.mp hn
    exact plain_ofGrid c _

namespace Json

theorem plain_exponentText (format : RealFormat) (e : Int) : Plain (exponentText format e) := by
  refine .cons ?_ ((Plain.zeros _).append (.toDigits _))
  split <;> decide

theorem plain_digitsText (format : RealFormat) {d : Decimal.Digits} (hd : Plain d.digits) :
    Plain (digitsText format d) := by
  simp only [digitsText]
  split
  · split
    · exact .cons (by decide) (.cons (by decide) ((Plain.zeros _).append hd))
    · refine .append (.append (hd.subset (List.take_subset _ _)) (.zeros _)) (.cons (by decide) ?_)
      split
      · exact .cons (by decide) .nil
      · exact hd.subset (List.drop_subset _ _)
  · refine .append ?_ (.cons (by decide) (plain_exponentText _ _))
    split
    · rename_i c c' more heq
      rw [heq] at hd
      simp only [Plain, List.forall_mem_cons] at hd
      exact .cons hd.1 (.cons (by decide) (.cons hd.2.1 hd.2.2))
    · exact hd

theorem balanced_realLabel (x : Float) : Text.Balanced (realLabel x) := by
  have hsign (p : Prop) [Decidable p] : Text.Balanced (if p then ("-" : Text) else "") := by
    split <;> decide
  simp only [realLabel]
  split
  · decide
  split
  · exact (hsign _).append (by decide)
  split
  · exact (hsign _).append (by decide)
  · refine (hsign _).append ?_
    exact (plain_digitsText _ (Decimal.plain_shortest _)).nested

theorem balanced_toString (n : Int) : Text.Balanced (toString n) := by
  have hnat (m : Nat) : Text.Balanced m.repr := by
    rw [Text.Balanced, Text.toList_ofString, Nat.repr, String.toList_ofList]
    exact (Plain.toDigits m).nested
  cases n with
  | ofNat m => exact hnat m
  | negSucc m =>
    have htext : (toString (Int.negSucc m) : Text) = "-" ++ ((m + 1).repr : Text) :=
      Text.ofString_append "-" (m + 1).repr
    rw [htext]
    exact Text.Balanced.append (by decide) (hnat (m + 1))

mutual

/-- The texts in a value, the keys of objects among them. -/
def texts : Json → List Text
  | .str s => [s]
  | .arr items => textsOfItems items
  | .obj fields => textsOfFields fields
  | _ => []

def textsOfItems : List Json → List Text
  | [] => []
  | j :: rest => texts j ++ textsOfItems rest

def textsOfFields : List (Text × Json) → List Text
  | [] => []
  | (key, j) :: rest => key :: (texts j ++ textsOfFields rest)

end

mutual

theorem balanced_inner : ∀ j : Json, (∀ s ∈ j.texts, Text.Balanced s) → Text.Balanced j.inner
  | .null, _ => by decide
  | .bool b, _ => by cases b <;> decide
  | .int n, _ => balanced_toString n
  | .real x, _ => balanced_realLabel x
  | .str s, h => balanced_shown (h s (by simp [texts]))
  | .arr items, h =>
    (balanced_join (by decide) (balanced_innerItems items h)).enclosed (by decide)
  | .obj fields, h =>
    (balanced_join (by decide) (balanced_innerFields fields h)).enclosed (by decide)

theorem balanced_innerItems : ∀ items : List Json, (∀ s ∈ textsOfItems items, Text.Balanced s) →
    ∀ s ∈ innerItems items, Text.Balanced s
  | [], _ => by simp [innerItems]
  | j :: rest, h => by
    rw [textsOfItems, List.forall_mem_append] at h
    rw [innerItems, List.forall_mem_cons]
    exact ⟨balanced_inner j h.1, balanced_innerItems rest h.2⟩

theorem balanced_innerFields : ∀ fields : List (Text × Json),
    (∀ s ∈ textsOfFields fields, Text.Balanced s) → ∀ s ∈ innerFields fields, Text.Balanced s
  | [], _ => by simp [innerFields]
  | (key, j) :: rest, h => by
    rw [textsOfFields, List.forall_mem_cons, List.forall_mem_append] at h
    rw [innerFields, List.forall_mem_cons]
    have hkey := (balanced_shown h.1).append (t := ": ") (by decide)
    exact ⟨hkey.append (balanced_inner j h.2.1), balanced_innerFields rest h.2.2⟩

end

theorem balanced_label {j : Json} (h : ∀ s ∈ j.texts, Text.Balanced s) : Text.Balanced j.label := by
  cases j with
  | str s => exact h s (by simp [texts])
  | _ => exact balanced_inner _ h

end Json
end Libdef

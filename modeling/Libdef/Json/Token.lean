import Libdef.Json.Basic
import Libdef.Text.Numeral

/-!
The tokens of a JSON text. The text is read once, left to right, one character at a time; a spot
that no token can start or continue gives the token `junk`, so that the reader of the tokens meets
faults in the order of the text.
-/

set_option autoImplicit false

namespace Libdef.Json

inductive Token where
  | mark (c : Char)
  | text (s : Text)
  | scalar (j : Json)
  | oversized (digits : Nat)
  | junk
  deriving Repr, Inhabited

inductive Mode where
  | between
  /-- Inside a text, whose code units so far are held last first. -/
  | text (units : List Nat)
  | escape (units : List Nat)
  /-- In a numbered escape with this many digits still to come. -/
  | numbered (units : List Nat) (missing value : Nat)
  | word (chars : List Char)
  deriving Repr

def isSpace (c : Char) : Bool :=
  c == ' ' || c == '\t' || c == '\n' || c == '\r'

def isMark (c : Char) : Bool :=
  c == '[' || c == ']' || c == '\x7b' || c == '\x7d' || c == ':' || c == ','

def isWordChar (c : Char) : Bool :=
  c.isAlphanum || c == '-' || c == '+' || c == '.'

/-- The text of code units given last first; a high and a low surrogate that follow each other are
one character. -/
def ofUnits : List Nat → List CodePoint → List CodePoint
  | [], chars => chars
  | low :: high :: rest, chars =>
    if 0xdc00 ≤ low && low ≤ 0xdfff && 0xd800 ≤ high && high ≤ 0xdbff then
      ofUnits rest (.ofNat (0x10000 + (high - 0xd800) * 0x400 + (low - 0xdc00)) :: chars)
    else ofUnits (high :: rest) (.ofNat low :: chars)
  | [unit], chars => .ofNat unit :: chars

def escapeUnit? (c : Char) : Option Nat :=
  if c == '\x22' || c == '\\' || c == '/' then some c.toNat
  else if c == 'b' then some 8
  else if c == 'f' then some 12
  else if c == 'n' then some 10
  else if c == 'r' then some 13
  else if c == 't' then some 9
  else none

def hexValue? (c : Char) : Option Nat :=
  if '0' ≤ c && c ≤ '9' then some (c.toNat - 48)
  else if 'a' ≤ c && c ≤ 'f' then some (c.toNat - 87)
  else if 'A' ≤ c && c ≤ 'F' then some (c.toNat - 55)
  else none

def digitsValue (cs : List Char) : Nat :=
  cs.foldl (fun n c => 10 * n + (c.toNat - 48)) 0

/-- The floating point number `digits * 10 ^ exponent`, infinite or zero where that is out of
range. -/
def realOf (negative : Bool) (digits : List Char) (exponent : Int) : Float :=
  let n := digitsValue digits
  let top := exponent + digits.length
  let x : Float :=
    if n = 0 ∨ top < -400 then 0
    else if 400 < exponent + (Nat.toDigits 10 n).length then 1.0 / 0.0
    else Float.ofScientific n (exponent < 0) exponent.natAbs
  if negative then -x else x

def exponent? : List Char → Option (Option Int)
  | [] => some none
  | mark :: rest =>
    if mark == 'e' || mark == 'E' then
      let (negative, digits) := match rest with
        | '-' :: ds => (true, ds)
        | '+' :: ds => (false, ds)
        | ds => (false, ds)
      if !digits.isEmpty && digits.all Char.isDigit then
        let n : Int := digitsValue digits
        some (some (if negative then -n else n))
      else none
    else none

def fraction? : List Char → Option (List Char × List Char)
  | '.' :: rest =>
    let digits := rest.takeWhile Char.isDigit
    if digits.isEmpty then none else some (digits, rest.dropWhile Char.isDigit)
  | rest => some ([], rest)

def number? (cs : List Char) : Option Token := do
  let (negative, unsigned) := match cs with
    | '-' :: rest => (true, rest)
    | rest => (false, rest)
  let whole := unsigned.takeWhile Char.isDigit
  if whole.isEmpty || (whole.head? == some '0' && 1 < whole.length) then none
  else do
    let (fraction, rest) ← fraction? (unsigned.dropWhile Char.isDigit)
    let exponent ← exponent? rest
    if fraction.isEmpty && exponent.isNone then
      if Text.maxDigits < whole.length then return .oversized whole.length
      let n : Int := digitsValue whole
      return .scalar (.int (if negative then -n else n))
    else
      return .scalar (.real (realOf negative (whole ++ fraction)
        (exponent.getD 0 - fraction.length)))

def wordToken (cs : List Char) : Token :=
  let s := String.ofList cs
  if s == "null" then .scalar .null
  else if s == "true" then .scalar (.bool true)
  else if s == "false" then .scalar (.bool false)
  else if s == "NaN" then .scalar (.real (0.0 / 0.0))
  else if s == "Infinity" then .scalar (.real (1.0 / 0.0))
  else if s == "-Infinity" then .scalar (.real (-1.0 / 0.0))
  else (number? cs).getD .junk

def start (c : Char) : List Token × Mode :=
  if isSpace c then ([], .between)
  else if isMark c then ([.mark c], .between)
  else if c == '\x22' then ([], .text [])
  else if isWordChar c then ([], .word [c])
  else ([.junk], .between)

/-- The tokens of the rest of a text, put before those already read, last first. -/
def scan : Mode → List Token → List Char → List Token
  | .between, done, [] => done
  | .between, done, c :: rest => scan (start c).2 ((start c).1 ++ done) rest
  | .text _, done, [] => .junk :: done
  | .text units, done, c :: rest =>
    if c == '\x22' then scan .between (.text (Text.ofList (ofUnits units [])) :: done) rest
    else if c == '\\' then scan (.escape units) done rest
    else if c.toNat < 0x20 then .junk :: done
    else scan (.text (c.toNat :: units)) done rest
  | .escape _, done, [] => .junk :: done
  | .escape units, done, c :: rest =>
    if c == 'u' then scan (.numbered units 4 0) done rest
    else
      match escapeUnit? c with
      | some unit => scan (.text (unit :: units)) done rest
      | none => .junk :: done
  | .numbered _ _ _, done, [] => .junk :: done
  | .numbered units missing value, done, c :: rest =>
    match hexValue? c with
    | none => .junk :: done
    | some d =>
      if missing ≤ 1 then scan (.text ((16 * value + d) :: units)) done rest
      else scan (.numbered units (missing - 1) (16 * value + d)) done rest
  | .word chars, done, [] => wordToken chars.reverse :: done
  | .word chars, done, c :: rest =>
    if isWordChar c then scan (.word (c :: chars)) done rest
    else scan (start c).2 ((start c).1 ++ wordToken chars.reverse :: done) rest

def tokens (text : List Char) : List Token :=
  (scan .between [] text).reverse

end Libdef.Json

import Libdef.Decimal.Shortest
import Libdef.Json.Basic
import Libdef.Text.Quoted
import Libdef.Text.Split

set_option autoImplicit false

namespace Libdef.Json

structure RealFormat where
  /-- The decimal point of positional notation lies above `leastPoint` and at most at
  `greatestPoint`. -/
  leastPoint : Int
  greatestPoint : Int
  exponentDigits : Nat

def realFormat : RealFormat := ⟨-4, 16, 2⟩

def zeroPadded (width : Nat) (cs : List Char) : List Char :=
  List.replicate (width - cs.length) '0' ++ cs

def exponentText (format : RealFormat) (e : Int) : List Char :=
  (if e < 0 then '-' else '+') :: zeroPadded format.exponentDigits (Nat.toDigits 10 e.natAbs)

def digitsText (format : RealFormat) (d : Decimal.Digits) : List Char :=
  if format.leastPoint < d.point ∧ d.point ≤ format.greatestPoint then
    if d.point ≤ 0 then
      '0' :: '.' :: List.replicate (-d.point).toNat '0' ++ d.digits
    else
      let n := d.point.toNat
      let whole := d.digits.take n ++ List.replicate (n - d.digits.length) '0'
      let rest := d.digits.drop n
      whole ++ '.' :: (if rest.isEmpty then ['0'] else rest)
  else
    let mantissa := match d.digits with
      | c :: c' :: more => c :: '.' :: c' :: more
      | cs => cs
    mantissa ++ 'e' :: exponentText format (d.point - 1)

def realLabel (x : Float) : Text :=
  if x.isNaN then "nan"
  else
    let bits := x.toBits
    let sign : Text := if bits.toNat / Nat.pow 2 63 = 1 then "-" else ""
    if x.isInf then sign ++ "inf"
    else if x == 0 then sign ++ "0.0"
    else sign ++ Text.ofChars (digitsText realFormat (Decimal.Binary.ofBits bits).shortest)

mutual

/-- The value as it stands inside a list or an object. -/
def inner : Json → Text
  | .null => "None"
  | .bool b => if b then "True" else "False"
  | .int n => toString n
  | .real x => realLabel x
  | .str s => Text.shown s
  | .arr items => "[" ++ Text.join ", " (innerItems items) ++ "]"
  | .obj fields => "\x7b" ++ Text.join ", " (innerFields fields) ++ "\x7d"

def innerItems : List Json → List Text
  | [] => []
  | j :: rest => inner j :: innerItems rest

def innerFields : List (Text × Json) → List Text
  | [] => []
  | (key, j) :: rest => (Text.shown key ++ ": " ++ inner j) :: innerFields rest

end

def label : Json → Text
  | .str s => s
  | j => inner j

end Libdef.Json

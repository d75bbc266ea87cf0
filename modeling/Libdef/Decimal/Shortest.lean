/-!
The shortest decimal that reads back as a given binary floating point number. A finite number is
`m * 2 ^ q`; the reals that round to it form an interval, whose ends belong to it when `m` is even.
For each number of digits the two neighbours of the value on that decimal grid are tried, and the
first grid with a neighbour inside the interval gives the digits.
-/

set_option autoImplicit false

namespace Libdef.Decimal

/-- A positive number `significand * 2 ^ exponent`, with the interval of reals that round to it
measured in quarters of a unit of the significand. -/
structure Binary where
  significand : Nat
  exponent : Int
  below : Nat
  deriving Repr, DecidableEq

def fraction (bits : UInt64) : Nat :=
  bits.toNat % Nat.pow 2 52

def biasedExponent (bits : UInt64) : Nat :=
  bits.toNat / Nat.pow 2 52 % Nat.pow 2 11

/-- The gap below a power of two is half the gap above it. -/
def Binary.ofBits (bits : UInt64) : Binary :=
  let f := fraction bits
  let e := biasedExponent bits
  if e = 0 then ⟨f, -1074, 2⟩
  else ⟨f + Nat.pow 2 52, (e : Int) - 1075, if f = 0 ∧ 1 < e then 1 else 2⟩

/-- `n * 2 ^ (exponent - 2) / 10 ^ k` as a fraction. -/
def Binary.scaled (b : Binary) (n : Nat) (k : Int) : Nat × Nat :=
  let e := b.exponent - 2
  (n * Nat.pow 2 e.toNat * Nat.pow 10 (-k).toNat, Nat.pow 2 (-e).toNat * Nat.pow 10 k.toNat)

def Binary.admits (b : Binary) (c : Nat) (k : Int) : Bool :=
  let (low, den) := b.scaled (4 * b.significand - b.below) k
  let (high, _) := b.scaled (4 * b.significand + 2) k
  if b.significand % 2 = 0 then low ≤ c * den && c * den ≤ high
  else low < c * den && c * den < high

/-- The nearer of the two grid neighbours that read back, the even one on a tie. -/
def Binary.onGrid (b : Binary) (k : Int) : Option Nat :=
  let (num, den) := b.scaled (4 * b.significand) k
  let c := num / den
  match b.admits c k, b.admits (c + 1) k with
  | false, false => none
  | true, false => some c
  | false, true => some (c + 1)
  | true, true =>
    let r := num % den
    if 2 * r < den ∨ (2 * r = den ∧ c % 2 = 0) then some c else some (c + 1)

/-- The `p` with `10 ^ (p - 1) ≤ b < 10 ^ p`. -/
def Binary.magnitude (b : Binary) : Int :=
  let (num, den) := b.scaled (4 * b.significand) 0
  if den ≤ num then (Nat.toDigits 10 (num / den)).length
  else
    match (List.range 400).find? fun j => den ≤ num * Nat.pow 10 (j + 1) with
    | some j => -(j : Int)
    | none => -400

/-- A decimal `0.d₁d₂… * 10 ^ point`. -/
structure Digits where
  digits : List Char
  point : Int
  deriving Repr, DecidableEq

def trimZeros (cs : List Char) : List Char :=
  (cs.reverse.dropWhile (· = '0')).reverse

def Digits.ofGrid (c : Nat) (k : Int) : Digits :=
  let all := Nat.toDigits 10 c
  ⟨trimZeros all, k + all.length⟩

def Binary.shortest (b : Binary) : Digits :=
  let p := b.magnitude
  let found := (List.range 17).findSome? fun (n : Nat) =>
    let k := p - (n + 1)
    (b.onGrid k).map (Digits.ofGrid · k)
  found.getD (Digits.ofGrid 0 0)

end Libdef.Decimal

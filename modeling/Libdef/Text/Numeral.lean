import Libdef.Text.Basic

set_option autoImplicit false

namespace Libdef.Text

/-- The code points of the digit zero of each script (Unicode 14); the nine digits after it
follow. -/
def zeros : List Nat := [
  0x30, 0x660, 0x6f0, 0x7c0, 0x966, 0x9e6, 0xa66, 0xae6, 0xb66, 0xbe6, 0xc66, 0xce6, 0xd66, 0xde6,
  0xe50, 0xed0, 0xf20, 0x1040, 0x1090, 0x17e0, 0x1810, 0x1946, 0x19d0, 0x1a80, 0x1a90, 0x1b50,
  0x1bb0, 0x1c40, 0x1c50, 0xa620, 0xa8d0, 0xa900, 0xa9d0, 0xa9f0, 0xaa50, 0xabf0, 0xff10, 0x104a0,
  0x10d30, 0x11066, 0x110f0, 0x11136, 0x111d0, 0x112f0, 0x11450, 0x114d0, 0x11650, 0x116c0,
  0x11730, 0x118e0, 0x11950, 0x11c50, 0x11d50, 0x11da0, 0x16a60, 0x16ac0, 0x16b50, 0x1d7ce,
  0x1d7d8, 0x1d7e2, 0x1d7ec, 0x1d7f6, 0x1e140, 0x1e2f0, 0x1e950, 0x1fbf0]

def digitValue? (c : CodePoint) : Option Nat :=
  (zeros.find? fun z => z ≤ c.value && c.value < z + 10).map (c.value - ·)

def isBlank (c : CodePoint) : Bool :=
  let n := c.value
  (9 ≤ n && n ≤ 13) || n == 0x20 || n == 0x85 || n == 0xa0 || n == 0x1680 ||
    (0x2000 ≤ n && n ≤ 0x200a) || n == 0x2028 || n == 0x2029 || n == 0x202f || n == 0x205f ||
    n == 0x3000

def trimmed (cs : List CodePoint) : List CodePoint :=
  ((cs.dropWhile isBlank).reverse.dropWhile isBlank).reverse

/-- The values of a run of digits, where a single underscore may stand between two digits. -/
def digitRun? : List CodePoint → Option (List Nat)
  | [] => none
  | [c] => (digitValue? c).map ([·])
  | c :: .char '_' :: cs => do
    let d ← digitValue? c
    let ds ← digitRun? cs
    return d :: ds
  | c :: d :: cs => do
    let value ← digitValue? c
    let more ← digitRun? (d :: cs)
    return value :: more

def ofDigits (digits : List Nat) : Nat :=
  digits.foldl (fun n d => 10 * n + d) 0

def maxDigits : Nat := 4300

def magnitude? (cs : List CodePoint) : Option Nat := do
  let digits ← digitRun? cs
  if digits.length ≤ maxDigits then return ofDigits digits else none

def int? (s : Text) : Option Int :=
  match trimmed s.toList with
  | .char '-' :: cs => (magnitude? cs).map fun n => -(n : Int)
  | .char '+' :: cs => (magnitude? cs).map fun n => (n : Int)
  | cs => (magnitude? cs).map fun n => (n : Int)

end Libdef.Text

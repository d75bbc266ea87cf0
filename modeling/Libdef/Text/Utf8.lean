import Libdef.Text.Basic

set_option autoImplicit false

namespace Libdef.Text.Utf8

inductive Reason where
  | invalidStart
  | invalidContinuation
  | unexpectedEnd
  deriving Repr, DecidableEq

def Reason.text : Reason → Text
  | .invalidStart => "invalid start byte"
  | .invalidContinuation => "invalid continuation byte"
  | .unexpectedEnd => "unexpected end of data"

/-- The bytes from position `start` up to `stop` are no character; `first` is the first of them. -/
structure Fault where
  first : UInt8
  start : Nat
  stop : Nat
  reason : Reason
  deriving Repr, DecidableEq

def hexByte (b : UInt8) : Text :=
  ofChars [Nat.digitChar (b.toNat / 16), Nat.digitChar (b.toNat % 16)]

def Fault.message (f : Fault) : Text :=
  let place :=
    if f.stop ≤ f.start + 1 then "byte 0x" ++ hexByte f.first ++ " in position " ++ toString f.start
    else "bytes in position " ++ toString f.start ++ "-" ++ toString (f.stop - 1)
  "'utf-8' codec can't decode " ++ place ++ ": " ++ f.reason.text

structure Partial where
  first : UInt8
  start : Nat
  missing : Nat
  /-- The bounds of the next byte. -/
  low : Nat
  high : Nat
  value : Nat
  deriving Repr, DecidableEq

/-- A first byte of several. The next byte is bounded so that no character has two forms and none
is a surrogate or beyond the last code point. -/
def lead? (b : UInt8) (pos : Nat) : Option Partial :=
  let n := b.toNat
  if 0xc2 ≤ n ∧ n ≤ 0xdf then some ⟨b, pos, 1, 0x80, 0xbf, n - 0xc0⟩
  else if 0xe0 ≤ n ∧ n ≤ 0xef then
    some ⟨b, pos, 2, if n = 0xe0 then 0xa0 else 0x80, if n = 0xed then 0x9f else 0xbf, n - 0xe0⟩
  else if 0xf0 ≤ n ∧ n ≤ 0xf4 then
    some ⟨b, pos, 3, if n = 0xf0 then 0x90 else 0x80, if n = 0xf4 then 0x8f else 0xbf, n - 0xf0⟩
  else none

def decodeFrom (done : List Char) (pos : Nat) : Option Partial → List UInt8 →
    Except Fault (List Char)
  | none, [] => .ok done.reverse
  | some p, [] => .error ⟨p.first, p.start, pos, .unexpectedEnd⟩
  | none, b :: rest =>
    if b.toNat < 0x80 then decodeFrom (Char.ofNat b.toNat :: done) (pos + 1) none rest
    else
      match lead? b pos with
      | none => .error ⟨b, pos, pos + 1, .invalidStart⟩
      | some p => decodeFrom done (pos + 1) (some p) rest
  | some p, b :: rest =>
    let n := b.toNat
    if p.low ≤ n ∧ n ≤ p.high then
      let value := p.value * 64 + (n - 0x80)
      if p.missing ≤ 1 then decodeFrom (Char.ofNat value :: done) (pos + 1) none rest
      else
        decodeFrom done (pos + 1)
          (some { p with missing := p.missing - 1, low := 0x80, high := 0xbf, value }) rest
    else .error ⟨p.first, p.start, pos, .invalidContinuation⟩

def decode (bytes : List UInt8) : Except Fault (List Char) :=
  decodeFrom [] 0 none bytes

/-- A surrogate has no bytes. -/
def encode? (s : Text) : Option (List UInt8) := s.string?.map fun t => t.toUTF8.data.toList

end Libdef.Text.Utf8

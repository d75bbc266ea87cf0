import Libdef.Text.Printable

set_option autoImplicit false

namespace Libdef.Text

def escaped : List CodePoint → List CodePoint
  | [] => []
  | c :: cs =>
    if c = '\\' ∨ c = '\x22' then .char '\\' :: c :: escaped cs else c :: escaped cs

def literal (s : Text) : Text :=
  Text.ofList (.char '\x22' :: escaped s.toList ++ [.char '\x22'])

def hexDigits : Nat → Nat → List CodePoint
  | 0, _ => []
  | width + 1, n => hexDigits width (n / 16) ++ [.char (Nat.digitChar (n % 16))]

/-- Two digits where they suffice, else four, else eight. -/
def numbered (c : CodePoint) : List CodePoint :=
  let n := c.value
  if n < 0x100 then .char '\\' :: .char 'x' :: hexDigits 2 n
  else if n < 0x10000 then .char '\\' :: .char 'u' :: hexDigits 4 n
  else .char '\\' :: .char 'U' :: hexDigits 8 n

def shownChar (quote c : CodePoint) : List CodePoint :=
  if c = quote ∨ c = '\\' then ['\\', c]
  else if c = '\n' then ['\\', 'n']
  else if c = '\r' then ['\\', 'r']
  else if c = '\t' then ['\\', 't']
  else if isPrintable c then [c]
  else numbered c

/-- Single quotes, unless the text has single quotes and no double ones. -/
def quoteFor (cs : List CodePoint) : CodePoint :=
  if CodePoint.char '\x27' ∈ cs ∧ CodePoint.char '\x22' ∉ cs then '\x22' else '\x27'

def shown (s : Text) : Text :=
  let cs := s.toList
  let quote := quoteFor cs
  Text.ofList (quote :: cs.flatMap (shownChar quote) ++ [quote])

end Libdef.Text

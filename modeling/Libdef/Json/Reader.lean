import Libdef.Json.Token

set_option autoImplicit false

namespace Libdef.Json

inductive ReadFault where
  | malformed
  | oversized (digits : Nat)
  deriving Repr, DecidableEq

/-- A list or object still open around the value being read; items are held last first. -/
inductive Frame where
  | list (done : List Json)
  | entry (done : List (Text × Json)) (key : Text)
  deriving Repr

inductive State where
  /-- A value comes next, or the end of a list just opened. -/
  | value (opened : Bool) (stack : List Frame)
  | key (opened : Bool) (done : List (Text × Json)) (stack : List Frame)
  | colon (done : List (Text × Json)) (key : Text) (stack : List Frame)
  | after (j : Json) (stack : List Frame)
  deriving Repr

def put (key : Text) (j : Json) : List (Text × Json) → List (Text × Json)
  | [] => [(key, j)]
  | (k, old) :: rest => if k = key then (k, j) :: rest else (k, old) :: put key j rest

def afterMark (j : Json) (c : Char) : List Frame → Except ReadFault State
  | .list done :: stack =>
    if c == ',' then .ok (.value false (.list (j :: done) :: stack))
    else if c == ']' then .ok (.after (.arr (j :: done).reverse) stack)
    else .error .malformed
  | .entry done key :: stack =>
    if c == ',' then .ok (.key false (put key j done) stack)
    else if c == '\x7d' then .ok (.after (.obj (put key j done)) stack)
    else .error .malformed
  | [] => .error .malformed

def valueMark (opened : Bool) (c : Char) (stack : List Frame) : Except ReadFault State :=
  if c == '[' then .ok (.value true (.list [] :: stack))
  else if c == '\x7b' then .ok (.key true [] stack)
  else
    match stack with
    | .list _ :: outer =>
      if opened && c == ']' then .ok (.after (.arr []) outer) else .error .malformed
    | _ => .error .malformed

def advance : State → Token → Except ReadFault State
  | .value _ stack, .scalar j => .ok (.after j stack)
  | .value _ stack, .text s => .ok (.after (.str s) stack)
  | .value _ _, .oversized digits => .error (.oversized digits)
  | .value opened stack, .mark c => valueMark opened c stack
  | .key _ done stack, .text s => .ok (.colon done s stack)
  | .key opened done stack, .mark c =>
    if opened && c == '\x7d' then .ok (.after (.obj done) stack) else .error .malformed
  | .colon done key stack, .mark c =>
    if c == ':' then .ok (.value false (.entry done key :: stack)) else .error .malformed
  | .after j stack, .mark c => afterMark j c stack
  | _, _ => .error .malformed

def State.finish : State → Except ReadFault Json
  | .after j [] => .ok j
  | _ => .error .malformed

def read (text : List Char) : Except ReadFault Json := do
  let state ← (tokens text).foldlM advance (.value false [])
  state.finish

end Libdef.Json

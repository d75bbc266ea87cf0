import Libdef.Command.Path
import Libdef.ModuleName
import Libdef.Text.Numeral
import Libdef.Text.Quoted

set_option autoImplicit false

namespace Libdef.Command

inductive Flag where
  | help
  | outputFile
  | rootModule
  | width
  | verbose
  | version
  deriving Repr, DecidableEq, Inhabited

namespace Flag

def spellings : List (Text × Flag) := [
  ("-h", .help), ("--help", .help), ("-o", .outputFile), ("--output-file", .outputFile),
  ("--root-module", .rootModule), ("--width", .width), ("--verbose", .verbose), ("-v", .verbose),
  ("--version", .version)]

def ofSpelling? (s : Text) : Option Flag := spellings.lookup s

def takesValue : Flag → Bool
  | .outputFile | .rootModule | .width => true
  | .help | .verbose | .version => false

def title (flag : Flag) : Text :=
  Text.join "/" ((spellings.filter fun entry => entry.2 == flag).map Prod.fst)

end Flag

inductive UsageFault where
  | ambiguous (argument : Text) (candidates : List Text)
  | missingValue (flag : Flag)
  | needlessValue (flag : Flag) (value : Text)
  | notInteger (flag : Flag) (value : Text)
  | missingFiles
  | unrecognized (arguments : List Text)
  deriving Repr, DecidableEq

def UsageFault.message : UsageFault → Text
  | .ambiguous argument candidates =>
    "ambiguous option: " ++ argument ++ " could match " ++ Text.join ", " candidates
  | .missingValue flag => "argument " ++ flag.title ++ ": expected one argument"
  | .needlessValue flag value =>
    "argument " ++ flag.title ++ ": ignored explicit argument " ++ Text.shown value
  | .notInteger flag value =>
    "argument " ++ flag.title ++ ": invalid int value: " ++ Text.shown value
  | .missingFiles => "the following arguments are required: files"
  | .unrecognized arguments => "unrecognized arguments: " ++ Text.join " " arguments

inductive Stop where
  | usage (fault : UsageFault)
  | version
  | help
  deriving Repr, DecidableEq

inductive Argument where
  | plain (s : Text)
  | separator
  | option (flag : Flag) (isShort : Bool) (attached : Option (List CodePoint))
  | unknown (s : Text)
  deriving Repr, DecidableEq

def cut (cs : List CodePoint) : List CodePoint × Option (List CodePoint) :=
  match cs.dropWhile (· ≠ .char '=') with
  | [] => (cs, none)
  | _ :: value => (cs.takeWhile (· ≠ .char '='), some value)

def isShort (spelling : List CodePoint) : Bool :=
  match spelling with
  | _ :: .char '-' :: _ => false
  | _ => true

/-- The options that an argument may mean although it is no spelling of one. -/
def candidates (cs : List CodePoint) : List (Text × Argument) :=
  match cs with
  | .char '-' :: .char '-' :: _ =>
    let (start, value) := cut cs
    let matching := Flag.spellings.filter fun entry => start.isPrefixOf entry.1.toList
    matching.map fun entry => (entry.1, .option entry.2 false value)
  | .char '-' :: c :: value =>
    let matching := Flag.spellings.filter fun entry => entry.1.toList == [.char '-', c]
    matching.map fun entry => (entry.1, .option entry.2 true (some value))
  | _ => []

/-- A minus sign and decimal digits, perhaps with a point before or among them; a line feed may
follow. -/
def isNegativeNumber (cs : List CodePoint) : Bool :=
  let isDigit (c : CodePoint) := (Text.digitValue? c).isSome
  match cs with
  | .char '-' :: rest =>
    let body := if rest.getLast? = some (.char '\n') then rest.dropLast else rest
    match body.dropWhile isDigit with
    | [] => !body.isEmpty
    | .char '.' :: fraction => !fraction.isEmpty && fraction.all isDigit
    | _ => false
  | _ => false

def classify (s : Text) : Except UsageFault Argument :=
  let cs := s.toList
  match cs with
  | .char '-' :: _ :: _ =>
    match Flag.ofSpelling? s with
    | some flag => .ok (.option flag (isShort cs) none)
    | none =>
      let (start, value) := cut cs
      match value, Flag.ofSpelling? (Text.ofList start) with
      | some v, some flag => .ok (.option flag (isShort start) (some v))
      | _, _ =>
        match candidates cs with
        | [one] => .ok one.2
        | [] =>
          if isNegativeNumber cs || cs.contains (.char ' ') then .ok (.plain s)
          else .ok (.unknown s)
        | many => .error (.ambiguous s (many.map Prod.fst))
  | _ => .ok (.plain s)

def classifyAll : List Text → Except UsageFault (List Argument)
  | [] => .ok []
  | s :: rest =>
    if s = "--" then .ok (.separator :: rest.map .plain)
    else do
      let argument ← classify s
      let more ← classifyAll rest
      return argument :: more

/-- The options of one argument: those that are raised, and one that takes a value, with the value
if it is attached. -/
structure Cluster where
  raised : List Flag
  setting : Option (Flag × Option Text) := none
  deriving Repr, DecidableEq

namespace Cluster

def raising (flag : Flag) (c : Cluster) : Cluster := { c with raised := flag :: c.raised }

def bare (flag : Flag) : Cluster :=
  if flag.takesValue then { raised := [], setting := some (flag, none) } else { raised := [flag] }

/-- An option and the text attached to it, which is its value or, after a short option that takes
none, the letters of more short options. -/
def spread (flag : Flag) (isShort : Bool) : List CodePoint → Except UsageFault Cluster
  | [] =>
    if flag.takesValue then .ok { raised := [], setting := some (flag, some "") }
    else .error (.needlessValue flag "")
  | c :: rest =>
    if flag.takesValue then
      .ok { raised := [], setting := some (flag, some (Text.ofList (c :: rest))) }
    else if !isShort then .error (.needlessValue flag (Text.ofList (c :: rest)))
    else
      match Flag.ofSpelling? (Text.ofList [.char '-', c]) with
      | none => .error (.needlessValue flag (Text.ofList (c :: rest)))
      | some next =>
        match rest with
        | [] => .ok ((bare next).raising flag)
        | d :: more => (spread next true (d :: more)).map (raising flag)

def read (flag : Flag) (isShort : Bool) : Option (List CodePoint) → Except UsageFault Cluster
  | none => .ok (bare flag)
  | some text => spread flag isShort text

end Cluster

/-- What the arguments ask for. The output file and the width are missing where their option stands
without a value. -/
structure Request where
  files : List Path
  output : Option Path
  width : Option Int
  rootModule : Text
  verbose : Bool
  deriving Repr, DecidableEq

inductive Phase where
  | before
  | within
  | after
  deriving Repr, DecidableEq

structure Progress where
  phase : Phase := .before
  files : List Text := []
  extras : List Text := []
  output : Option Path := some (Path.ofText "export.flow.js")
  width : Option Int := some 80
  rootModule : Text := ModuleName.root
  verbose : Bool := false
  deriving Repr, DecidableEq

namespace Progress

/-- An option ends the run of file names. -/
def close (p : Progress) : Progress :=
  if p.phase = .within then { p with phase := .after } else p

def extra (p : Progress) (s : Text) : Progress := { p with extras := p.extras ++ [s] }

def plain (p : Progress) (s : Text) : Progress :=
  if p.phase = .after then p.extra s
  else { p with phase := .within, files := p.files ++ [s] }

def separator (p : Progress) : Progress :=
  if p.phase = .after then p.extra "--" else p

def raised (p : Progress) (flag : Flag) : Except Stop Progress :=
  match flag with
  | .verbose => .ok { p with verbose := true }
  | .version => .error .version
  | _ => .error .help

def raisedAll (p : Progress) : List Flag → Except Stop Progress
  | [] => .ok p
  | flag :: rest => do (← p.raised flag).raisedAll rest

/-- The value of an option. The separator is no value: it leaves the option without one, and a root
module without one is printed as an empty list. -/
def given (p : Progress) (flag : Flag) (value : Text) : Except Stop Progress :=
  let isMissing := value == "--"
  match flag with
  | .outputFile => .ok { p with output := if isMissing then none else some (Path.ofText value) }
  | .rootModule => .ok { p with rootModule := if isMissing then "[]" else value }
  | _ =>
    if isMissing then .ok { p with width := none }
    else
      match Text.int? value with
      | some n => .ok { p with width := some n }
      | none => .error (.usage (.notInteger flag value))

def run (p : Progress) : List Argument → Except Stop Progress
  | [] => .ok p
  | .plain s :: rest => (p.plain s).run rest
  | .separator :: rest => p.separator.run rest
  | .unknown s :: rest => (p.close.extra s).run rest
  | .option flag isShort attached :: rest =>
    match Cluster.read flag isShort attached with
    | .error fault => .error (.usage fault)
    | .ok cluster =>
      match cluster.setting, rest with
      | none, rest => do (← p.close.raisedAll cluster.raised).run rest
      | some (flag, some value), rest => do
        let p ← p.close.raisedAll cluster.raised
        (← p.given flag value).run rest
      | some (flag, none), .plain value :: rest => do
        let p ← p.close.raisedAll cluster.raised
        (← p.given flag value).run rest
      | some (flag, none), _ => .error (.usage (.missingValue flag))

def finish (p : Progress) : Except Stop Request :=
  if p.files.isEmpty then .error (.usage .missingFiles)
  else if !p.extras.isEmpty then .error (.usage (.unrecognized p.extras))
  else .ok ⟨p.files.map Path.ofText, p.output, p.width, p.rootModule, p.verbose⟩

end Progress

def parse (arguments : List Text) : Except Stop Request :=
  match classifyAll arguments with
  | .error fault => .error (.usage fault)
  | .ok classified => do
    let progress ← Progress.run {} classified
    progress.finish

end Libdef.Command

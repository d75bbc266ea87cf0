import Libdef.Command.Arguments
import Libdef.Command.Disk
import Libdef.Command.Input
import Libdef.Conversion.Unmeasured

/-!
The command: it reads all inputs, converts them, and then writes one file. A run is planned from
the arguments and the contents of the inputs, and then carried out: a file is opened before its
text is encoded, and the console comes last.
-/

set_option autoImplicit false

namespace Libdef.Command

structure Report where
  exitCode : Nat
  prints : List Text := []
  err : Text := ""
  deriving Repr, DecidableEq

def Report.out (report : Report) : Text := Text.join "" report.prints

/-- Faults that are not reported but end the command at once. -/
inductive Crash where
  | input (fault : InputFault)
  | conversion (fault : Fault)
  | noOutput
  | write (fault : WriteFault)
  /-- The file is open, and the text has no bytes. -/
  | notEncoded
  /-- The console has these pieces of the report, and cannot show the next one. -/
  | notShown (before : List Text)
  deriving Repr

inductive Plan where
  | finish (report : Report)
  | crash (cause : Crash)
  | save (path : Path) (text : Text) (report : Report)
  deriving Repr

def programName : Text := "dts2flow"

def versionText : Text := programName ++ " 0.1.0\n"

def usageText : Text :=
  "usage: dts2flow [-h] [-o OUTPUT_FILE] [--root-module ROOT_MODULE]\n" ++
  "                [--width WIDTH] [--verbose] [--version]\n" ++
  "                files [files ...]\n"

def helpText : Text :=
  usageText ++
  "\nGenerates flow libraries from typescript declaration files\n" ++
  "\npositional arguments:\n" ++
  "  files                 TypeScript definition ASTs (JSON)\n" ++
  "\noptions:\n" ++
  "  -h, --help            show this help message and exit\n" ++
  "  -o OUTPUT_FILE, --output-file OUTPUT_FILE\n" ++
  "                        Name for output file (default: export.flow.js)\n" ++
  "  --root-module ROOT_MODULE\n" ++
  "                        Module name for top-level declarations (default: root)\n" ++
  "  --width WIDTH         Wrap function signatures longer than this (default: 80)\n" ++
  "  --verbose, -v         Enable verbose output\n" ++
  "  --version             show program's version number and exit\n" ++
  "\nInput files are TypeScript compiler ASTs serialized as JSON.\n" ++
  "\nExamples:\n" ++
  "  dts2flow lib.d.json\n" ++
  "  dts2flow a.d.json b.d.json -o lib.flow.js\n" ++
  "  dts2flow lib.d.json --root-module my-lib --width 100\n"

def Stop.report : Stop → Report
  | .usage fault =>
    { exitCode := 2, err := usageText ++ programName ++ ": error: " ++ fault.message ++ "\n" }
  | .version => { exitCode := 0, prints := [versionText] }
  | .help => { exitCode := 0, prints := [helpText] }

def failure (message : Text) : Report :=
  { exitCode := 1, err := "Error: " ++ message ++ "\n" }

/-- The summary is part of the report if it was asked for or if there are warnings. -/
def success (c : Conversion) : Report :=
  let summary : List Text :=
    if c.log.hasWarnings || c.options.verbose then [c.log.summary ++ "\n", "\n"] else []
  { exitCode := 0, prints := summary ++ ["Completed! Nodes exported:\n" ++ c.listing ++ "\n"] }

def Request.convert (request : Request) (trees : List Json) :
    Except Fault (Conversion × Text) :=
  let options : Options := { rootModule := request.rootModule, verbose := request.verbose }
  match request.width with
  | some width => Conversion.convert { options with lineWidth := width } trees
  | none => Conversion.convertUnmeasured options trees

def planConversion (request : Request) (trees : List Json) : Plan :=
  match request.convert trees with
  | .ok (c, text) =>
    match request.output with
    | some path => .save path text (success c)
    | none => .crash .noOutput
  | .error fault =>
    match fault.message? with
    | some message => .finish (failure message)
    | none => .crash (.conversion fault)

def planRequest (request : Request) (look : Path → Content) : Plan :=
  match loadAll look request.files with
  | .ok trees => planConversion request trees
  | .error fault =>
    match fault.message? with
    | some message => .finish (failure message)
    | none => .crash (.input fault)

def plan (arguments : List Text) (look : Path → Content) : Plan :=
  match parse arguments with
  | .error stop => .finish stop.report
  | .ok request => planRequest request look

def Content.ofPlace : Place → Content
  | .file _ bytes => .file bytes
  | .directory _ => .directory
  | _ => .absent

/-- Where reports are printed, by what it can show. -/
structure Console where
  shows : CodePoint → Bool

namespace Console

def plain : Console := ⟨fun _ => true⟩

def utf8 : Console := ⟨fun c => c.char?.isSome⟩

def showsText (console : Console) (text : Text) : Bool := text.toList.all console.shows

/-- The first piece that cannot be shown is the end. What is told as an error is always shown. -/
def tell (console : Console) (report : Report) : Except Crash Report :=
  if report.prints.all console.showsText then .ok report
  else .error (.notShown (report.prints.takeWhile console.showsText))

end Console

def Plan.perform (console : Console) (disk : Disk) : Plan → Except Crash Report × Disk
  | .finish report => (console.tell report, disk)
  | .crash cause => (.error cause, disk)
  | .save path text report =>
    match disk.target path with
    | .error fault =>
      match fault.message? path with
      | some message => (console.tell (failure message), disk)
      | none => (.error (.write fault), disk)
    | .ok names =>
      match Text.Utf8.encode? text with
      | some bytes => (console.tell report, disk.withFile names bytes)
      -- The file has been emptied by then.
      | none => (.error .notEncoded, disk.withFile names [])

def run (console : Console) (arguments : List Text) (disk : Disk) : Except Crash Report × Disk :=
  (plan arguments fun path => Content.ofPlace (disk.place path)).perform console disk

end Libdef.Command

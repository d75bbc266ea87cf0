import Libdef.Command.Run

set_option autoImplicit false

namespace Libdef.Command

/-- Whether the system's number, of either sign, says that a file stands in the place of a
directory. -/
def isNotDirectory (code : UInt32) : Bool := code == 20 || code == 0 - 20

def lookAt (path : Path) : IO Content := do
  match path.text.string? with
  | none => return .absent
  | some name =>
    try
      let bytes ← IO.FS.readBinFile name
      return .file bytes.data.toList
    catch
      | .noFileOrDirectory .. => return .absent
      | .inappropriateType _ code _ =>
        return if isNotDirectory code then .absent else .directory
      | _ => return .directory

def crash : IO UInt32 := do
  IO.eprintln "The command cannot be carried out."
  return 1

/-- The end is the first piece that cannot be encoded. -/
def tell (report : Report) : IO UInt32 := do
  for piece in report.prints do
    match piece.string? with
    | some s => IO.print s
    | none => return ← crash
  IO.eprint (String.ofList (report.err.toList.filterMap CodePoint.char?))
  return report.exitCode.toUInt32

def tellFault (path : Path) (fault : WriteFault) : IO UInt32 :=
  match fault.message? path with
  | some message => tell (failure message)
  | none => crash

def save (path : Path) (text : Text) (report : Report) : IO UInt32 := do
  match path.text.string? with
  | none => tellFault path .notNameable
  | some name =>
    try
      IO.FS.writeFile name (text.string?.getD "")
      if text.string?.isSome then tell report else crash
    catch
      | .noFileOrDirectory .. => tellFault path .missingDirectory
      | .inappropriateType _ code _ =>
        tellFault path (if isNotDirectory code then .notDirectory else .isDirectory)
      | e => tell (failure ("Cannot write " ++ path.text ++ ": " ++ toString e))

def perform : Plan → IO UInt32
  | .finish report => tell report
  | .crash _ => crash
  | .save path text report => save path text report

def runOnSystem (arguments : List String) : IO UInt32 := do
  match parse (arguments.map Text.ofString) with
  | .error stop => tell stop.report
  | .ok request =>
    let contents ← request.files.mapM fun path => do return (path, ← lookAt path)
    perform (planRequest request fun path => (contents.lookup path).getD .absent)

end Libdef.Command

def main (arguments : List String) : IO UInt32 :=
  Libdef.Command.runOnSystem arguments

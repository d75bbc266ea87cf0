import Libdef.Command.Path
import Libdef.Text.Quoted

set_option autoImplicit false

namespace Libdef

structure Disk where
  files : List (List Text × List UInt8) := []
  directories : List (List Text) := []
  here : List Text := []
  deriving Repr, DecidableEq, Inhabited

inductive Place where
  | file (names : List Text) (bytes : List UInt8)
  | directory (names : List Text)
  | vacant (names : List Text)
  /-- A directory on the way is missing. -/
  | unreachable
  /-- A file stands in the place of a directory on the way. -/
  | blocked
  /-- The path cannot be given to the system. -/
  | nowhere
  deriving Repr, DecidableEq

inductive WriteFault where
  | missingDirectory
  | isDirectory
  | notDirectory
  | notNameable
  deriving Repr, DecidableEq

def WriteFault.message? (fault : WriteFault) (path : Path) : Option Text :=
  let worded (cause : Text) : Text :=
    "Cannot write " ++ path.text ++ ": " ++ cause ++ ": " ++ Text.shown path.text
  match fault with
  | .missingDirectory => some (worded "[Errno 2] No such file or directory")
  | .isDirectory => some (worded "[Errno 21] Is a directory")
  | .notDirectory => some (worded "[Errno 20] Not a directory")
  | .notNameable => none

namespace Disk

/-- Whether something lies at or below these names. -/
def isDirectory (disk : Disk) (names : List Text) : Bool :=
  names.isPrefixOf disk.here || disk.directories.any (names.isPrefixOf ·) ||
    disk.files.any fun file => names.isPrefixOf file.1

def file? (disk : Disk) (names : List Text) : Option (List UInt8) := disk.files.lookup names

def placeAt (disk : Disk) (names : List Text) : Place :=
  match disk.file? names with
  | some bytes => .file names bytes
  | none => if disk.isDirectory names then .directory names else .vacant names

def enter (disk : Disk) (place : Place) (part : Text) : Place :=
  match place with
  | .directory names =>
    if part = ".." then .directory names.dropLast else disk.placeAt (names ++ [part])
  | .file _ _ => .blocked
  | .vacant _ => .unreachable
  | .unreachable => .unreachable
  | .blocked => .blocked
  | .nowhere => .nowhere

def place (disk : Disk) (path : Path) : Place :=
  if path.isNameable then
    path.parts.foldl disk.enter (.directory (if path.root = "" then disk.here else []))
  else .nowhere

def put (names : List Text) (bytes : List UInt8) :
    List (List Text × List UInt8) → List (List Text × List UInt8)
  | [] => [(names, bytes)]
  | file :: rest =>
    if file.1 = names then (names, bytes) :: rest else file :: put names bytes rest

def withFile (disk : Disk) (names : List Text) (bytes : List UInt8) : Disk :=
  { disk with files := put names bytes disk.files }

def target (disk : Disk) (path : Path) : Except WriteFault (List Text) :=
  match disk.place path with
  | .file names _ => .ok names
  | .vacant names => .ok names
  | .directory _ => .error .isDirectory
  | .unreachable => .error .missingDirectory
  | .blocked => .error .notDirectory
  | .nowhere => .error .notNameable

theorem lookup_put_self (names : List Text) (bytes : List UInt8)
    (files : List (List Text × List UInt8)) :
    (put names bytes files).lookup names = some bytes := by
  induction files with
  | nil => simp [put]
  | cons file rest ih =>
    obtain ⟨key, old⟩ := file
    by_cases h : key = names
    · simp [put, h]
    · have hb : (names == key) = false := by simpa using fun e => h e.symm
      simp [put, h, List.lookup_cons, hb, ih]

theorem lookup_put_of_ne {names other : List Text} (hne : other ≠ names) (bytes : List UInt8)
    (files : List (List Text × List UInt8)) :
    (put names bytes files).lookup other = files.lookup other := by
  have hb : (other == names) = false := by simpa using hne
  induction files with
  | nil => simp [put, List.lookup_cons, hb]
  | cons file rest ih =>
    obtain ⟨key, old⟩ := file
    by_cases h : key = names
    · simp [put, h, List.lookup_cons, hb]
    · simp [put, h, List.lookup_cons, ih]

end Disk
end Libdef

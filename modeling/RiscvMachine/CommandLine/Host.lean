import RiscvMachine.Storage.Unit

set_option autoImplicit false

/-! # Host files

What the program finds on the host and leaves there: files with their contents, and directories
with the files of storage units.
-/

namespace RiscvMachine.CommandLine

/-- The files and the directories that exist, by path. The working directory always exists. -/
structure Host where
  files : List (String × ByteArray)
  directories : List (String × UnitDirectory)
  deriving Inhabited

namespace Host

def file? (h : Host) (path : String) : Option ByteArray := h.files.lookup path

def directory? (h : Host) (path : String) : Option UnitDirectory := h.directories.lookup path

/-- The host with a directory that exists in its new state. -/
def setDirectory (h : Host) (path : String) (directory : UnitDirectory) : Host :=
  { h with directories := h.directories.map fun entry =>
      if entry.1 = path then (path, directory) else entry }

/-- The directory that a path leads into, if it names one. -/
def parent? (path : String) : Option String :=
  match path.toList.reverse.dropWhile (· ≠ '/') with
  | [] => none
  | [_] => some "/"
  | _ :: rest => some (String.ofList rest.reverse)

/-- The host with a file of the given contents. There is no way to write a file into a
directory that does not exist, or in place of one that does. -/
def save? (h : Host) (path : String) (contents : ByteArray) : Option Host :=
  let hasPlace := match parent? path with
    | some directory => (h.directory? directory).isSome
    | none => true
  if hasPlace && (h.directory? path).isNone then
    some { h with files := (path, contents) :: h.files.filter (·.1 ≠ path) }
  else none

end Host

end RiscvMachine.CommandLine

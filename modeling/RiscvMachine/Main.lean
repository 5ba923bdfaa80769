import RiscvMachine.CommandLine.Program

set_option autoImplicit false

/-! # The command line

The program on a real host. All decisions are those of `CommandLine.Program`; here files are
read and written, time is told, and typed bytes and output are carried.

A reader of standard input runs beside the machine. It ends with the input, or at the first byte
that is typed after the program has finished.
-/

namespace RiscvMachine.CommandLine

/-- What a file holds, if it can be read. -/
def readFile? (path : String) : IO (Option ByteArray) := do
  try
    return some (← IO.FS.readBinFile path)
  catch _ =>
    return none

def readFiles (paths : List String) : IO (List (String × ByteArray)) := do
  let found ← paths.mapM fun path => return (path, ← readFile? path)
  return found.filterMap fun (path, contents) => contents.map (path, ·)

def unitPath (directory : String) (unit : Nat) : String :=
  directory ++ "/unit" ++ Text.decimal unit ++ ".bin"

/-- The unit files of a directory, up to the first that is missing. -/
def readUnits (directory : String) : Nat → List Extent → IO UnitDirectory
  | 0, units => return ⟨units.reverse.toArray⟩
  | left + 1, units => do
    match ← readFile? (unitPath directory units.length) with
    | some contents => readUnits directory left (.ofBytes contents :: units)
    | none => return ⟨units.reverse.toArray⟩

def isDirectory (path : String) : IO Bool := do
  try
    let path ← IO.FS.realPath path
    path.isDir
  catch _ =>
    return false

/-- The directories of the given paths that exist, without their files. -/
def findDirectories (paths : List String) : IO (List (String × UnitDirectory)) := do
  let found ← paths.filterM isDirectory
  return found.map fun path => (path, ⟨#[]⟩)

/-- What the program needs of the host: first the configuration file, then what it names. -/
def readHost (call : Invocation) : IO Host := do
  let options := call.options
  let configFiles ← readFiles options.config.toList
  let paths := options.dump.toList ++ (options.dump.bind Host.parent?).toList
  let directories ← findDirectories paths
  let host : Host := ⟨configFiles, directories⟩
  match options.toConfig (options.config.bind host.file?) with
  | .error _ => return host
  | .ok config =>
    let tree := config.deviceTree.map DeviceTreeConfig.path
    let files ← readFiles (call.image :: tree.toList)
    match Program.directoryOf config.backing with
    | none => return ⟨configFiles ++ files, directories⟩
    | some directory =>
      if ← isDirectory directory then
        let units ← readUnits directory config.backing.unitCount.toNat []
        return ⟨configFiles ++ files, (directory, units) :: directories⟩
      else return ⟨configFiles ++ files, directories⟩

def writeUnits (host : Host) : IO Unit := do
  for (directory, units) in host.directories do
    for (unit, index) in units.files.toList.zipIdx do
      IO.FS.writeBinFile (unitPath directory index) unit.toBytes

def writeDump (call : Invocation) (before after : Host) : IO Unit := do
  if let some path := call.options.dump then
    if let some contents := after.file? path then
      if before.file? path != some contents then IO.FS.writeBinFile path contents

/-- Carries what is typed to the machine, until the input ends or the program has finished. -/
partial def readKeys (input : IO.FS.Stream) (typed : IO.Ref ByteArray) (finished : IO.Ref Bool) :
    IO Unit := do
  let bytes ← input.read 64
  typed.modify (· ++ bytes)
  if bytes.isEmpty || (← finished.get) then return
  readKeys input typed finished

def showOutput (program : Program) : IO (Bool × Program) := do
  let ((output, idle), program) := program.takeShown
  if !output.isEmpty then
    let stdout ← IO.getStdout
    stdout.write output
    stdout.flush
  return (idle, program)

/-- Takes turns until the program has an end. -/
partial def playOn (typed : IO.Ref ByteArray) (program : Program) :
    IO (Except Failure MachineExit × Program) := do
  let bytes ← typed.modifyGet fun bytes => (bytes, ByteArray.empty)
  let clock := (← IO.monoNanosNow) / 1000
  match (program.receive (UInt64.ofNat clock) bytes).turn with
  | .ok none program =>
    let (idle, program) ← showOutput program
    if idle then IO.sleep 1
    playOn typed program
  | .ok (some exit) program => return (.ok exit, (← showOutput program).2)
  | .error failure program => return (.error failure, (← showOutput program).2)

def report (failure : Failure) : IO UInt32 := do
  IO.eprintln failure.message
  return failure.exitStatus

/-- Boots the machine of a program and runs it to its end. -/
def runProgram (call : Invocation) (program : Program) (host : Host) : IO UInt32 := do
  let typed ← IO.mkRef ByteArray.empty
  let finished ← IO.mkRef false
  let clock := (← IO.monoNanosNow) / 1000
  let (result, program) ← match (program.receive (UInt64.ofNat clock) ByteArray.empty).boot with
    | .error failure program => pure (.error failure, program)
    | .ok () program =>
      let input ← IO.getStdin
      let _ ← IO.asTask (readKeys input typed finished) .dedicated
      playOn typed program
  finished.set true
  match result with
  | .error failure =>
    writeUnits (program.leave host)
    report failure
  | .ok exit =>
    match program.conclude Compression.Zstd.store exit host with
    | .ok status (program, after) =>
      writeDump call host after
      writeUnits (program.leave after)
      return status
    | .error failure (program, after) =>
      writeDump call host after
      writeUnits (program.leave after)
      report failure

end RiscvMachine.CommandLine

open RiscvMachine.CommandLine in
/-- Runs the program; the exit status tells how it ended. -/
def main (arguments : List String) : IO UInt32 := do
  match Invocation.ofArguments arguments with
  | .error error => report (.arguments error)
  | .ok call =>
    match Program.prepare call (← readHost call) with
    | .error failure host =>
      writeUnits host
      report failure
    | .ok program host => runProgram call program host

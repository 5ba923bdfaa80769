import RiscvMachine.CommandLine.Arguments
import RiscvMachine.CommandLine.Host
import RiscvMachine.CommandLine.Terminal
import RiscvMachine.Device.Input
import RiscvMachine.Machine.Boot
import RiscvMachine.Snapshot.Format

set_option autoImplicit false

/-! # The program

From the command line to the exit status: the machine is built, and its session runs until the
guest does not ask for another boot. Then the state may be saved, and the cache is flushed, so
that files behind the storage units hold what the guest has written.
-/

namespace RiscvMachine.CommandLine

/-- Why the program ends without an answer of the guest's. -/
inductive Failure
  | arguments (error : ArgumentError)
  /-- There is no configuration; the text says why. -/
  | config (text : String)
  | machine (error : MachineError)
  /-- The dump cannot be written. -/
  | dump
  deriving DecidableEq, Repr

def Failure.message : Failure → String
  | arguments error => error.message
  | config text => text
  | machine error => error.message?.getD "the host refused a file or an image"
  | dump => "failed to write dump"

def Failure.exitStatus : Failure → UInt32
  | arguments .helpRequested => 0
  | arguments .versionRequested => 0
  | arguments _ => 2
  | machine error => if error.panic?.isSome then 101 else 1
  | _ => 1

def exitStatusOf : MachineExit → UInt32
  | .powerOff => 0
  | .reboot => 0
  | .fault => 2
  | .unknown _ => 3

/-- A program with its machine: the image to boot, where a dump goes, and where the files of the
storage units are. -/
structure Program where
  image : Option ByteArray
  dumpPath : Option String
  directory : Option String
  session : Session Medium HeldTerminal

namespace Program

/-- A request on the program and the host that can fail. -/
abbrev Request := EStateM Failure (Program × Host)

def directoryOf (backing : BackingConfig) : Option String :=
  match backing.kind with
  | .memory => none
  | .file path => some path

/-- Builds the machine that the command line asks for. The directory of the storage units may
change although it fails. -/
def prepare (call : Invocation) : EStateM Failure Host Program := fun host =>
  match call.options.toConfig (call.options.config.bind host.file?) with
  | .error text => .error (.config text) host
  | .ok config =>
    let directory := directoryOf config.backing
    let tree := config.deviceTree.bind fun tree => host.file? tree.path
    let keep (after : Option UnitDirectory) : Host :=
      match directory, after with
      | some path, some after => host.setDirectory path after
      | _, _ => host
    match Machine.build config tree (directory.bind host.directory?) with
    | .error error after => .error (.machine error) (keep after)
    | .ok machine after =>
      .ok ⟨host.file? call.image, call.options.dump, directory, .start machine {}⟩ (keep after)

def onSession {α : Type} (request : EStateM MachineError (Session Medium HeldTerminal) α) :
    EStateM Failure Program α := fun ⟨image, dumpPath, directory, session⟩ =>
  match request session with
  | .ok answer session => .ok answer ⟨image, dumpPath, directory, session⟩
  | .error error session => .error (.machine error) ⟨image, dumpPath, directory, session⟩

/-- Hands typed bytes and the time to the session. -/
def receive (p : Program) (clock : UInt64) (typed : ByteArray) : Program :=
  let ⟨image, dumpPath, directory, ⟨machine, terminal, time⟩⟩ := p
  let ⟨config, hart, ⟨cache, ⟨keys, output⟩, ramSize⟩, deviceTree⟩ := machine
  let pump := Pump.run [.data typed] ⟨keys, terminal.escaped, terminal.stop⟩
  let machine := ⟨config, hart, ⟨cache, ⟨pump.queue, output⟩, ramSize⟩, deviceTree⟩
  let terminal := { terminal with clock := clock, escaped := pump.escaped, stop := pump.stop }
  ⟨image, dumpPath, directory, ⟨machine, terminal, time⟩⟩

/-- Takes the output to be shown, and whether to sleep for a moment. -/
def takeShown (p : Program) : (ByteArray × Bool) × Program :=
  let ⟨image, dumpPath, directory, ⟨machine, terminal, time⟩⟩ := p
  let ⟨output, stop, clock, idle, escaped⟩ := terminal
  ((output, idle),
    ⟨image, dumpPath, directory,
      ⟨machine, ⟨ByteArray.empty, stop, clock, false, escaped⟩, time⟩⟩)

def boot : EStateM Failure Program Unit := fun p =>
  onSession (fun ⟨machine, terminal, time⟩ =>
    match Machine.bootFile p.image machine with
    | .ok _ machine => .ok () (.start machine terminal)
    | .error error machine => .error error ⟨machine, terminal, time⟩) p

/-- Takes one turn of the session, and boots again if the guest asks for it. -/
def turn : EStateM Failure Program (Option MachineExit) := fun p =>
  match onSession Session.turn p with
  | .ok (some .reboot) p =>
    match boot p with
    | .ok () p => .ok none p
    | .error failure p => .error failure p
  | result => result

/-- Takes turns until the program has an end; `none` if it has not after so many. -/
def play : Nat → EStateM Failure Program (Option MachineExit)
  | 0 => pure none
  | turns + 1 => fun p =>
    match turn p with
    | .ok none p => play turns p
    | .ok (some exit) p => .ok (some exit) p
    | .error failure p => .error failure p

/-- Saves the state after a fault or a stop, if that was asked for, compressed with the given
encoder. -/
def saveDump (encode : ByteArray → ByteArray) (exit : MachineExit) : Request Unit :=
  fun (p, host) =>
  match p.dumpPath with
  | none => .ok () (p, host)
  | some path =>
    if p.session.terminal.stop || exit = .fault then
      match host.save? path (p.session.machine.dump.toBytes encode) with
      | some host => .ok () (p, host)
      | none => .error .dump (p, host)
    else .ok () (p, host)

def flush : Request Unit := fun (p, host) =>
  match onSession (Session.onMachine Machine.flush) p with
  | .ok () p => .ok () (p, host)
  | .error failure p => .error failure (p, host)

/-- What is left to do after the session. -/
def conclude (encode : ByteArray → ByteArray) (p : Program) (exit : MachineExit) (host : Host) :
    EStateM.Result Failure (Program × Host) UInt32 :=
  let request : Request UInt32 := do
    saveDump encode exit
    flush
    return exitStatusOf exit
  request (p, host)

/-- The host after the program, with the files of the storage units as they are now. -/
def leave (p : Program) (host : Host) : Host :=
  match p.directory with
  | none => host
  | some path =>
    match host.directory? path with
    | some directory =>
      host.setDirectory path (directory.keep p.session.machine.cache.store.units)
    | none => host

end Program

/-- What a run of the program shows: its exit status, if it has ended, and its output. -/
structure Ending where
  exitStatus : Option UInt32
  output : ByteArray

/-- Runs the program to its end, for so many turns at most. -/
def run (encode : ByteArray → ByteArray) (arguments : List String) (turns : Nat) :
    StateM Host Ending := fun host =>
  match Invocation.ofArguments arguments with
  | .error error =>
    (⟨some (Failure.arguments error).exitStatus, ByteArray.empty⟩, host)
  | .ok call =>
    match Program.prepare call host with
    | .error failure host => (⟨some failure.exitStatus, ByteArray.empty⟩, host)
    | .ok p host =>
      let started := match Program.boot p with
        | .ok () p => Program.play turns p
        | .error failure p => .error failure p
      match started with
      | .error failure p =>
        (⟨some failure.exitStatus, p.session.terminal.output⟩, p.leave host)
      | .ok none p => (⟨none, p.session.terminal.output⟩, p.leave host)
      | .ok (some exit) p =>
        match p.conclude encode exit host with
        | .ok status (p, host) =>
          (⟨some status, p.session.terminal.output⟩, p.leave host)
        | .error failure (p, host) =>
          (⟨some failure.exitStatus, p.session.terminal.output⟩, p.leave host)

end RiscvMachine.CommandLine

import RiscvMachine.CommandLine.Options

set_option autoImplicit false

/-! # Arguments

Reading the command line from left to right. An option's value is the next argument that does
not look like an option itself, or stands behind an equals sign. The one argument that belongs
to no option names the image; behind `--` everything does. A value in an argument of its own is
judged only when the next argument that is understood, or the end, shows that it is complete.
-/

namespace RiscvMachine.CommandLine

/-- Why the arguments do not tell what to do. -/
inductive ArgumentError
  /-- There is no such option, or the image has already been named. -/
  | unknownArgument
  /-- An option stands without its value, or a path is empty. -/
  | missingValue
  /-- A value is not a number in range. -/
  | invalidNumber
  | missingImage
  /-- An option is given twice. -/
  | repeated
  /-- A switch is given a value. -/
  | unexpectedValue
  | helpRequested
  | versionRequested
  deriving DecidableEq, Repr

def ArgumentError.message : ArgumentError → String
  | unknownArgument => "unexpected argument"
  | missingValue => "an option lacks its value"
  | invalidNumber => "a value is not a number in range"
  | missingImage => "no guest image given"
  | repeated => "an option is given twice"
  | unexpectedValue => "a switch is given a value"
  | helpRequested => "usage: IMAGE [OPTION]..."
  | versionRequested => "0.1.0"

/-- What the arguments ask for: a guest image and options. -/
structure Invocation where
  image : String
  options : Options
  deriving DecidableEq, Repr

/-- An argument that has been read and not judged. -/
inductive Pending
  | nothing
  | image (path : String)
  /-- An option whose value is to come. -/
  | awaiting (option : ValueOption)
  | valued (option : ValueOption) (value : String)
  deriving DecidableEq, Repr

structure Scan where
  options : Options := {}
  image : Option String := none
  pending : Pending := .nothing
  /-- Whether a path of an image has been read. -/
  imageSeen : Bool := false
  /-- Whether `--` has been read. -/
  onlyImages : Bool := false
  deriving DecidableEq, Repr

/-! ## Values -/

/-- A word as an option's value. It may have a sign, and then can only be zero if that is a
minus. -/
def parseWord (value : String) : Except ArgumentError UInt32 :=
  let parsed := match value.toList with
    | '-' :: digit :: digits => appendDigits 10 1 (digit :: digits) 0
    | digits => parseNumber 10 UInt32.size digits
  match parsed with
  | .ok n => .ok (UInt32.ofNat n)
  | .error _ => .error .invalidNumber

def parseCount (value : String) : Except ArgumentError UInt64 :=
  match parseNumber 10 UInt64.size value.toList with
  | .ok n => .ok (UInt64.ofNat n)
  | .error _ => .error .invalidNumber

def parseOffsetValue (value : String) : Except ArgumentError UInt64 :=
  match parseOffset value with
  | .ok n => .ok n
  | .error _ => .error .invalidNumber

def parsePath (value : String) : Except ArgumentError String :=
  if value.isEmpty then .error .missingValue else .ok value

def Options.set (o : Options) (option : ValueOption) (value : String) :
    Except ArgumentError Options := do
  if o.isGiven option then throw .repeated
  match option with
  | .config => return { o with config := ← parsePath value }
  | .ramSize => return { o with ramSize := ← parseWord value }
  | .unitCount => return { o with unitCount := ← parseCount value }
  | .unitSize => return { o with unitSize := ← parseWord value }
  | .directory => return { o with directory := ← parsePath value }
  | .timeDivisor => return { o with timeDivisor := ← parseWord value }
  | .batch => return { o with batch := ← parseWord value }
  | .dump => return { o with dump := ← parsePath value }
  | .deviceTree => return { o with deviceTree := ← parsePath value }
  | .ramSizeOffset => return { o with ramSizeOffset := ← parseOffsetValue value }

namespace Scan

def settle (s : Scan) : Except ArgumentError Scan :=
  match s.pending with
  | .nothing => .ok s
  | .awaiting _ => .error .missingValue
  | .image path => do
    let path ← parsePath path
    return { s with image := some path, pending := .nothing }
  | .valued option value => do
    let options ← s.options.set option value
    return { s with options := options, pending := .nothing }

/-! ## Arguments one by one -/

def readPlain (s : Scan) (arg : String) : Except ArgumentError Scan :=
  match s.onlyImages, s.pending with
  | false, .awaiting option => .ok { s with pending := .valued option arg }
  | _, _ =>
    if s.imageSeen then .error .unknownArgument
    else do
      let s ← s.settle
      return { s with pending := .image arg, imageSeen := true }

def readSwitch (s : Scan) (switch : Switch) : Except ArgumentError Scan := do
  let s ← s.settle
  if s.options.isOn switch then throw .repeated
  return { s with options := s.options.turnOn switch }

/-- Gives up for the sake of one of the requests that end the program. -/
def readRequest (s : Scan) (request : ArgumentError) : Except ArgumentError Scan := do
  let _ ← s.settle
  throw request

/-- Reads an option that takes a value; `value` is what stands behind its equals sign. -/
def readValueOption (s : Scan) (option : ValueOption) (value : Option String) :
    Except ArgumentError Scan := do
  let s ← s.settle
  match value with
  | none => return { s with pending := .awaiting option }
  | some value => return { s with options := ← s.options.set option value }

/-- Reads what stands behind two dashes: a name, and a value if there was an equals sign. -/
def readLong (s : Scan) (name : String) (value : Option String) : Except ArgumentError Scan :=
  match valueOptions.lookup name, switches.lookup name, value with
  | some option, _, value => s.readValueOption option value
  | none, some switch, none => s.readSwitch switch
  | none, some _, some _ => .error .unexpectedValue
  | none, none, value =>
    let request? : Option ArgumentError :=
      if name = "help" then some .helpRequested
      else if name = "version" then some .versionRequested
      else none
    match request?, value with
    | some request, none => s.readRequest request
    | some _, some _ => .error .unexpectedValue
    | none, _ => .error .unknownArgument

/-- Reads the letters behind one dash, of which the first decides. -/
def readShort (s : Scan) (letter : Char) : Except ArgumentError Scan :=
  if letter = 'h' then s.readRequest .helpRequested
  else if letter = 'V' then s.readRequest .versionRequested
  else .error .unknownArgument

def read (s : Scan) (arg : String) : Except ArgumentError Scan :=
  if s.onlyImages then s.readPlain arg
  else
    match arg.toList with
    | ['-', '-'] => .ok { s with onlyImages := true }
    | '-' :: '-' :: rest =>
      match rest.span (· ≠ '=') with
      | (name, _ :: value) => s.readLong (String.ofList name) (some (String.ofList value))
      | (name, []) => s.readLong (String.ofList name) none
    | '-' :: letter :: _ => s.readShort letter
    | _ => s.readPlain arg

/-- What the arguments ask for, once all have been read. -/
def finish (s : Scan) : Except ArgumentError Invocation := do
  let s ← s.settle
  match s.image with
  | some image => return ⟨image, s.options⟩
  | none => throw .missingImage

end Scan

def Invocation.ofArguments (arguments : List String) : Except ArgumentError Invocation := do
  let scan ← arguments.foldlM Scan.read {}
  scan.finish

end RiscvMachine.CommandLine

import Spreadsheet.Text.Digits
import Spreadsheet.Text.Lines

/-!
The arguments of the command. Options are short (`-x 2`, `-x2`, `-x=2`) or long (`--name value`,
`--name=value`), flags take no value and can share one dash, and behind `--` everything is an input
file.

The value of an option can be the next argument. It is checked only once something else begins, so
that an argument nobody knows is reported before a bad value in front of it.
-/
namespace Spreadsheet.Command

/-- What the command was asked to do. -/
structure Arguments where
  input : String
  output : Option String := none
  keyValues : Option String := none
  columnOffset : Option Nat := none
  rowOffset : Option Nat := none
  config : Option String := none
  backup : Bool := false
  createDirectories : Bool := false
  verbose : Bool := false
deriving DecidableEq, Inhabited

/-- Why the arguments are not a request to compile. -/
inductive Refusal where
  | missingInput
  | unknownArgument
  /-- An option has no value, or an empty one where a file is named. -/
  | missingValue
  | invalidNumber
  /-- An option or a flag is given twice. -/
  | repeated
  | unexpectedValue
  | help
  | version
deriving DecidableEq, Inhabited

/-- What takes a value; the input file is the one without a name. -/
inductive Slot where
  | input
  | output
  | keyValues
  | columnOffset
  | rowOffset
  | config
deriving DecidableEq, Inhabited

inductive Flag where
  | backup
  | createDirectories
  | verbose
  | help
  | version
deriving DecidableEq, Inhabited

/-- What a name on the command line stands for. -/
inductive Named where
  | slot (slot : Slot)
  | flag (flag : Flag)
deriving DecidableEq, Inhabited

namespace Named

def ofLetter : Char → Option Named
  | 'o' => some (.slot .output)
  | 'k' => some (.slot .keyValues)
  | 'x' => some (.slot .columnOffset)
  | 'y' => some (.slot .rowOffset)
  | 'b' => some (.flag .backup)
  | 'c' => some (.flag .createDirectories)
  | 'v' => some (.flag .verbose)
  | 'h' => some (.flag .help)
  | 'V' => some (.flag .version)
  | _ => none

def ofWord : String → Option Named
  | "output" => some (.slot .output)
  | "key-values" => some (.slot .keyValues)
  | "offset-columns" => some (.slot .columnOffset)
  | "offset-rows" => some (.slot .rowOffset)
  | "config" => some (.slot .config)
  | "backup" => some (.flag .backup)
  | "create" => some (.flag .createDirectories)
  | "verbose" => some (.flag .verbose)
  | "help" => some (.flag .help)
  | "version" => some (.flag .version)
  | _ => none

end Named

/-- What has been read so far. -/
structure Draft where
  input : Option String := none
  output : Option String := none
  keyValues : Option String := none
  columnOffset : Option Nat := none
  rowOffset : Option Nat := none
  config : Option String := none
  flags : List Flag := []
  /-- A slot whose value has not been checked yet; the value may still be missing. -/
  pending : Option (Slot × Option String) := none
  /-- Whether an input file has been seen. -/
  inputSeen : Bool := false
  /-- Whether `--` has been seen. -/
  inputsOnly : Bool := false
deriving Inhabited

namespace Draft

def isFilled (d : Draft) : Slot → Bool
  | .input => d.input.isSome
  | .output => d.output.isSome
  | .keyValues => d.keyValues.isSome
  | .columnOffset => d.columnOffset.isSome
  | .rowOffset => d.rowOffset.isSome
  | .config => d.config.isSome

def readPath (value : String) : Except Refusal String :=
  if value = "" then .error .missingValue else .ok value

def readNumber (value : String) : Except Refusal Nat :=
  match Text.readUnsigned Text.indexLimit value.toList with
  | some n => .ok n
  | none => .error .invalidNumber

/-- Fills a slot that is still free. -/
def fill (d : Draft) (slot : Slot) (value : String) : Except Refusal Draft :=
  if d.isFilled slot then .error .repeated
  else
    match slot with
    | .input => (readPath value).map fun path => { d with input := some path }
    | .output => (readPath value).map fun path => { d with output := some path }
    | .keyValues => .ok { d with keyValues := some value }
    | .columnOffset => (readNumber value).map fun n => { d with columnOffset := some n }
    | .rowOffset => (readNumber value).map fun n => { d with rowOffset := some n }
    | .config => (readPath value).map fun path => { d with config := some path }

/-- Checks the value that is waiting. -/
def settle (d : Draft) : Except Refusal Draft :=
  match d.pending with
  | none => .ok d
  | some (_, none) => .error .missingValue
  | some (slot, some value) => { d with pending := none }.fill slot value

/-- A slot whose value is part of the same argument. -/
def attach (d : Draft) (slot : Slot) (value : String) : Except Refusal Draft :=
  match d.settle with
  | .error e => .error e
  | .ok d => d.fill slot value

/-- A slot whose value is the next argument, or an input file. -/
def await (d : Draft) (slot : Slot) (value : Option String) : Except Refusal Draft :=
  match d.settle with
  | .error e => .error e
  | .ok d => .ok { d with pending := some (slot, value) }

def raise (d : Draft) (flag : Flag) : Except Refusal Draft :=
  match d.settle with
  | .error e => .error e
  | .ok d =>
    match flag with
    | .help => .error .help
    | .version => .error .version
    | flag => if flag ∈ d.flags then .error .repeated else .ok { d with flags := flag :: d.flags }

def addInput (d : Draft) (value : String) : Except Refusal Draft :=
  if d.inputSeen then .error .unknownArgument
  else { d with inputSeen := true }.await .input (some value)

/-- A long name, with its value if one is attached. -/
def addWord (d : Draft) (word : String) (value : Option String) : Except Refusal Draft :=
  match Named.ofWord word, value with
  | none, _ => .error .unknownArgument
  | some (.slot slot), some value => d.attach slot value
  | some (.slot slot), none => d.await slot none
  | some (.flag _), some _ => .error .unexpectedValue
  | some (.flag flag), none => d.raise flag

/-- Short names behind one dash. What follows the name of an option is its value. -/
def addLetters (d : Draft) : List Char → Except Refusal Draft
  | [] => .ok d
  | letter :: rest =>
    match Named.ofLetter letter, rest with
    | none, _ => .error .unknownArgument
    | some (.slot slot), [] => d.await slot none
    | some (.slot slot), '=' :: value => d.attach slot (String.ofList value)
    | some (.slot slot), value => d.attach slot (String.ofList value)
    | some (.flag flag), rest =>
      match d.raise flag with
      | .error e => .error e
      | .ok d => d.addLetters rest

/-- An argument that is no name: the value that is waited for, or an input file. -/
def addValue (d : Draft) (value : String) : Except Refusal Draft :=
  match d.pending with
  | some (slot, none) => .ok { d with pending := some (slot, some value) }
  | _ => d.addInput value

/-- The next argument. -/
def add (d : Draft) (argument : String) : Except Refusal Draft :=
  if d.inputsOnly then d.addInput argument
  else
    match argument.toList with
    | ['-', '-'] => .ok { d with inputsOnly := true }
    | '-' :: '-' :: word =>
      match Text.splitOnce '=' word with
      | some (word, value) => d.addWord (String.ofList word) (some (String.ofList value))
      | none => d.addWord (String.ofList word) none
    | '-' :: letter :: rest => d.addLetters (letter :: rest)
    | _ => d.addValue argument

/-- The arguments once all are read. -/
def finish (d : Draft) : Except Refusal Arguments :=
  match d.settle with
  | .error e => .error e
  | .ok d =>
    match d.input with
    | none => .error .missingInput
    | some input =>
      .ok { input := input, output := d.output, keyValues := d.keyValues
            columnOffset := d.columnOffset, rowOffset := d.rowOffset, config := d.config
            backup := Flag.backup ∈ d.flags
            createDirectories := Flag.createDirectories ∈ d.flags
            verbose := Flag.verbose ∈ d.flags }

/-- Adds arguments one after another. -/
def addAll (d : Draft) : List String → Except Refusal Draft
  | [] => .ok d
  | argument :: rest =>
    match d.add argument with
    | .error e => .error e
    | .ok d => d.addAll rest

end Draft

/-- Reads the arguments of the command, without its name. -/
def Arguments.read (arguments : List String) : Except Refusal Arguments :=
  match ({} : Draft).addAll arguments with
  | .error e => .error e
  | .ok d => d.finish

end Spreadsheet.Command

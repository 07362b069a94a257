import Spreadsheet.Backup
import Spreadsheet.Command.Config
import Spreadsheet.Command.FileSystem
import Spreadsheet.Compile

/-!
Running the command: read the config file, compile the input file, and write the sheet to the
output file or to standard output.
-/
namespace Spreadsheet.Command

/-- What the command depends on besides its arguments and the files. -/
structure Environment where
  /-- The config file of the user: where it is, and how messages name it. -/
  userConfig : Option (String × String) := none
  /-- The time, as it is written into the names of backups. -/
  stamp : List Char := []
deriving Inhabited

/-- Why a request to compile fails. -/
inductive Failure where
  | configMissing (path : String)
  | configUnreadable (path : String) (error : FileError)
  | configTooLarge (path : String) (size : Nat)
  | configMalformed (path : String)
  | compile (error : CompileError)
deriving DecidableEq, Inhabited

/-- The size in bytes up to which a config file is read. -/
def configLimit : Nat :=
  1048576

namespace Failure

def message : Failure → String
  | .configMissing path => "Config file not found: " ++ path
  | .configUnreadable path error => "IO error reading " ++ path ++ ": " ++ error.message
  | .configTooLarge path size =>
    "Refusing to read " ++ path ++ ": file too large (" ++ toString size ++ " bytes, max " ++
      toString configLimit ++ ")"
  | .configMalformed path => "Failed to parse " ++ path
  | .compile error => error.message

/-- The message of the failure behind this one, if there is one. -/
def cause? : Failure → Option String
  | .configUnreadable _ error => some error.message
  | .compile (.file error) => some error.message
  | .compile error => error.formulaError?.map (·.message)
  | _ => none

/-- What the user is told: the message and then its cause, although the message ends with it. -/
def report (f : Failure) : String :=
  "Error: " ++ ": ".intercalate (f.message :: f.cause?.toList)

end Failure

/-- How the command ends: with a text for standard output and lines about the progress, or not. -/
inductive Outcome where
  | done (output : String) (progress : List String)
  | failed (failure : Failure)
  | refused (refusal : Refusal)
deriving DecidableEq, Inhabited

/-- The name and the version of the command. -/
def versionText : String :=
  "csvpp 0.4.0\n"

def usageText : String :=
  "Compile a csv++ template into a plain CSV file\n\n" ++
  "Usage: csvpp [OPTIONS] <INPUT>\n\n" ++
  "Arguments:\n" ++
  "  <INPUT>  Source file to compile (.csvpp)\n\n" ++
  "Options:\n" ++
  "  -o, --output <FILE>       Write the compiled CSV here instead of stdout\n" ++
  "  -k, --key-values <PAIRS>  Variables to define, as `name=value` pairs separated by commas\n" ++
  "  -x, --offset-columns <N>  Number of empty columns to place before the output\n" ++
  "  -y, --offset-rows <N>     Number of empty rows to place before the output\n" ++
  "  -b, --backup              Copy an existing output file aside before overwriting it\n" ++
  "  -c, --create              Create the output file's directory if it does not exist\n" ++
  "  -v, --verbose             Log compilation progress to stderr\n" ++
  "      --config <FILE>       Read defaults from this TOML file instead of the user config\n" ++
  "  -h, --help                Print help\n" ++
  "  -V, --version             Print version\n"

namespace Refusal

/-- What is printed instead of a sheet. -/
def output : Refusal → String
  | .help => usageText
  | .version => versionText
  | _ => ""

def isRequest : Refusal → Bool
  | .help => true
  | .version => true
  | _ => false

/-- What the user is told about arguments that cannot be used. -/
def message : Refusal → String
  | .missingInput => "error: the input file is missing"
  | .unknownArgument => "error: unexpected argument"
  | .missingValue => "error: a value is required"
  | .invalidNumber => "error: invalid number"
  | .repeated => "error: an argument cannot be used multiple times"
  | .unexpectedValue => "error: unexpected value"
  | .help => ""
  | .version => ""

end Refusal

namespace Outcome

/-- The exit code: zero for what was asked for, one for a failure, two for misuse. -/
def exitCode : Outcome → Nat
  | .done .. => 0
  | .failed _ => 1
  | .refused refusal => if refusal.isRequest then 0 else 2

/-- What is written to standard output. -/
def output : Outcome → String
  | .done output _ => output
  | .failed _ => ""
  | .refused refusal => refusal.output

/-- The report of a failure. -/
def report? : Outcome → Option String
  | .failed failure => some failure.report
  | _ => none

end Outcome

section

variable {m : Type → Type} [Monad m] (files : FileSystem m)

/-- Reads a file as text. -/
def readText (path : String) : m (Except FileError String) := do
  match ← files.readBytes path with
  | .error e => return .error e
  | .ok content =>
    match String.fromUTF8? content with
    | some text => return .ok text
    | none => return .error .invalidText

/-- Reads a config file that is there; messages call it `shown`. -/
def readConfig (path shown : String) : m (Except Failure Config) := do
  match ← files.readBytes path with
  | .error e => return .error (.configUnreadable shown e)
  | .ok content =>
    if configLimit < content.size then return .error (.configTooLarge shown content.size)
    else
      match String.fromUTF8? content with
      | none => return .error (.configUnreadable shown .invalidText)
      | some text =>
        match Config.read text.toList with
        | some config => return .ok config
        | none => return .error (.configMalformed shown)

/-- The config file named by the arguments, which must be there, or else that of the user. -/
def loadConfig (named : Option String) (environment : Environment) : m (Except Failure Config) := do
  match named, environment.userConfig with
  | some path, _ =>
    if ← files.isPresent path then readConfig files path path
    else return .error (.configMissing path)
  | none, some (path, shown) =>
    if ← files.isPresent path then readConfig files path shown else return .ok {}
  | none, none => return .ok {}

/-- Sees to the directory of an output file. -/
def prepareDirectory (path : String) (create : Bool) : m (Except FileError Unit) := do
  match (Path.parent? path.toList).map String.ofList with
  | none => return .ok ()
  | some "" => return .ok ()
  | some directory =>
    if ← files.isPresent directory then return .ok ()
    else if create then files.createDirectories directory
    else return .error (.missingDirectory directory)

/-- Copies an output file that is already there aside. -/
def backUp (path : String) (stamp : List Char) : m (Except FileError Unit) := do
  if ← files.isPresent path then
    files.copy path (String.ofList (backupPath path.toList stamp))
  else
    return .ok ()

/-- Writes the text of a sheet to an output file. -/
def writeOutput (path : String) (text : String) (options : Options) (stamp : List Char) :
    m (Except FileError Unit) := do
  match ← prepareDirectory files path options.createDirectories with
  | .error e => return .error e
  | .ok () =>
    match ← if options.backup then backUp files path stamp else pure (.ok ()) with
    | .error e => return .error e
    | .ok () => files.writeBytes path text.toUTF8

/-- Compiles the input file; gives the text for standard output and, if asked for, the progress. -/
def compileFile (input : String) (options : Options) (stamp : List Char) :
    m (Except CompileError (String × List String)) := do
  match ← readText files input with
  | .error e => return .error (.file e)
  | .ok text =>
    match (Source.split input text.toList).compile options with
    | .error e => return .error e
    | .ok sheet =>
      match sheet.renderCsv options with
      | .error e => return .error e
      | .ok csv =>
        let progress := if options.verbose then [sheet.summary] else []
        match options.output with
        | none => return .ok (csv, progress)
        | some path =>
          match ← writeOutput files path csv options stamp with
          | .error e => return .error (.file e)
          | .ok () =>
            let wrote := if options.verbose then ["wrote " ++ path] else []
            return .ok ("", progress ++ wrote)

/-- Runs the command. -/
def run (environment : Environment) (arguments : List String) : m Outcome := do
  match Arguments.read arguments with
  | .error refusal => return .refused refusal
  | .ok arguments =>
    match ← loadConfig files arguments.config environment with
    | .error failure => return .failed failure
    | .ok config =>
      match arguments.options config with
      | .error e => return .failed (.compile e)
      | .ok options =>
        match ← compileFile files arguments.input options environment.stamp with
        | .error e => return .failed (.compile e)
        | .ok (output, progress) => return .done output progress

end

end Spreadsheet.Command

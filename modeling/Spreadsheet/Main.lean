import Spreadsheet.Command.Run
import Std.Time.DateTime.PlainDateTime
import Std.Time.Zoned

/-!
The command line.
-/
namespace Spreadsheet.Command

/-- The number of a failure; some calls give it negated. -/
def failureNumber (code : UInt32) : UInt32 :=
  if code < 0x80000000 then code else 0 - code

/-- The failure of an operation on files, as the system tells it. -/
def systemError (error : IO.Error) : FileError :=
  match error with
  | .noFileOrDirectory .. => .notFound
  | .inappropriateType _ code _ =>
    if failureNumber code = 21 then .isDirectory else .notDirectory
  | .alreadyExists .. => .alreadyExists
  | .permissionDenied _ code _ =>
    if failureNumber code = 13 then .permissionDenied else .other error.toString
  | .invalidArgument _ code _ =>
    if failureNumber code = 36 then .nameTooLong else .other error.toString
  | _ => .other error.toString

def attempt {α : Type} (action : IO α) : IO (Except FileError α) := do
  try
    return .ok (← action)
  catch error =>
    return .error (systemError error)

/-- The files of this machine. -/
def diskFiles : FileSystem IO where
  isPresent path := do
    match ← attempt (IO.FS.Handle.mk path .read) with
    | .error .notFound => return false
    | .error .notDirectory => return false
    | .error .nameTooLong => return false
    | _ => return true
  isDirectory path := do
    match ← attempt (IO.FS.readBinFile path) with
    | .error .isDirectory => return true
    | _ => return false
  readBytes path := attempt (IO.FS.readBinFile path)
  writeBytes path content := attempt (IO.FS.writeBinFile path content)
  makeDirectory path := attempt (IO.FS.createDir path)
  copy source target := do
    match ← attempt (IO.FS.readBinFile source) with
    | .error .isDirectory => return .error .notRegularFile
    | .error e => return .error e
    | .ok content => attempt (IO.FS.writeBinFile target content)

/-- The config file of the user, in the directory for config files. -/
def userConfigPath? : IO (Option String) := do
  let configHome ← IO.getEnv "XDG_CONFIG_HOME"
  let home ← IO.getEnv "HOME"
  let directory? := match configHome.filter (·.startsWith "/"), home with
    | some directory, _ => some directory
    | none, some home => some (home ++ "/.config")
    | none, none => none
  return directory?.map (· ++ "/csvpp/config.toml")

def currentMoment : IO Moment := do
  let now ← Std.Time.PlainDateTime.now
  return {
    year := now.year.toInt
    month := now.month.toNat
    day := now.day.toNat
    hour := now.hour.toNat
    minute := now.minute.toNat
    second := now.second.toNat }

end Spreadsheet.Command

open Spreadsheet Command in
def main (arguments : List String) : IO UInt32 := do
  let userConfig := (← userConfigPath?).map fun path => (path, path)
  let environment : Environment := { userConfig := userConfig, stamp := (← currentMoment).stamp }
  let outcome ← run diskFiles environment arguments
  IO.print outcome.output
  match outcome with
  | .done _ progress => progress.forM fun line => IO.eprintln line
  | .failed failure => IO.eprintln failure.report
  | .refused refusal => unless refusal.isRequest do IO.eprintln refusal.message
  return outcome.exitCode.toUInt32

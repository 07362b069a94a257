import Spreadsheet.Dictionary
import Spreadsheet.Text.Blank
import Spreadsheet.Text.Lines

/-!
What a compilation is told from outside the source file.
-/
namespace Spreadsheet

structure Options where
  /-- Variables with text values, which take the place of definitions in the file. -/
  keyValues : Dictionary String := .empty
  /-- The number of empty rows in front of the sheet. -/
  rowOffset : Nat := 0
  /-- The number of empty columns in front of the sheet. -/
  columnOffset : Nat := 0
  backup : Bool := false
  verbose : Bool := false
  createDirectories : Bool := false
  output : Option String := none
deriving Inhabited

/-- Why a list of variables cannot be read. -/
inductive OptionFault where
  | expectedPair (found : String)
  | missingKey (found : String)
deriving DecidableEq, Inhabited

namespace OptionFault

def message : OptionFault → String
  | .expectedPair found => "expected key=value, got `" ++ found ++ "`"
  | .missingKey found => "missing key in `" ++ found ++ "`"

end OptionFault

namespace Options

/-- Reads `key=value`. The key is trimmed and must not be empty; the value is taken as it is. -/
def readPair (pair : List Char) : Except OptionFault (String × String) :=
  match Text.splitOnce '=' pair with
  | none => .error (.expectedPair (String.ofList (Text.trim pair)))
  | some (key, value) =>
    if Text.trim key = [] then .error (.missingKey (String.ofList (Text.trim pair)))
    else .ok (String.ofList (Text.trim key), String.ofList value)

/-- Adds pairs one after another; the last value given for a key stays. -/
def readPairs (d : Dictionary String) : List (List Char) → Except OptionFault (Dictionary String)
  | [] => .ok d
  | pair :: rest =>
    match readPair pair with
    | .error e => .error e
    | .ok (key, value) => readPairs (d.insert key value) rest

/-- Reads pairs with commas between them; blank ones are passed over. -/
def readKeyValues (s : String) : Except OptionFault (Dictionary String) :=
  readPairs .empty ((Text.splitAt ',' s.toList).filter fun pair => !Text.allBlank pair)

end Options
end Spreadsheet

import Spreadsheet.Path
import Spreadsheet.Text.Digits

/-!
Backups of output files. The copy of a file lies beside it and has the time in its name.
-/
namespace Spreadsheet

/-- A moment by the clock on the wall. -/
structure Moment where
  year : Int
  month : Nat
  day : Nat
  hour : Nat
  minute : Nat
  second : Nat
deriving DecidableEq, Inhabited

namespace Moment

/-- Years have four digits; those that need more, and those before the year zero, have a sign. -/
def yearChars (year : Int) : List Char :=
  let digits := Text.decimalPadded 4 year.natAbs
  if year < 0 then '-' :: digits else if 9999 < year then '+' :: digits else digits

/-- The digits of the moment, from years to seconds. -/
def stamp (m : Moment) : List Char :=
  yearChars m.year ++
    [m.month, m.day, m.hour, m.minute, m.second].flatMap (Text.decimalPadded 2)

end Moment

/-- Where the backup of a file goes: the stamp follows the name, and the file's extension, if it
has one, takes the place of what stands behind the last dot of that. -/
def backupPath (path stamp : List Char) : List Char :=
  let stamped := Path.stem path ++ '-' :: stamp
  match Path.extension? path with
  | some extension => Path.withFileName path (Path.withExtension stamped extension)
  | none => Path.withFileName path stamped

end Spreadsheet

import Spreadsheet.CompileError
import Spreadsheet.Command.Arguments
import Spreadsheet.Command.ConfigText

/-!
The config file, in TOML. It holds lines `key = value` with integers, truth values and texts, and a
table `key_values` of texts; `#` starts a comment. The table has a line `[key_values]` before its
entries, or it is the value of a key, or its entries are given as `key_values.key`. Every key may be
given once, and keys and values that mean nothing are refused.
-/
namespace Spreadsheet.Command

/-- Defaults for what the command line does not say. -/
structure Config where
  keyValues : Option (Dictionary String) := none
  rowOffset : Option Nat := none
  columnOffset : Option Nat := none
  verbose : Option Bool := none
  backup : Option Bool := none
  createDirectories : Option Bool := none
deriving Inhabited

/-- A value in a config file. -/
inductive ConfigValue where
  | integer (value : Int)
  | boolean (value : Bool)
  | text (value : String)
  | table (entries : List (String × String))
deriving DecidableEq, Inhabited

/-- A line of a config file. -/
inductive ConfigLine where
  | blank
  | table (name : String)
  | entry (key : String) (value : ConfigValue)
  /-- An entry of a table that is named in its key. -/
  | member (table key : String) (value : ConfigValue)
deriving DecidableEq, Inhabited

namespace ConfigLine

open ConfigText (isGap skipGap isPlain nextLine?)

/-- Goes on to the next line, if nothing but a comment is left of this one. -/
def finish (s : List Char) : Option (List Char) :=
  let s := match skipGap s with
    | '#' :: comment => comment.dropWhile isPlain
    | s => s
  if s = [] then some [] else nextLine? s

def isBareKeyChar (c : Char) : Bool :=
  c.isAlphanum || c == '_' || c == '-'

/-- Reads a key, bare or in quotes. -/
def readKey (s : List Char) : Option (String × List Char) :=
  match s.takeWhile isBareKeyChar with
  | [] =>
    match ConfigText.readLine s with
    | some (key, rest) => some (String.ofList key, rest)
    | none => none
  | key => some (String.ofList key, s.dropWhile isBareKeyChar)

/-- Whether digits are grouped rightly: every underscore has a digit on either side. -/
def isGrouped (isDigit : Char → Bool) (digits : List Char) : Bool :=
  (Text.splitAt '_' digits).all fun group => group != [] && group.all isDigit

/-- The number that grouped digits stand for in the given base. -/
def groupedValue (base : Nat) (digits : List Char) : Option Nat :=
  if isGrouped (fun c => (Color.hexValue? c).any (· < base)) digits then
    some ((digits.filterMap Color.hexValue?).foldl (fun value digit => base * value + digit) 0)
  else
    none

/-- Integers are below this, two to the power of 63, and not below its negative. -/
def integerLimit : Int :=
  9223372036854775808

/-- Reads an integer: decimal, without leading zeros and with a sign if need be, or in another
base behind `0x`, `0o` or `0b`. -/
def readInteger (s : List Char) : Option Int :=
  let decimal := fun (digits : List Char) =>
    if digits.head? = some '0' ∧ digits ≠ ['0'] then none else groupedValue 10 digits
  let value : Option Int := match s with
    | '0' :: 'x' :: digits => (groupedValue 16 digits).map Int.ofNat
    | '0' :: 'o' :: digits => (groupedValue 8 digits).map Int.ofNat
    | '0' :: 'b' :: digits => (groupedValue 2 digits).map Int.ofNat
    | '-' :: digits => (decimal digits).map fun n => -(n : Int)
    | '+' :: digits => (decimal digits).map Int.ofNat
    | digits => (decimal digits).map Int.ofNat
  value.filter fun value => -integerLimit ≤ value && value < integerLimit

/-- Reads the texts of a table up to its closing brace; `done` is what has been read, in reverse. -/
def readMembers : Nat → List (String × String) → List Char →
    Option (List (String × String) × List Char)
  | 0, _, _ => none
  | fuel + 1, done, s =>
    match readKey (skipGap s) with
    | none => none
    | some (key, rest) =>
      match skipGap rest with
      | '=' :: rest =>
        match ConfigText.read (skipGap rest) with
        | none => none
        | some (value, rest) =>
          let done := (key, String.ofList value) :: done
          match skipGap rest with
          | ',' :: rest => readMembers fuel done rest
          | '\x7d' :: rest => some (done.reverse, rest)
          | _ => none
      | _ => none

/-- Reads a table behind its opening brace. -/
def readBraces (s : List Char) : Option (ConfigValue × List Char) :=
  match skipGap s with
  | '\x7d' :: rest => some (.table [], rest)
  | s =>
    match readMembers s.length [] s with
    | some (entries, rest) => some (.table entries, rest)
    | none => none

/-- Whether a character belongs to an integer or a truth value. -/
def isWordChar (c : Char) : Bool :=
  !isGap c && c != '#' && c != '\n' && c != '\r'

/-- Reads an integer or a truth value. -/
def readWord (word : List Char) : Option ConfigValue :=
  if word = "true".toList then some (.boolean true)
  else if word = "false".toList then some (.boolean false)
  else (readInteger word).map .integer

/-- Reads a value and gives the text behind it. -/
def readValue (s : List Char) : Option (ConfigValue × List Char) :=
  match s with
  | '\x7b' :: rest => readBraces rest
  | _ =>
    match ConfigText.read s with
    | some (value, rest) => some (.text (String.ofList value), rest)
    | none =>
      (readWord (s.takeWhile isWordChar)).map fun value => (value, s.dropWhile isWordChar)

/-- Reads `name]`. -/
def readTable (s : List Char) : Option (ConfigLine × List Char) :=
  match readKey (skipGap s) with
  | none => none
  | some (name, rest) =>
    match skipGap rest with
    | ']' :: rest => some (.table name, rest)
    | _ => none

/-- Reads `= value`; `line` makes the line from the value. -/
def readAssigned (line : ConfigValue → ConfigLine) (s : List Char) :
    Option (ConfigLine × List Char) :=
  match skipGap s with
  | '=' :: rest => (readValue (skipGap rest)).map fun (value, rest) => (line value, rest)
  | _ => none

/-- Reads `key = value` or `table.key = value`. -/
def readEntry (s : List Char) : Option (ConfigLine × List Char) :=
  match readKey s with
  | none => none
  | some (key, rest) =>
    match skipGap rest with
    | '.' :: rest =>
      match readKey (skipGap rest) with
      | some (inner, rest) => readAssigned (.member key inner) rest
      | none => none
    | rest => readAssigned (.entry key) rest

/-- Reads a line and gives the lines behind it. -/
def read (s : List Char) : Option (ConfigLine × List Char) :=
  let line := match skipGap s with
    | '[' :: rest => readTable rest
    | s => if (finish s).isSome then some (.blank, s) else readEntry s
  match line with
  | none => none
  | some (line, rest) => (finish rest).map fun rest => (line, rest)

end ConfigLine

namespace Config

/-- Sets a field that has not been set. -/
def once {α : Type} (field : Option α) (value : Option α) : Option (Option α) :=
  match field, value with
  | none, some value => some (some value)
  | _, _ => none

def count? : ConfigValue → Option Nat
  | .integer value => if 0 ≤ value then some value.toNat else none
  | _ => none

def boolean? : ConfigValue → Option Bool
  | .boolean value => some value
  | _ => none

/-- Sets a field outside all tables. -/
def setField (c : Config) (key : String) (value : ConfigValue) : Option Config :=
  match key with
  | "offset_rows" => (once c.rowOffset (count? value)).map fun n => { c with rowOffset := n }
  | "offset_columns" =>
    (once c.columnOffset (count? value)).map fun n => { c with columnOffset := n }
  | "verbose" => (once c.verbose (boolean? value)).map fun b => { c with verbose := b }
  | "backup" => (once c.backup (boolean? value)).map fun b => { c with backup := b }
  | "create" =>
    (once c.createDirectories (boolean? value)).map fun b => { c with createDirectories := b }
  | _ => none

/-- Sets an entry of the table `key_values`. -/
def setKeyValue (c : Config) (key value : String) : Option Config :=
  let entries := c.keyValues.getD .empty
  if entries.contains key then none
  else some { c with keyValues := some (entries.insert key value) }

/-- Sets several entries of the table `key_values`, which may be none. -/
def setKeyValues (c : Config) : List (String × String) → Option Config
  | [] => some { c with keyValues := some (c.keyValues.getD .empty) }
  | (key, value) :: rest =>
    match c.setKeyValue key value with
    | none => none
    | some c => c.setKeyValues rest

/-- In which way the table `key_values` is given. -/
inductive TableForm where
  | absent
  /-- Its name stands before its entries, which are all that follows. -/
  | lines
  /-- It is the value of a key. -/
  | value
  /-- Its entries have its name in their keys. -/
  | members
deriving DecidableEq, Inhabited

/-- Takes up a line. The table `key_values` cannot be given in two ways. -/
def addLine (c : Config) (form : TableForm) (line : ConfigLine) : Option (Config × TableForm) :=
  match line, form with
  | .blank, _ => some (c, form)
  | .table "key_values", .absent => (c.setKeyValues []).map (·, .lines)
  | .entry key (.text value), .lines => (c.setKeyValue key value).map (·, .lines)
  | _, .lines => none
  | .entry "key_values" (.table entries), .absent => (c.setKeyValues entries).map (·, .value)
  | .entry key value, _ => (c.setField key value).map (·, form)
  | .member "key_values" _ _, .value => none
  | .member "key_values" key (.text value), _ => (c.setKeyValue key value).map (·, .members)
  | _, _ => none

/-- Reads lines one after another, at most `fuel` of them. -/
def addLines : Nat → Config → TableForm → List Char → Option Config
  | _, c, _, [] => some c
  | 0, _, _, _ :: _ => none
  | fuel + 1, c, form, s =>
    match ConfigLine.read s with
    | none => none
    | some (line, rest) =>
      match c.addLine form line with
      | none => none
      | some (c, form) => addLines fuel c form rest

/-- The text behind a byte order mark, if there is one. -/
def withoutMark : List Char → List Char
  | '\ufeff' :: rest => rest
  | text => text

/-- Reads a config file. -/
def read (text : List Char) : Option Config :=
  addLines text.length {} .absent (withoutMark text)

end Config

/-- What the arguments and the config file together ask for. The arguments come first; a flag is
raised by either; variables are merged, and of two with one name the argument's stays. -/
def Arguments.options (a : Arguments) (c : Config) : Except CompileError Options :=
  let given := match a.keyValues with
    | some text => Options.readKeyValues text
    | none => .ok .empty
  match given with
  | .error fault => .error (.option fault)
  | .ok given =>
    .ok { keyValues := (c.keyValues.getD .empty).insertAll given.entries
          rowOffset := (a.rowOffset <|> c.rowOffset).getD 0
          columnOffset := (a.columnOffset <|> c.columnOffset).getD 0
          backup := a.backup || c.backup.getD false
          verbose := a.verbose || c.verbose.getD false
          createDirectories := a.createDirectories || c.createDirectories.getD false
          output := a.output }

end Spreadsheet.Command

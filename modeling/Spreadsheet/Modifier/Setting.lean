import Spreadsheet.Modifier.Basic
import Spreadsheet.Text.Case
import Spreadsheet.Text.Digits

/-!
Single settings. A key and a value are read as a setting, which then changes one part of a
modifier. Keys and keywords are compared with ASCII letters in lower case.
-/
namespace Spreadsheet

/-- Why modifiers cannot be read. -/
inductive ModifierError where
  | unknownKey (key : String)
  | invalidValue (key value : String)
  | missingValue (key : String)
  | rowOnly (key : String)
  | rowModifierNotFirst
  | unterminated
  | expectedName (found : String)
  | expectedSeparator (found : String)
deriving DecidableEq, Inhabited

namespace ModifierError

def message : ModifierError → String
  | .unknownKey key => "unknown modifier `" ++ key ++ "`"
  | .invalidValue key value => "invalid value `" ++ value ++ "` for modifier `" ++ key ++ "`"
  | .missingValue key => "modifier `" ++ key ++ "` needs a value"
  | .rowOnly key => "modifier `" ++ key ++ "` is only valid on a whole row (`![[...]]`)"
  | .rowModifierNotFirst => "row modifiers (`![[...]]`) are only allowed on the first cell"
  | .unterminated => "unterminated modifier, expected `]]`"
  | .expectedName found => "expected a modifier name at `" ++ found ++ "`"
  | .expectedSeparator found => "expected `/` or `]]` at `" ++ found ++ "`"

end ModifierError

/-- The names of settings. -/
inductive SettingKey where
  | align
  | border
  | borderColor
  | borderStyle
  | color
  | expand
  | fontColor
  | fontFamily
  | fontSize
  | format
  | freeze
  | horizontalAlign
  | verticalAlign
  | note
  | numberFormat
  | validate
  | boundName
deriving DecidableEq, Inhabited

/-- A setting with its value. -/
inductive Setting where
  | horizontalAlign (value : HorizontalAlign)
  | verticalAlign (value : VerticalAlign)
  | border (value : BorderSide)
  | borderColor (value : Color)
  | borderStyle (value : BorderStyle)
  | color (value : Color)
  | fontColor (value : Color)
  | fontFamily (value : String)
  | fontSize (value : Nat)
  | format (value : TextFormat)
  | note (value : String)
  | numberFormat (value : NumberFormat)
  | validate (value : String)
  | boundName (value : String)
  | expand (amount : Option Nat)
  | freeze
deriving DecidableEq, Inhabited

namespace SettingKey

/-- Every spelling of every key. -/
def spellings : List (String × SettingKey) :=
  [("align", .align), ("border", .border), ("b", .border), ("bordercolor", .borderColor),
    ("bc", .borderColor), ("borderstyle", .borderStyle), ("bs", .borderStyle),
    ("color", .color), ("c", .color), ("expand", .expand), ("e", .expand),
    ("fontcolor", .fontColor), ("fc", .fontColor), ("fontfamily", .fontFamily),
    ("ff", .fontFamily), ("fontsize", .fontSize), ("fs", .fontSize), ("format", .format),
    ("f", .format), ("freeze", .freeze), ("halign", .horizontalAlign),
    ("ha", .horizontalAlign), ("valign", .verticalAlign), ("va", .verticalAlign),
    ("note", .note), ("n", .note), ("numberformat", .numberFormat), ("nf", .numberFormat),
    ("validate", .validate), ("var", .boundName)]

end SettingKey

/-- The keywords of a kind of value. -/
abbrev Keywords (α : Type) := List (String × α)

namespace Keywords

variable {α : Type}

/-- The meaning of a keyword in any mixture of ASCII cases. -/
def read (keywords : Keywords α) (value : String) : Option α :=
  keywords.lookup (String.ofList (Text.lowerAscii value.toList))

def horizontalAlign : Keywords HorizontalAlign :=
  [("left", .left), ("l", .left), ("center", .center), ("c", .center), ("right", .right),
    ("r", .right)]

def verticalAlign : Keywords VerticalAlign :=
  [("top", .top), ("t", .top), ("center", .center), ("c", .center), ("bottom", .bottom),
    ("b", .bottom)]

def borderSide : Keywords BorderSide :=
  [("all", .all), ("a", .all), ("top", .top), ("t", .top), ("bottom", .bottom), ("b", .bottom),
    ("left", .left), ("l", .left), ("right", .right), ("r", .right)]

def borderStyle : Keywords BorderStyle :=
  [("dashed", .dashed), ("dash", .dashed), ("dotted", .dotted), ("dot", .dotted),
    ("double", .double), ("dbl", .double), ("solid", .solid), ("1", .solid),
    ("solid_medium", .solidMedium), ("solidmedium", .solidMedium), ("2", .solidMedium),
    ("solid_thick", .solidThick), ("solidthick", .solidThick), ("3", .solidThick)]

def textFormat : Keywords TextFormat :=
  [("bold", .bold), ("b", .bold), ("italic", .italic), ("i", .italic),
    ("strikethrough", .strikethrough), ("s", .strikethrough), ("underline", .underline),
    ("u", .underline)]

def numberFormat : Keywords NumberFormat :=
  [("currency", .currency), ("c", .currency), ("date", .date), ("d", .date),
    ("datetime", .dateTime), ("dt", .dateTime), ("number", .number), ("n", .number),
    ("percent", .percent), ("p", .percent), ("text", .text), ("t", .text), ("time", .time),
    ("tm", .time), ("timeduration", .timeDuration), ("td", .timeDuration)]

end Keywords

/-- The number of rows that a row without an amount fills the sheet up to. -/
def sheetRows : Nat :=
  1000

namespace Setting

/-- Whether a text can name a variable. -/
def isVariableName (s : List Char) : Bool :=
  match s with
  | [] => false
  | c :: rest => (c.isAlpha || c == '_') && rest.all fun c => c.isAlphanum || c == '_'

/-- Font sizes are below this, two to the power of 32. -/
def fontSizeLimit : Nat :=
  4294967296

/-- Reads an amount of rows: at least one and at most a sheet full. -/
def readAmount (value : String) : Option Nat :=
  (Text.readUnsigned Text.indexLimit (Text.trim value.toList)).filter fun amount =>
    1 ≤ amount && amount ≤ sheetRows

/-- Reads the value of a key that needs one. For `align` a word that fits both axes is taken for
the horizontal one. -/
def readValue (key : SettingKey) (value : String) : Option Setting :=
  let trimmed := Text.trim value.toList
  match key with
  | .align =>
    match Keywords.horizontalAlign.read value with
    | some align => some (.horizontalAlign align)
    | none => (Keywords.verticalAlign.read value).map .verticalAlign
  | .horizontalAlign => (Keywords.horizontalAlign.read value).map .horizontalAlign
  | .verticalAlign => (Keywords.verticalAlign.read value).map .verticalAlign
  | .border => (Keywords.borderSide.read value).map .border
  | .borderColor => (Color.read value.toList).map .borderColor
  | .borderStyle => (Keywords.borderStyle.read value).map .borderStyle
  | .color => (Color.read value.toList).map .color
  | .fontColor => (Color.read value.toList).map .fontColor
  | .fontFamily => some (.fontFamily (String.ofList trimmed))
  | .fontSize => (Text.readUnsigned fontSizeLimit trimmed).map .fontSize
  | .format => (Keywords.textFormat.read value).map .format
  | .note => some (.note value)
  | .numberFormat => (Keywords.numberFormat.read value).map .numberFormat
  | .validate => some (.validate (String.ofList trimmed))
  | .boundName => if isVariableName trimmed then some (.boundName (String.ofList trimmed)) else none
  | .expand => (readAmount value).map fun amount => .expand (some amount)
  | .freeze => some .freeze

/-- Reads a key and its value, if it has one. `expand` and `freeze` are for rows only and can do
without a value. -/
def read (key : String) (value : Option String) (row : Bool) : Except ModifierError Setting :=
  let written := String.ofList (Text.lowerAscii (Text.trim key.toList))
  match SettingKey.spellings.lookup written with
  | none => .error (.unknownKey written)
  | some key =>
    if (key = .expand ∨ key = .freeze) ∧ !row then .error (.rowOnly written)
    else
      match key, value with
      | .freeze, _ => .ok .freeze
      | .expand, none => .ok (.expand none)
      | _, none => .error (.missingValue written)
      | key, some value =>
        match readValue key value with
        | some setting => .ok setting
        | none => .error (.invalidValue written value)

end Setting

namespace BorderSide

def sides : List BorderSide :=
  [.all, .top, .bottom, .left, .right]

end BorderSide

namespace TextFormat

def formats : List TextFormat :=
  [.bold, .italic, .strikethrough, .underline]

end TextFormat

namespace Modifier

/-- The members of `members` that are `item` or in `set`, in the order of `members`. -/
def insertOrdered {α : Type} [DecidableEq α] (members : List α) (item : α) (set : List α) :
    List α :=
  members.filter fun member => member == item || set.contains member

/-- The modifier with one setting changed. Borders and formats add up. -/
def apply (m : Modifier) : Setting → Modifier
  | .horizontalAlign value => { m with horizontalAlign := some value }
  | .verticalAlign value => { m with verticalAlign := some value }
  | .border value => { m with borders := insertOrdered BorderSide.sides value m.borders }
  | .borderColor value => { m with borderColor := some value }
  | .borderStyle value => { m with borderStyle := some value }
  | .color value => { m with color := some value }
  | .fontColor value => { m with fontColor := some value }
  | .fontFamily value => { m with fontFamily := some value }
  | .fontSize value => { m with fontSize := some value }
  | .format value => { m with formats := insertOrdered TextFormat.formats value m.formats }
  | .note value => { m with note := some value }
  | .numberFormat value => { m with numberFormat := some value }
  | .validate value => { m with validate := some value }
  | .boundName value => { m with boundName := some value }
  | .expand amount => { m with expand := some { amount := amount } }
  | .freeze => { m with freeze := true }

/-- Reads a key and its value and changes the modifier accordingly. -/
def set (m : Modifier) (key : String) (value : Option String) (row : Bool) :
    Except ModifierError Modifier :=
  match Setting.read key value row with
  | .ok setting => .ok (m.apply setting)
  | .error e => .error e

/-- Reads a key and its value and changes a modifier where it is. A failure does not undo what has
been changed before it. -/
def change (key : String) (value : Option String) (row : Bool) :
    ExceptT ModifierError (StateM Modifier) Unit := do
  let setting ← Setting.read key value row
  modify fun m => m.apply setting

/-- Changes the modifier where it is: how that ends and the modifier then. -/
def setInPlace (m : Modifier) (key : String) (value : Option String) (row : Bool) :
    Except ModifierError Unit × Modifier :=
  (change key value row).run.run m

end Modifier
end Spreadsheet

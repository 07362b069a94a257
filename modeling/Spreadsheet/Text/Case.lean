import Spreadsheet.Text.CaseRuns
import Spreadsheet.Text.CasedRanges
import Spreadsheet.Text.WordChar

/-!
Lower and upper case of whole texts. A character may map to several; a capital sigma maps to the
final sigma where it ends a word. Names are compared by their lower-case form.
-/
namespace Spreadsheet.Text

/-- The code point that the run gives for `n`, if `n` is one of its members. -/
def CaseRun.map? (run : CaseRun) (n : Nat) : Option Nat :=
  if run.first ≤ n && n ≤ run.last && (n - run.first) % run.step == 0 then
    some (n + run.shift).toNat
  else
    none

/-- A character outside ASCII through a case mapping. -/
def mapCase (runs : List CaseRun) (special : List (Nat × List Nat)) (c : Char) : List Char :=
  match special.lookup c.toNat with
  | some mapped => mapped.map Char.ofNat
  | none =>
    match runs.findSome? fun run => run.map? c.toNat with
    | some mapped => [Char.ofNat mapped]
    | none => [c]

/-- The lower-case form of a single character. -/
def lowerChar (c : Char) : List Char :=
  if c.toNat < 128 then [c.toLower] else mapCase lowerRuns lowerSpecial c

/-- The upper-case form of a single character. -/
def upperChar (c : Char) : List Char :=
  if c.toNat < 128 then [c.toUpper] else mapCase upperRuns upperSpecial c

/-- Whether the first character that case mapping does not look past is cased. -/
def startsCased (s : List Char) : Bool :=
  match s.dropWhile fun c => inRanges caseIgnorableRanges c.toNat with
  | [] => false
  | c :: _ => inRanges casedRanges c.toNat

/-- Lower case of a text that follows `before`, which is held in reverse. -/
def lowerAfter (before : List Char) : List Char → List Char
  | [] => []
  | c :: rest =>
    let mapped :=
      if c = 'Σ' then
        -- a sigma ends a word when a cased character stands before it and none after it
        if startsCased before && !startsCased rest then ['ς'] else ['σ']
      else
        lowerChar c
    mapped ++ lowerAfter (c :: before) rest

/-- The text in lower case. -/
def lower (s : String) : String :=
  String.ofList (lowerAfter [] s.toList)

/-- The text in upper case. -/
def upper (s : String) : String :=
  String.ofList (s.toList.flatMap upperChar)

/-- The text with its ASCII letters in lower case and everything else as it is. -/
def lowerAscii (s : List Char) : List Char :=
  s.map Char.toLower

end Spreadsheet.Text

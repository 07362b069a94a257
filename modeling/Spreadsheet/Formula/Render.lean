import Spreadsheet.Address.A1
import Spreadsheet.Builtin
import Spreadsheet.Formula.Operator
import Spreadsheet.Number.Shortest

/-!
The text of a formula, as it is seen from a cell. Parentheses stand where an operand binds less
strongly than its operator, or as strongly on the right.
-/
namespace Spreadsheet

/-- The texts with `separator` between them. -/
def joinChars (separator : List Char) : List (List Char) → List Char
  | [] => []
  | [s] => s
  | s :: rest => s ++ separator ++ joinChars separator rest

namespace Date

/-- A date is written as a call that makes it. -/
def renderChars (d : Date) : List Char :=
  "DATE(".toList ++ (toString d.year).toList ++ ", ".toList ++ Text.decimal d.month ++
    ", ".toList ++ Text.decimal d.day ++ ")".toList

end Date

namespace Literal

def renderChars (p : Position) : Literal → List Char
  | .number value => value.render
  | .text value => Text.enclose '"' value.toList
  | .boolean true => "TRUE".toList
  | .boolean false => "FALSE".toList
  | .date value => value.renderChars
  | .cell address (some _) => (address.withRow p.row).renderChars
  | .cell address none => address.renderChars

end Literal

namespace Formula

/-- How strongly an operator with the given number of operands binds. -/
def callStrength? (id : String) (operands : Nat) : Option Nat :=
  if operands = 1 then some Operator.unaryStrength else Operator.strength? id

/-- How strongly the root of a tree binds, if it is an operator. -/
def strength? : Formula → Option Nat
  | .call .operator id arguments => callStrength? id arguments.length
  | _ => none

def isOperatorCall : Formula → Bool
  | .call .operator _ _ => true
  | _ => false

/-- The text of an operand below an operator of the given strength. -/
def operandChars (parent : Nat) (onRight : Bool) (f : Formula) (text : List Char) : List Char :=
  let own := f.strength?.getD 0
  if f.isOperatorCall && (own < parent || (onRight && own == parent)) then
    '(' :: text ++ [')']
  else
    text

/-- The text of a call, given the texts of its arguments. -/
def callChars (form : CallForm) (id : String) (arguments : List Formula)
    (texts : List (List Char)) : List Char :=
  let parent := (callStrength? id arguments.length).getD 0
  match form, arguments, texts with
  | .operator, [operand], [text] => id.toList ++ operandChars parent false operand text
  | .operator, [left, right], [leftText, rightText] =>
    operandChars parent false left leftText ++ ' ' :: id.toList ++
      ' ' :: operandChars parent true right rightText
  | _, _, _ => (Text.upper id).toList ++ '(' :: joinChars [',', ' '] texts ++ [')']

/-- A name is written as the address that it spells, if it spells one. -/
def nameChars (id : String) : List Char :=
  match Address.read id with
  | some address => address.renderChars
  | none => id.toList

mutual

/-- The text of a formula as seen from `p`. -/
def renderChars (p : Position) : Formula → List Char
  | .literal value => value.renderChars p
  | .name id => nameChars id
  | .call form id arguments => callChars form id arguments (renderAllChars p arguments)
  | .function _ _ body => renderChars p body
  | .builtin (.ofVariable v) => (v.value p).renderChars p
  | .builtin (.ofFunction _) => "#REF!".toList
termination_by structural f => f

/-- The texts of formulas as seen from `p`. -/
def renderAllChars (p : Position) : List Formula → List (List Char)
  | [] => []
  | f :: rest => renderChars p f :: renderAllChars p rest
termination_by structural fs => fs

end

/-- The text of a formula as seen from `p`. -/
def render (p : Position) (f : Formula) : String :=
  String.ofList (f.renderChars p)

theorem renderAllChars_eq (p : Position) (fs : List Formula) :
    renderAllChars p fs = fs.map (renderChars p) := by
  induction fs with
  | nil => rfl
  | cons f rest ih => simp [renderAllChars, ih]

end Formula
end Spreadsheet

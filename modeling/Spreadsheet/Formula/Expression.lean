import Spreadsheet.Address.A1
import Spreadsheet.Error
import Spreadsheet.Formula.Basic
import Spreadsheet.Formula.Operator
import Spreadsheet.Number.Decimal
import Spreadsheet.Text.Case

/-!
Expressions, read from tokens. The grammar, weakest level first:

    expression  →  comparison
    comparison  →  concatenation (("=" | "<>" | "<" | ">" | "<=" | ">=") concatenation)*
    concatenation → sum ("&" sum)*
    sum         →  product (("+" | "-") product)*
    product     →  power (("*" | "/") power)*
    power       →  unary ("^" unary)*
    unary       →  ("-" | "+") unary | primary
    primary     →  number | text | boolean | date | address | "$$" name
                 | name "(" arguments? ")" | name | "(" expression ")"

Each reading leaves fewer tokens than it was given, so that it comes to an end.
-/
namespace Spreadsheet.Expression

theorem length_lt_cons (t : Token) (rest : List Token) : rest.length < (t :: rest).length :=
  Nat.lt_succ_self _

theorem length_lt_cons_cons {rest rest' : List Token} (h : rest'.length < rest.length)
    (t next : Token) : rest'.length < (t :: next :: rest).length := by
  simp only [List.length_cons]
  omega

/-- What was read from the front of `ts` and the tokens behind it. -/
abbrev Reading (α : Type) (ts : List Token) : Type :=
  Except Misfit (α × { rest : List Token // rest.length < ts.length })

/-- The token at which reading stands; `finish` is the one behind the last. -/
def current (finish : Token) : List Token → Token
  | [] => finish
  | t :: _ => t

/-- Something else than the current token should stand here. -/
def expected (finish : Token) (what : String) (ts : List Token) : Misfit :=
  let found := current finish ts
  { fault := .expected what found, offset := found.offset }

/-- The text of a quoted token. -/
def unquote (s : List Char) : List Char :=
  Text.undouble '"' s.tail.dropLast

/-- The formula that a token is by itself, if it is one. -/
def leaf? (t : Token) : Option (Except Misfit Formula) :=
  let chars := t.text.toList
  match t.kind with
  | .number => some (.ok (.number (Number.ofDecimalText chars)))
  | .text => some (.ok (.text (String.ofList (unquote chars))))
  | .boolean => some (.ok (.literal (.boolean (Text.lowerAscii chars == "true".toList))))
  | .date =>
    match Date.read chars with
    | some date => some (.ok (.literal (.date date)))
    | none => some (.error { fault := .invalidDate, offset := t.offset })
  | .address =>
    match Address.readChars chars with
    | some address => some (.ok (.cell address))
    | none => some (.error { fault := .invalidAddress t.text, offset := t.offset })
  | .dollarName => some (.ok (.reference (String.ofList (chars.drop 2))))
  | _ => none

/-- A minus in front of a number belongs to the number. -/
def negate : Formula → Formula
  | .literal (.number value) => .number value.neg
  | operand => .unary "-" operand

def isOperator (t : Token) (text : String) : Bool :=
  t.kind == .operator && t.text == text

mutual

/-- Reads operands and operators of the given levels, the weakest first. -/
def readLevels (finish : Token) (levels : List (List String)) (ts : List Token) :
    Reading Formula ts :=
  match levels with
  | [] => readUnary finish ts
  | operators :: tighter =>
    match readLevels finish tighter ts with
    | .error misfit => .error misfit
    | .ok (left, ⟨rest, _⟩) =>
      match readChain finish operators tighter left rest with
      | .error misfit => .error misfit
      | .ok (formula, ⟨rest', _⟩) => .ok (formula, ⟨rest', by omega⟩)
termination_by (ts.length, levels.length + 2)

/-- Reads further operands of one level and groups them to the left. -/
def readChain (finish : Token) (operators : List String) (tighter : List (List String))
    (left : Formula) (ts : List Token) :
    Except Misfit (Formula × { rest : List Token // rest.length ≤ ts.length }) :=
  match ts with
  | [] => .ok (left, ⟨[], Nat.le_refl _⟩)
  | t :: rest =>
    if t.kind == .operator && operators.contains t.text then
      match readLevels finish tighter rest with
      | .error misfit => .error misfit
      | .ok (right, ⟨rest', _⟩) =>
        match readChain finish operators tighter (.binary t.text left right) rest' with
        | .error misfit => .error misfit
        | .ok (formula, ⟨rest'', _⟩) =>
          .ok (formula, ⟨rest'', by simp only [List.length_cons]; omega⟩)
    else
      .ok (left, ⟨t :: rest, Nat.le_refl _⟩)
termination_by (ts.length, 0)

/-- Reads signs and the operand behind them. -/
def readUnary (finish : Token) (ts : List Token) : Reading Formula ts :=
  match ts with
  | [] => .error { fault := .unexpected finish, offset := finish.offset }
  | t :: rest =>
    if isOperator t "-" then
      match readUnary finish rest with
      | .error misfit => .error misfit
      | .ok (operand, ⟨rest', _⟩) =>
        .ok (negate operand, ⟨rest', by simp only [List.length_cons]; omega⟩)
    else if isOperator t "+" then
      match readUnary finish rest with
      | .error misfit => .error misfit
      | .ok (operand, ⟨rest', _⟩) =>
        .ok (operand, ⟨rest', by simp only [List.length_cons]; omega⟩)
    else
      readPrimary finish t rest
termination_by (ts.length, 1)

/-- Reads a leaf, a call or an expression in parentheses that starts with the token `t`. -/
def readPrimary (finish : Token) (t : Token) (rest : List Token) : Reading Formula (t :: rest) :=
  match leaf? t with
  | some (.ok formula) => .ok (formula, ⟨rest, by simp⟩)
  | some (.error misfit) => .error misfit
  | none =>
    match t.kind with
    | .identifier =>
      match rest with
      | [] => .ok (.reference t.text, ⟨[], by simp⟩)
      | next :: rest' =>
        if next.kind = .opening then
          match readArguments finish rest' with
          | .error misfit => .error misfit
          | .ok (arguments, ⟨rest'', _⟩) =>
            .ok (.namedCall t.text arguments,
              ⟨rest'', by simp only [List.length_cons]; omega⟩)
        else
          .ok (.reference t.text, ⟨next :: rest', by simp⟩)
    | .opening =>
      match readLevels finish Operator.levels rest with
      | .error misfit => .error misfit
      | .ok (_, ⟨[], _⟩) => .error (expected finish "`)`" [])
      | .ok (formula, ⟨next :: rest', _⟩) =>
        if next.kind = .closing then
          .ok (formula, ⟨rest', by simp only [List.length_cons] at *; omega⟩)
        else
          .error (expected finish "`)`" (next :: rest'))
    | _ => .error { fault := .unexpected t, offset := t.offset }
termination_by (rest.length + 1, 0)

/-- Reads the arguments of a call behind its opening parenthesis, and the closing one. -/
def readArguments (finish : Token) (ts : List Token) : Reading (List Formula) ts :=
  match ts with
  | [] => .error { fault := .unexpected finish, offset := finish.offset }
  | t :: rest =>
    if t.kind = .closing then .ok ([], ⟨rest, by simp⟩)
    else readArgumentList finish (t :: rest)
termination_by (ts.length, 9)

/-- Reads arguments with commas between them and the closing parenthesis. -/
def readArgumentList (finish : Token) (ts : List Token) : Reading (List Formula) ts :=
  match readLevels finish Operator.levels ts with
  | .error misfit => .error misfit
  | .ok (_, ⟨[], _⟩) => .error (expected finish "`,` or `)` in argument list" [])
  | .ok (formula, ⟨next :: rest, _⟩) =>
    if next.kind = .comma then
      match readArgumentList finish rest with
      | .error misfit => .error misfit
      | .ok (arguments, ⟨rest', _⟩) =>
        .ok (formula :: arguments, ⟨rest', by simp only [List.length_cons] at *; omega⟩)
    else if next.kind = .closing then
      .ok ([formula], ⟨rest, by simp only [List.length_cons] at *; omega⟩)
    else
      .error (expected finish "`,` or `)` in argument list" (next :: rest))
termination_by (ts.length, 8)
decreasing_by
  all_goals simp only [List.length_cons, List.length_nil, Operator.levels] at *
  all_goals omega

end

/-- Reads one expression from the front of `ts`. -/
def read (finish : Token) (ts : List Token) : Reading Formula ts :=
  readLevels finish Operator.levels ts

end Spreadsheet.Expression

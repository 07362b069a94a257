import Spreadsheet.Formula.Expression
import Spreadsheet.Token.Lexer

/-!
Formulas and definition sections, read from text.

A formula is an `=` and one expression. A definition section is a row of definitions, of variables
(`name := expression`) and of functions (`def name(formals) expression`).
-/
namespace Spreadsheet

namespace Formula

/-- Reads the tokens of a formula behind its `=`. -/
def ofTokens (finish : Token) (ts : List Token) : Except Misfit Formula :=
  if ts.isEmpty then .error { fault := .emptyFormula, offset := finish.offset }
  else
    match Expression.read finish ts with
    | .error misfit => .error misfit
    | .ok (formula, ⟨[], _⟩) => .ok formula
    | .ok (_, ⟨t :: _, _⟩) => .error { fault := .unexpectedAfter t, offset := t.offset }

/-- Reads the text of a formula behind its `=`. -/
def parseBody (body : List Char) : Except SyntaxError Formula :=
  match Grammar.formula.tokens body with
  | .error misfit => .error (misfit.locate body)
  | .ok ts =>
    match ofTokens (Grammar.finish body) ts with
    | .error misfit => .error (misfit.locate body)
    | .ok formula => .ok formula

/-- Reads a formula. Blanks may stand before its `=`. -/
def parse (input : String) : Except SyntaxError Formula :=
  match Text.trimStart input.toList with
  | '=' :: body => parseBody body
  | _ => .error { fault := .missingEquals, offset := 0, remaining := input }

end Formula

/-- What a definition section defines, in the order of the source. -/
structure Definitions where
  /-- The variables with their values. -/
  values : List (String × Formula) := []
  functions : List Function := []
deriving Inhabited

namespace Definitions

open Expression

/-- Reads the token of the given kind. -/
def readToken (finish : Token) (kind : TokenKind) (what : String) (ts : List Token) :
    Reading Token ts :=
  match ts with
  | [] => .error (expected finish what [])
  | t :: rest =>
    if t.kind = kind then .ok (t, ⟨rest, length_lt_cons t rest⟩)
    else .error (expected finish what (t :: rest))

/-- Reads formals with commas between them. `seen` are those before them; no two formals may have
the same name. -/
def readFormals (finish : Token) (function : String) (seen : List String) (ts : List Token) :
    Reading (List String) ts :=
  match readToken finish .identifier "an argument name" ts with
  | .error misfit => .error misfit
  | .ok (t, ⟨rest, _⟩) =>
    let formal := Text.lower t.text
    if seen.contains formal then
      .error { fault := .duplicateFormal t.text function, offset := t.offset }
    else
      match rest with
      | [] => .ok ([formal], ⟨[], by assumption⟩)
      | next :: rest' =>
        if next.kind = .comma then
          match readFormals finish function (seen ++ [formal]) rest' with
          | .error misfit => .error misfit
          | .ok (formals, ⟨rest'', _⟩) =>
            .ok (formal :: formals, ⟨rest'', by simp only [List.length_cons] at *; omega⟩)
        else
          .ok ([formal], ⟨next :: rest', by assumption⟩)
termination_by ts.length
decreasing_by simp only [List.length_cons] at *; omega

/-- Reads the formals of a function behind its opening parenthesis; there may be none. -/
def readFormalsOrNone (finish : Token) (function : String) (ts : List Token) :
    Except Misfit (List String × { rest : List Token // rest.length ≤ ts.length }) :=
  if (current finish ts).kind = .closing then .ok ([], ⟨ts, Nat.le_refl _⟩)
  else
    match readFormals finish function [] ts with
    | .error misfit => .error misfit
    | .ok (formals, ⟨rest, _⟩) => .ok (formals, ⟨rest, by omega⟩)

/-- Reads a function behind its `def`. -/
def readFunction (finish : Token) (ts : List Token) : Reading Function ts :=
  match readToken finish .identifier "a function name" ts with
  | .error misfit => .error misfit
  | .ok (t, ⟨rest, _⟩) =>
    match readToken finish .opening "`(`" rest with
    | .error misfit => .error misfit
    | .ok (_, ⟨rest, _⟩) =>
      match readFormalsOrNone finish t.text rest with
      | .error misfit => .error misfit
      | .ok (formals, ⟨rest, _⟩) =>
        match readToken finish .closing "`)`" rest with
        | .error misfit => .error misfit
        | .ok (_, ⟨rest, _⟩) =>
          match Expression.read finish rest with
          | .error misfit => .error misfit
          | .ok (body, ⟨rest, _⟩) => .ok (Function.define t.text formals body, ⟨rest, by omega⟩)

def addVariable (d : Definitions) (id : String) (value : Formula) : Definitions :=
  { d with values := (id, value) :: d.values }

def addFunction (d : Definitions) (f : Function) : Definitions :=
  { d with functions := f :: d.functions }

/-- Reads a variable and its value. -/
def readVariable (finish : Token) (ts : List Token) : Reading (String × Formula) ts :=
  match ts with
  | t :: next :: rest =>
    if t.kind = .identifier ∧ next.kind = .assign then
      match Expression.read finish rest with
      | .error misfit => .error misfit
      | .ok (value, ⟨rest', h⟩) =>
        .ok ((Text.lower t.text, value), ⟨rest', length_lt_cons_cons h t next⟩)
    else
      .error (expected finish "a variable or function definition" (t :: next :: rest))
  | _ => .error (expected finish "a variable or function definition" ts)

/-- Reads definitions up to the end of the tokens. -/
def ofTokens (finish : Token) (ts : List Token) : Except Misfit Definitions :=
  match ts with
  | [] => .ok {}
  | t :: rest =>
    if t.kind = .define then
      match readFunction finish rest with
      | .error misfit => .error misfit
      | .ok (function, ⟨rest', _⟩) =>
        match ofTokens finish rest' with
        | .error misfit => .error misfit
        | .ok definitions => .ok (definitions.addFunction function)
    else
      match readVariable finish (t :: rest) with
      | .error misfit => .error misfit
      | .ok ((id, value), ⟨rest', _⟩) =>
        match ofTokens finish rest' with
        | .error misfit => .error misfit
        | .ok definitions => .ok (definitions.addVariable id value)
termination_by ts.length
decreasing_by all_goals simp only [List.length_cons] at *; omega

/-- Reads a definition section. -/
def parse (input : String) : Except SyntaxError Definitions :=
  let chars := input.toList
  match Grammar.definitions.tokens chars with
  | .error misfit => .error (misfit.locate chars)
  | .ok ts =>
    match ofTokens (Grammar.finish chars) ts with
    | .error misfit => .error (misfit.locate chars)
    | .ok definitions => .ok definitions

end Definitions
end Spreadsheet

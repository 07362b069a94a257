import Spreadsheet.Error
import Spreadsheet.Text.Blank
import Spreadsheet.Text.Bytes
import Spreadsheet.Token.Grammar

/-!
From text to tokens. Blanks separate tokens and are passed over; a place that is not blank and
where no rule matches is a fault.
-/
namespace Spreadsheet

namespace Grammar

/-- The tokens of a text that starts at byte `offset`, after `passed` further characters of a
match that has already been taken. -/
def tokensFrom (g : Grammar) (offset passed : Nat) : List Char → Except Misfit (List Token)
  | [] => .ok []
  | c :: rest =>
    let next := offset + c.utf8Size
    match passed with
    | n + 1 => tokensFrom g next n rest
    | 0 =>
      if Text.isBlank c then tokensFrom g next 0 rest
      else
        match g.firstMatch? (c :: rest) with
        | some (none, n + 1) => tokensFrom g next n rest
        | some (some kind, n + 1) =>
          match tokensFrom g next n rest with
          | .ok tokens =>
            .ok ({ kind := kind, text := String.ofList (c :: rest.take n), offset := offset }
              :: tokens)
          | .error misfit => .error misfit
        | _ => .error { fault := .unrecognized c, offset := offset }

/-- The tokens of a text, without the one that ends them. -/
def tokens (g : Grammar) (s : List Char) : Except Misfit (List Token) :=
  g.tokensFrom 0 0 s

/-- The token that ends a text. -/
def finish (s : List Char) : Token :=
  Token.finish (Text.byteLength s)

end Grammar

namespace Misfit

/-- A misfit in the text `s`. -/
def locate (s : List Char) (m : Misfit) : SyntaxError :=
  { fault := m.fault
    offset := m.offset
    remaining := String.ofList (Text.dropBytes m.offset s) }

end Misfit

/-- All tokens of a text, the last of them the one that ends it. -/
def tokenize (g : Grammar) (input : String) : Except SyntaxError (List Token) :=
  match g.tokens input.toList with
  | .ok tokens => .ok (tokens ++ [Grammar.finish input.toList])
  | .error misfit => .error (misfit.locate input.toList)

end Spreadsheet

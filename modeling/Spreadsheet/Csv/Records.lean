import Spreadsheet.Text.Blank

/-!
Records of a CSV text. A record ends at a line feed outside quotes; a carriage return in front of
it belongs to the line end. A quote opens a quoted field only at the start of a field.
-/
namespace Spreadsheet.Csv

/-- A record and the line, counted from zero, on which it starts. -/
structure Record where
  line : Nat
  text : List Char
deriving DecidableEq, Inhabited

/-- Where the splitter stands with respect to quotes: outside them, at the start of a field or
not; inside; or behind a quote that closes the field unless another one follows. -/
inductive Quoting where
  | outside (atFieldStart : Bool)
  | inside
  | behindQuote
deriving DecidableEq, Inhabited

/-- What the splitter has seen: the records before the current one, and the text of the current
one, both in reverse, the current line, the line on which the record starts, and the quoting. -/
structure Splitter where
  records : List Record := []
  current : List Char := []
  line : Nat := 0
  startLine : Nat := 0
  quoting : Quoting := .outside true
deriving Inhabited

namespace Splitter

/-- A record's text, given in reverse, without the carriage return of its line end. -/
def closeText (current : List Char) : List Char :=
  match current with
  | '\r' :: rest => rest.reverse
  | _ => current.reverse

/-- The current record is complete. -/
def close (s : Splitter) : List Record :=
  { line := s.startLine, text := closeText s.current } :: s.records

/-- A character outside quotes. -/
def stepOutside (s : Splitter) (atFieldStart : Bool) (c : Char) : Splitter :=
  if c = '\n' then
    { records := s.close, current := [], line := s.line + 1, startLine := s.line + 1,
      quoting := .outside true }
  else
    let quoting : Quoting :=
      if c = '"' ∧ atFieldStart then .inside
      else if c = ',' then .outside true
      else if Text.isBlank c then .outside atFieldStart
      else .outside false
    { s with current := c :: s.current, quoting := quoting }

def step (s : Splitter) (c : Char) : Splitter :=
  match s.quoting with
  | .outside atFieldStart => s.stepOutside atFieldStart c
  | .inside =>
    { s with
      current := c :: s.current
      line := if c = '\n' then s.line + 1 else s.line
      quoting := if c = '"' then .behindQuote else .inside }
  | .behindQuote =>
    if c = '"' then { s with current := c :: s.current, quoting := .inside }
    else s.stepOutside false c

/-- The records when the text is over. What follows the last line end is a record unless it is
empty. -/
def finish (s : Splitter) : List Record :=
  (if s.current = [] then s.records else s.close).reverse

end Splitter

/-- The records of a text. -/
def records (text : List Char) : List Record :=
  (text.foldl Splitter.step {}).finish

end Spreadsheet.Csv

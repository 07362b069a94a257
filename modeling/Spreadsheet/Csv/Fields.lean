import Spreadsheet.Text.Blank
import Spreadsheet.Text.Quoted

/-!
Fields of a CSV record. A quoted field is taken as it is; any other one is trimmed. A quote opens
a quoted field where only blanks stand before it in the field.
-/
namespace Spreadsheet.Csv

/-- Where the reader stands with respect to quotes. -/
inductive FieldQuoting where
  | outside
  | inside
  | behindQuote
deriving DecidableEq, Inhabited

/-- What the reader has seen: the fields before the current one and the text of the current one,
both in reverse, whether the current field has been quoted, and the quoting. -/
structure FieldReader where
  fields : List (List Char) := []
  current : List Char := []
  quoted : Bool := false
  quoting : FieldQuoting := .outside
deriving Inhabited

namespace FieldReader

/-- The fields once the current one is complete, in reverse. -/
def close (r : FieldReader) : List (List Char) :=
  let field := r.current.reverse
  (if r.quoted then field else Text.trim field) :: r.fields

/-- A character outside quotes. -/
def stepOutside (r : FieldReader) (c : Char) : FieldReader :=
  if c = '"' ∧ Text.allBlank r.current then
    { r with current := [], quoted := true, quoting := .inside }
  else if c = ',' then
    { fields := r.close, current := [], quoted := false, quoting := .outside }
  else
    { r with current := c :: r.current, quoting := .outside }

def step (r : FieldReader) (c : Char) : FieldReader :=
  match r.quoting with
  | .outside => r.stepOutside c
  | .inside =>
    if c = '"' then { r with quoting := .behindQuote }
    else { r with current := c :: r.current }
  | .behindQuote =>
    if c = '"' then { r with current := c :: r.current, quoting := .inside }
    else r.stepOutside c

end FieldReader

/-- The fields of a record; there is always at least one. -/
def fields (record : List Char) : List (List Char) :=
  (record.foldl FieldReader.step {}).close.reverse

/-- A field as it is written: in quotes if it holds a comma, a quote or a line end. -/
def renderField (field : List Char) : List Char :=
  if field.any fun c => c == ',' || c == '"' || c == '\n' || c == '\r' then
    Text.enclose '"' field
  else
    field

end Spreadsheet.Csv

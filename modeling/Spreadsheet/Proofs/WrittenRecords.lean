import Spreadsheet.Proofs.CsvTables
import Spreadsheet.Proofs.LiteralTables

/-!
Single records, written and read back. Quotes are set for the marks in a field and not for its
blanks, which the reader drops outside quotes. Main statement: a written record has the same fields,
and those without a mark in them come back without the blanks around them, so that a record is
unchanged exactly if no such field has a blank at either end.
-/
namespace Spreadsheet

namespace Text

/-- Whether the text ends with a blank. -/
def endsBlank (s : List Char) : Bool :=
  s.getLast?.any isBlank

theorem trimEnd_eq_self_iff (s : List Char) : trimEnd s = s ↔ endsBlank s = false := by
  have hstart := trimStart_eq_self_iff s.reverse
  rw [startsBlank, List.head?_reverse] at hstart
  rw [endsBlank, ← hstart]
  show (trimStart s.reverse).reverse = s ↔ _
  rw [List.reverse_eq_iff]

theorem length_trimEnd_le (s : List Char) : (trimEnd s).length ≤ s.length := by
  have hle := length_trimStart_le s.reverse
  show (trimStart s.reverse).reverse.length ≤ s.length
  rw [List.length_reverse] at hle ⊢
  exact hle

theorem trim_eq_self_iff (s : List Char) :
    trim s = s ↔ startsBlank s = false ∧ endsBlank s = false := by
  rw [← trimStart_eq_self_iff, ← trimEnd_eq_self_iff, trim]
  constructor
  · intro hsame
    -- nothing is lost at the end of the text, so nothing has been lost at its start
    have hlength := length_trimEnd_le (trimStart s)
    rw [hsame] at hlength
    have hstart : trimStart s = s := (List.dropWhile_suffix isBlank).eq_of_length_le hlength
    rw [hstart] at hsame
    exact ⟨hstart, hsame⟩
  · rintro ⟨hstart, hend⟩
    rw [hstart, hend]

end Text

namespace Csv

theorem readBack_eq_self_iff (field : List Char) :
    readBack field = field ↔
      (needsQuotes field = false →
        Text.startsBlank field = false ∧ Text.endsBlank field = false) := by
  by_cases hquotes : needsQuotes field = true
  · simp [readBack, hquotes]
  · rw [readBack, if_neg hquotes, Text.trim_eq_self_iff]
    simp [hquotes]

/-- A written record is read back field by field, without the blanks around a field that has no mark
in it, so that nothing changes exactly if there are no such blanks. -/
theorem fields_renderRecord {fields : List (List Char)} (hfields : fields ≠ []) :
    Csv.fields (renderRecord fields) = fields.map readBack ∧
      (Csv.fields (renderRecord fields) = fields ↔
        ∀ field ∈ fields, needsQuotes field = false →
          Text.startsBlank field = false ∧ Text.endsBlank field = false) := by
  have hread : Csv.fields (renderRecord fields) = fields.map readBack :=
    FieldWriter.sparing.fields_record hfields
  refine ⟨hread, ?_⟩
  rw [hread, map_eq_self_iff]
  exact forall₂_congr fun field _ => readBack_eq_self_iff field

/-- Quotes and blanks side by side, an empty field, and line ends of two kinds. -/
def markedFields : List (List Char) :=
  [" \"".toList, [], "a,b ".toList, "x y".toList, "\r".toList, " \n ".toList]

theorem fields_renderRecord_markedFields :
    markedFields ≠ [] ∧
      renderRecord markedFields = "\" \"\"\",,\"a,b \",x y,\"\r\",\" \n \"".toList ∧
      Csv.fields (renderRecord markedFields) = markedFields := by
  have hfields : markedFields ≠ [] := List.cons_ne_nil _ _
  refine ⟨hfields, by decide, ?_⟩
  exact (fields_renderRecord hfields).2.2 (by decide)

/-- A blank in front of a field without marks is written as it is and lost to the reader. -/
theorem fields_renderRecord_leadingBlank :
    renderRecord [" a".toList] = " a".toList ∧
      Csv.fields (renderRecord [" a".toList]) = ["a".toList] ∧
      ["a".toList] ≠ [" a".toList] := by
  decide

end Csv
end Spreadsheet

import Spreadsheet.Proofs.ExpandedRows
import Spreadsheet.Proofs.LiteralTables
import Spreadsheet.Proofs.QuotingAgreement

/-!
Records and rows on the lines of their file. The separator, the splitter of records and the sheet
each count lines in their own way, from zero or from one. Main statement: the records of a text with
their line ends together are the text, the line of a record is the number of line feeds in front of
it, and the line of a row, copies included, is one more than the number of line feeds that stand in
the whole file before its record.
-/
namespace Spreadsheet

namespace Csv

/-- A record with the line end that was taken off behind it. -/
structure EndedRecord extends Record where
  carriageReturn : Bool
  lineFeed : Bool
deriving DecidableEq

namespace EndedRecord

/-- A carriage return, a line feed, both or nothing. -/
def lineEnd (r : EndedRecord) : List Char :=
  (if r.carriageReturn then ['\r'] else []) ++ if r.lineFeed then ['\n'] else []

/-- The record as it stands in the text. -/
def chars (r : EndedRecord) : List Char :=
  r.text ++ r.lineEnd

end EndedRecord

/-- The text of records with their line ends. -/
def joined (ended : List EndedRecord) : List Char :=
  ended.flatMap EndedRecord.chars

theorem joined_concat (ended : List EndedRecord) (r : EndedRecord) :
    joined (ended ++ [r]) = joined ended ++ r.chars := by
  rw [joined, List.flatMap_append, List.flatMap_singleton]
  rfl

/-- The text is made of the records. Only the last one may lack its line feed, a carriage return in
front of the line feed belongs to the line end, and no record is made of nothing. -/
structure CutInto (text : List Char) (ended : List EndedRecord) : Prop where
  joined_eq : joined ended = text
  line_eq : ∀ (i : Nat) r, ended[i]? = some r → r.line = (joined (ended.take i)).count '\n'
  lineFeed_eq : ∀ r ∈ ended.dropLast, r.lineFeed = true
  return_eq : ∀ r ∈ ended, r.carriageReturn = false → r.text.getLast? ≠ some '\r'
  chars_ne_nil : ∀ r ∈ ended, r.chars ≠ []

theorem cutInto_nil : CutInto [] [] where
  joined_eq := rfl
  line_eq := by
    intro i r h
    cases h
  lineFeed_eq := List.forall_mem_nil _
  return_eq := List.forall_mem_nil _
  chars_ne_nil := List.forall_mem_nil _

theorem CutInto.concat {text : List Char} {ended : List EndedRecord} {r : EndedRecord}
    (h : CutInto text ended) (hall : ∀ before ∈ ended, before.lineFeed = true)
    (hline : r.line = text.count '\n')
    (hreturn : r.carriageReturn = false → r.text.getLast? ≠ some '\r') (hchars : r.chars ≠ []) :
    CutInto (text ++ r.chars) (ended ++ [r]) where
  joined_eq := by rw [joined_concat, h.joined_eq]
  line_eq := by
    intro i other hother
    by_cases hi : i < ended.length
    · rw [List.getElem?_append_left hi] at hother
      rw [List.take_append_of_le_length (by omega), h.line_eq i other hother]
    · -- behind the records before it there is only the new one
      rw [List.getElem?_append_right (by omega), List.getElem?_singleton] at hother
      by_cases hlast : i - ended.length = 0
      · rw [if_pos hlast, Option.some.injEq] at hother
        rw [show i = ended.length by omega, List.take_left, h.joined_eq, ← hother, hline]
      · rw [if_neg hlast] at hother
        cases hother
  lineFeed_eq := by
    rw [List.dropLast_concat]
    exact hall
  return_eq := by
    intro other hother
    rcases List.mem_append.1 hother with hbefore | hnew
    · exact h.return_eq other hbefore
    · rw [List.mem_singleton.1 hnew]
      exact hreturn
  chars_ne_nil := by
    intro other hother
    rcases List.mem_append.1 hother with hbefore | hnew
    · exact h.chars_ne_nil other hbefore
    · rw [List.mem_singleton.1 hnew]
      exact hchars

/-! ## The splitter's lines -/

namespace Splitter

/-- The current record, ended here. -/
def ended (s : Splitter) (lineFeed : Bool) : EndedRecord where
  line := s.startLine
  text := closeText s.current
  carriageReturn := s.current.head? == some '\r'
  lineFeed := lineFeed

theorem close_eq (s : Splitter) (lineFeed : Bool) :
    s.close = (s.ended lineFeed).toRecord :: s.records :=
  rfl

theorem closeText_of_head {current : List Char} (h : current.head? ≠ some '\r') :
    closeText current = current.reverse := by
  unfold closeText
  split
  next => exact absurd rfl h
  next => rfl

theorem chars_ended (s : Splitter) (lineFeed : Bool) :
    (s.ended lineFeed).chars = s.current.reverse ++ if lineFeed then ['\n'] else [] := by
  show closeText s.current ++ ((if s.current.head? == some '\r' then ['\r'] else []) ++ _) = _
  rw [← List.append_assoc]
  congr 1
  by_cases hreturn : s.current.head? = some '\r'
  · obtain ⟨rest, hrest⟩ := List.head?_eq_some_iff.1 hreturn
    rw [hrest, closeText, List.reverse_cons]
    rfl
  · rw [closeText_of_head hreturn]
    simp [hreturn]

theorem return_ended {s : Splitter} {lineFeed : Bool}
    (h : (s.ended lineFeed).carriageReturn = false) :
    (s.ended lineFeed).text.getLast? ≠ some '\r' := by
  have hhead : s.current.head? ≠ some '\r' := by simpa [ended] using h
  show (closeText s.current).getLast? ≠ _
  rw [closeText_of_head hhead, List.getLast?_reverse]
  exact hhead

theorem lines_within {s : Splitter} {c : Char} (h : ¬(c = '\n' ∧ s.quoting ≠ .inside)) :
    (s.step c).startLine = s.startLine ∧ (s.step c).line = s.line + [c].count '\n' := by
  cases hs : s.quoting with
  | inside =>
    by_cases hline : c = '\n'
    · simp [step, hs, hline]
    · simp [step, hs, hline]
  | outside atFieldStart =>
    have hline : c ≠ '\n' := fun hc => h ⟨hc, by simp [hs]⟩
    simp [step, hs, stepOutside, hline]
  | behindQuote =>
    have hline : c ≠ '\n' := fun hc => h ⟨hc, by simp [hs]⟩
    by_cases hquote : c = '"'
    · simp [step, hs, hquote]
    · simp [step, hs, stepOutside, hline, hquote]

/-- The splitter has passed over a text: the ended records, each with its line feed, and behind them
the current one. -/
structure Passed (s : Splitter) (text : List Char) (ended : List EndedRecord) : Prop where
  records_eq : s.records = (ended.map (·.toRecord)).reverse
  text_eq : joined ended ++ s.current.reverse = text
  startLine_eq : s.startLine = (joined ended).count '\n'
  line_eq : s.line = text.count '\n'
  lineFeed_eq : ∀ r ∈ ended, r.lineFeed = true
  cut : CutInto (joined ended) ended

theorem passed_start : ({} : Splitter).Passed [] [] where
  records_eq := rfl
  text_eq := rfl
  startLine_eq := rfl
  line_eq := rfl
  lineFeed_eq := List.forall_mem_nil _
  cut := cutInto_nil

theorem Passed.step {s : Splitter} {text : List Char} {ended : List EndedRecord}
    (h : s.Passed text ended) (c : Char) :
    ∃ ended', (s.step c).Passed (text ++ [c]) ended' := by
  by_cases hline : c = '\n' ∧ s.quoting ≠ .inside
  · -- the record ends, and the next one starts on the next line
    obtain ⟨rfl, hoff⟩ := hline
    have hchars : (s.ended true).chars = s.current.reverse ++ ['\n'] := chars_ended s true
    have htext : joined (ended ++ [s.ended true]) = text ++ ['\n'] := by
      rw [joined_concat, hchars, ← List.append_assoc, h.text_eq]
    have hcut : CutInto (joined ended ++ (s.ended true).chars) (ended ++ [s.ended true]) :=
      h.cut.concat h.lineFeed_eq h.startLine_eq return_ended (by rw [hchars]; simp)
    have hlines : s.line + 1 = (text ++ ['\n']).count '\n' := by
      rw [List.count_append, ← h.line_eq]
      rfl
    refine ⟨ended ++ [s.ended true], ?_⟩
    rw [step_lineEnd hoff, close_eq s true]
    refine ⟨?_, ?_, ?_, hlines, ?_, ?_⟩
    · rw [List.map_append, List.reverse_append, ← h.records_eq]
      rfl
    · rw [htext]
      exact List.append_nil _
    · rw [htext]
      exact hlines
    · intro r hr
      rcases List.mem_append.1 hr with hbefore | hnew
      · exact h.lineFeed_eq r hbefore
      · rw [List.mem_singleton.1 hnew]
        rfl
    · rw [joined_concat]
      exact hcut
  · -- the record goes on, and only the current line may change
    obtain ⟨hrecords, hcurrent, -⟩ := step_within hline
    obtain ⟨hstart, hcount⟩ := lines_within hline
    refine ⟨ended, ?_, ?_, ?_, ?_, h.lineFeed_eq, h.cut⟩
    · rw [hrecords, h.records_eq]
    · rw [hcurrent, List.reverse_cons, ← List.append_assoc, h.text_eq]
    · rw [hstart, h.startLine_eq]
    · rw [hcount, h.line_eq, List.count_append]

theorem Passed.foldl {s : Splitter} {text : List Char} {ended : List EndedRecord}
    (h : s.Passed text ended) (more : List Char) :
    ∃ ended', (more.foldl Splitter.step s).Passed (text ++ more) ended' := by
  induction more generalizing s text ended with
  | nil => exact ⟨ended, by rwa [List.append_nil]⟩
  | cons c rest ih =>
    obtain ⟨ended', hstep⟩ := h.step c
    obtain ⟨ended'', hrest⟩ := ih hstep
    rw [List.append_assoc] at hrest
    exact ⟨ended'', hrest⟩

theorem Passed.finish {s : Splitter} {text : List Char} {ended : List EndedRecord}
    (h : s.Passed text ended) :
    ∃ ended' : List EndedRecord, ended'.map (·.toRecord) = s.finish ∧ CutInto text ended' := by
  by_cases hcurrent : s.current = []
  · refine ⟨ended, ?_, ?_⟩
    · rw [Splitter.finish, if_pos hcurrent, h.records_eq, List.reverse_reverse]
    · rw [← h.text_eq, hcurrent, List.reverse_nil, List.append_nil]
      exact h.cut
  · have hchars : (s.ended false).chars = s.current.reverse := by
      rw [chars_ended, if_neg Bool.false_ne_true, List.append_nil]
    refine ⟨ended ++ [s.ended false], ?_, ?_⟩
    · rw [Splitter.finish, if_neg hcurrent, close_eq s false, h.records_eq, List.reverse_cons,
        List.reverse_reverse, List.map_append]
      rfl
    · rw [← h.text_eq, ← hchars]
      apply h.cut.concat h.lineFeed_eq h.startLine_eq return_ended
      rw [hchars]
      exact fun hnil => hcurrent (List.reverse_eq_nil_iff.1 hnil)

end Splitter

/-- The records of a text with the line ends behind them are the text. -/
theorem exists_cutInto_records (text : List Char) :
    ∃ ended : List EndedRecord, ended.map (·.toRecord) = records text ∧ CutInto text ended := by
  obtain ⟨ended, hpassed⟩ := Splitter.passed_start.foldl text
  exact hpassed.finish

end Csv

/-! ## The sheet section in its file -/

namespace Text

/-- A line has one line feed, and only the last one may have none. -/
theorem count_linesFrom {done : List Char} (hdone : done.count '\n' = 0) (s : List Char) :
    ∀ line ∈ (linesFrom [] done s).dropLast, line.count '\n' = 1 := by
  induction s generalizing done with
  | nil =>
    unfold linesFrom
    split <;> simp
  | cons c rest ih =>
    unfold linesFrom
    split
    next hfeed =>
      -- the line ends here; it counts only if there is another one behind it
      rw [linesFrom_eq]
      cases hmore : linesFrom [] [] rest with
      | nil => simp
      | cons next later =>
        have hrest := ih List.count_nil
        rw [hmore] at hrest
        have hfirst : ((c :: done).reverse).count '\n' = 1 := by
          rw [List.count_reverse, hfeed, List.count_cons_self, hdone]
        exact List.forall_mem_cons.2 ⟨hfirst, hrest⟩
    next hother => exact ih (by rw [List.count_cons_of_ne hother, hdone])

theorem count_flatten_of_lines {front after : List (List Char)} {s : List Char}
    (h : lines s = front ++ after) (hafter : after ≠ []) :
    front.flatten.count '\n' = front.length := by
  have hlines : ∀ line ∈ front, line.count '\n' = 1 := by
    intro line hline
    apply count_linesFrom List.count_nil s line
    show line ∈ (lines s).dropLast
    rw [h, List.dropLast_append_of_ne_nil hafter]
    exact List.mem_append_left _ hline
  clear h
  induction front with
  | nil => rfl
  | cons line rest ih =>
    obtain ⟨hfirst, hrest⟩ := List.forall_mem_cons.1 hlines
    rw [List.flatten_cons, List.count_append, hfirst, ih hrest, List.length_cons, Nat.add_comm]

end Text

namespace Source

theorem splitAtSeparator_eq_some {before lines front after : List (List Char)}
    (h : splitAtSeparator before lines = some (front, after)) :
    ∃ separator, isSeparator separator = true ∧
      before.reverse ++ lines = front ++ separator :: after := by
  induction lines generalizing before with
  | nil => cases h
  | cons line rest ih =>
    rw [splitAtSeparator] at h
    split at h
    next hseparator =>
      cases h
      exact ⟨line, hseparator, rfl⟩
    next =>
      obtain ⟨separator, hseparator, hlines⟩ := ih h
      refine ⟨separator, hseparator, ?_⟩
      rw [← hlines, List.reverse_cons, List.append_assoc, List.singleton_append]

/-- The file has `head` in front of the sheet section: nothing, or the definitions and the
separator. -/
structure StandsBehind (source : Source) (input head : List Char) : Prop where
  input_eq : head ++ source.sheet = input
  head_eq : source.definitions = none ∧ head = [] ∨
    ∃ definitions separator, source.definitions = some definitions ∧
      isSeparator separator = true ∧ head = definitions ++ separator

/-- Unless the file ends with the separator, the sheet section starts behind all lines in front of
it. -/
theorem exists_standsBehind_split (filename : String) (input : List Char) :
    ∃ head, (split filename input).StandsBehind input head ∧
      ((split filename input).sheet ≠ [] →
        (split filename input).sheetLine = 1 + head.count '\n') := by
  cases hsplit : splitAtSeparator [] (Text.lines input) with
  | none =>
    refine ⟨[], ?_⟩
    simp only [split, hsplit]
    exact ⟨⟨rfl, .inl ⟨rfl, rfl⟩⟩, fun _ => rfl⟩
  | some sections =>
    obtain ⟨before, after⟩ := sections
    obtain ⟨separator, hseparator, hlines⟩ := splitAtSeparator_eq_some hsplit
    rw [List.reverse_nil, List.nil_append, ← List.singleton_append, ← List.append_assoc] at hlines
    refine ⟨(before ++ [separator]).flatten, ?_⟩
    simp only [split, hsplit]
    refine ⟨⟨?_, .inr ⟨before.flatten, separator, rfl, hseparator, ?_⟩⟩, fun hsheet => ?_⟩
    · rw [← List.flatten_append, ← hlines, Text.flatten_lines]
    · rw [List.flatten_append, List.flatten_singleton]
    · have hafter : after ≠ [] := by
        intro hnil
        rw [hnil] at hsheet
        exact hsheet rfl
      rw [Text.count_flatten_of_lines hlines hafter, List.length_append, List.length_singleton]
      omega

/-- The line of a record in the file, counted from one: all line feeds before it are those of the
head and of the records in front. -/
def lineOfRecord (head : List Char) (ended : List Csv.EndedRecord) (i : Nat) : Nat :=
  1 + (head ++ Csv.joined (ended.take i)).count '\n'

end Source

/-! ## Rows -/

theorem Row.line_ofFields {place : Place} {fields : List (List Char)} {row : Row}
    (h : Row.ofFields place fields = .ok row) : row.line = place.line := by
  cases fields with
  | nil =>
    cases h
    rfl
  | cons field rest =>
    rw [Row.ofFields] at h
    split at h
    next => cases h
    next =>
      dsimp only at h
      split at h
      next => cases h
      next =>
        cases h
        rfl

namespace Sheet

theorem ofFields_of_readRows {source : Source} {columnOffset index : Nat}
    {records : List Csv.Record} {rows : List Row}
    (h : readRows source columnOffset index records = .ok rows) {i : Nat} {row : Row}
    (hrow : rows[i]? = some row) :
    ∃ record, records[i]? = some record ∧
      Row.ofFields
        { filename := source.filename, line := source.lineOfSheet record.line, row := index + i,
          column := columnOffset } (Csv.fields record.text) = .ok row := by
  induction records generalizing index rows i with
  | nil =>
    cases h
    cases hrow
  | cons record rest ih =>
    rw [readRows] at h
    split at h
    next => cases h
    next first hfirst =>
      split at h
      next => cases h
      next more hmore =>
        cases h
        cases i with
        | zero =>
          cases hrow
          exact ⟨record, rfl, hfirst⟩
        | succ i =>
          obtain ⟨other, hother, hread⟩ := ih hmore hrow
          rw [Nat.add_assoc, Nat.add_comm 1 i] at hread
          exact ⟨other, hother, hread⟩

theorem dropBlankEnd_prefix (records : List Csv.Record) : dropBlankEnd records <+: records := by
  rw [← List.reverse_suffix, dropBlankEnd, List.reverse_reverse]
  exact List.dropWhile_suffix _

/-- Each row is read from the record of its number. -/
theorem ofFields_of_read {source : Source} {options : Options} {t : Sheet}
    (h : Sheet.read source options = .ok t) {i : Nat} {row : Row} (hrow : t.rows[i]? = some row) :
    ∃ record, (Csv.records source.sheet)[i]? = some record ∧
      Row.ofFields
        { filename := source.filename, line := source.lineOfSheet record.line,
          row := options.rowOffset + i, column := options.columnOffset }
        (Csv.fields record.text) = .ok row := by
  unfold Sheet.read at h
  split at h
  next => cases h
  next rows hrows =>
    cases h
    obtain ⟨record, hrecord, hread⟩ := ofFields_of_readRows hrows hrow
    obtain ⟨blank, hblank⟩ := dropBlankEnd_prefix (Csv.records source.sheet)
    have hi := (List.getElem?_eq_some_iff.1 hrecord).1
    refine ⟨record, ?_, hread⟩
    rw [← hblank, List.getElem?_append_left hi, hrecord]

/-- All rows of an expanded sheet are copies of rows that were read. -/
theorem copyOf_of_mem_expand {t t' : Sheet} (h : t.expand = .ok t') {copy : Row}
    (hcopy : copy ∈ t'.rows) :
    ∃ (i : Nat) (row : Row) (first last : Nat), t.rows[i]? = some row ∧
      row.CopyOf first last copy.index copy := by
  rw [eq_of_expand h] at hcopy
  obtain ⟨row, hrow, first, offset, rfl⟩ := exists_of_mem_layout hcopy
  obtain ⟨i, hi⟩ := List.getElem?_of_mem hrow
  exact ⟨i, row, first, _, hi, row.copyOf_placeAt t.fillAmount first (first + offset)⟩

end Sheet

namespace Source

theorem filename_split (filename : String) (input : List Char) :
    (split filename input).filename = filename := by
  unfold split
  split <;> rfl

/-- A row of a file is read from the record of its number, on the line of that record. -/
theorem ofFields_lineOfRecord {filename : String} {input head : List Char} {options : Options}
    {parsed : Sheet} {ended : List Csv.EndedRecord}
    (hread : Sheet.read (split filename input) options = .ok parsed)
    (hline : (split filename input).sheet ≠ [] →
      (split filename input).sheetLine = 1 + head.count '\n')
    (hrecords : ended.map (·.toRecord) = Csv.records (split filename input).sheet)
    (hcut : Csv.CutInto (split filename input).sheet ended) {i : Nat} {row : Row}
    (hrow : parsed.rows[i]? = some row) :
    ∃ record, ended[i]? = some record ∧
      Row.ofFields
        { filename := filename, line := lineOfRecord head ended i, row := options.rowOffset + i,
          column := options.columnOffset } (Csv.fields record.text) = .ok row := by
  obtain ⟨record, hrecord, hfields⟩ := Sheet.ofFields_of_read hread hrow
  rw [← hrecords, List.getElem?_map] at hrecord
  obtain ⟨piece, hpiece, rfl⟩ := Option.map_eq_some_iff.1 hrecord
  have hmem : piece ∈ ended := List.mem_of_getElem? hpiece
  -- behind a separator at the very end of the file there is no record
  have hsheet : (split filename input).sheet ≠ [] := by
    intro hnil
    rw [← hcut.joined_eq] at hnil
    exact hcut.chars_ne_nil piece hmem (List.flatMap_eq_nil_iff.1 hnil piece hmem)
  have hplace : (split filename input).lineOfSheet piece.line = lineOfRecord head ended i := by
    rw [lineOfSheet, hline hsheet, hcut.line_eq i piece hpiece, lineOfRecord, List.count_append,
      Nat.add_assoc]
  rw [hplace, filename_split] at hfields
  exact ⟨piece, hpiece, hfields⟩

/-- The records of a text, with their line ends, are the text, and count the line feeds in front of
them. A file is read as rows that stand on the lines of their records, and copies of a row stand on
the line of the row. -/
theorem lines_of_records_and_rows (text : List Char) :
    (∃ ended : List Csv.EndedRecord,
      ended.map (·.toRecord) = Csv.records text ∧ Csv.CutInto text ended) ∧
    ∀ filename options parsed, Sheet.read (split filename text) options = .ok parsed →
      ∃ (head : List Char) (ended : List Csv.EndedRecord),
        (split filename text).StandsBehind text head ∧
        ended.map (·.toRecord) = Csv.records (split filename text).sheet ∧
        Csv.CutInto (split filename text).sheet ended ∧
        (∀ (i : Nat) row, parsed.rows[i]? = some row →
          row.line = lineOfRecord head ended i ∧
          ∃ record, ended[i]? = some record ∧
            Row.ofFields
              { filename := filename, line := row.line, row := options.rowOffset + i,
                column := options.columnOffset } (Csv.fields record.text) = .ok row) ∧
        ∀ expanded, parsed.expand = .ok expanded → ∀ copy ∈ expanded.rows,
          ∃ (i : Nat) (row : Row) (first last : Nat), parsed.rows[i]? = some row ∧
            row.CopyOf first last copy.index copy ∧ copy.line = lineOfRecord head ended i := by
  refine ⟨Csv.exists_cutInto_records text, fun filename options parsed hread => ?_⟩
  obtain ⟨head, hhead, hline⟩ := exists_standsBehind_split filename text
  obtain ⟨ended, hrecords, hcut⟩ := Csv.exists_cutInto_records (split filename text).sheet
  refine ⟨head, ended, hhead, hrecords, hcut, fun i row hrow => ?_,
    fun expanded hexpand copy hcopy => ?_⟩
  · obtain ⟨record, hrecord, hfields⟩ := ofFields_lineOfRecord hread hline hrecords hcut hrow
    have hplace := Row.line_ofFields hfields
    refine ⟨hplace, record, hrecord, ?_⟩
    rw [hplace]
    exact hfields
  · obtain ⟨i, row, first, last, hrow, hcopyOf⟩ := Sheet.copyOf_of_mem_expand hexpand hcopy
    obtain ⟨record, -, hfields⟩ := ofFields_lineOfRecord hread hline hrecords hcut hrow
    exact ⟨i, row, first, last, hrow, hcopyOf, hcopyOf.line_eq.trans (Row.line_ofFields hfields)⟩

/-- Definitions, a repeated row with a line feed in quotes, an empty row and a last one, with line
ends of two kinds and empty lines at the end. -/
def crossedLines : List Char :=
  "x := 1\r\n---\r\n\"![[expand=2]]a\nb\",c\r\n\nlast\r\n\n\n".toList

theorem lines_of_records_and_rows_crossedLines :
    ∃ parsed expanded head ended,
      Sheet.read (split "lines.csvpp" crossedLines) {} = .ok parsed ∧
      parsed.expand = .ok expanded ∧ expanded.rows.map (·.line) = [3, 3, 5, 6] ∧
      (split "lines.csvpp" crossedLines).StandsBehind crossedLines head ∧
      Csv.CutInto (split "lines.csvpp" crossedLines).sheet ended ∧
      lineOfRecord head ended 2 = 6 := by
  have hlines : (Sheet.read (split "lines.csvpp" crossedLines) {}).toOption.map
      (fun t => (t.rows.map (·.line), t.expand.toOption.map fun t => t.rows.map (·.line))) =
        some ([3, 5, 6], some [3, 3, 5, 6]) := by
    decide +kernel
  cases hread : Sheet.read (split "lines.csvpp" crossedLines) {} with
  | error e =>
    rw [hread] at hlines
    cases hlines
  | ok parsed =>
    rw [hread, Except.toOption, Option.map_some, Option.some.injEq, Prod.mk.injEq] at hlines
    obtain ⟨hparsed, hcopies⟩ := hlines
    cases hexpand : parsed.expand with
    | error e =>
      rw [hexpand] at hcopies
      cases hcopies
    | ok expanded =>
      rw [hexpand, Except.toOption, Option.map_some, Option.some.injEq] at hcopies
      obtain ⟨head, ended, hbehind, -, hcut, hrows, -⟩ :=
        (lines_of_records_and_rows crossedLines).2 "lines.csvpp" {} parsed hread
      have hlast : (parsed.rows.map (·.line))[2]? = some 6 := by rw [hparsed]; rfl
      rw [List.getElem?_map] at hlast
      obtain ⟨row, hrow, hline⟩ := Option.map_eq_some_iff.1 hlast
      refine ⟨parsed, expanded, head, ended, rfl, hexpand, hcopies, hbehind, hcut, ?_⟩
      rw [← (hrows 2 row hrow).1, hline]

end Source
end Spreadsheet

import Spreadsheet.Csv.Fields
import Spreadsheet.Csv.Records
import Spreadsheet.Formula.Render

/-!
Tables of texts, written as CSV and read back. The splitter of records and the reader of fields each
follow the quotes on their own, so that a way to write a field has to satisfy both. Main statement:
of a table that is written row by row, every field is read back in its row and place, as it was if
it stood in quotes and else without its blanks at either end.
-/
namespace Spreadsheet.Csv

/-- Whether a field is written in quotes. -/
def needsQuotes (field : List Char) : Bool :=
  field.any fun c => c == ',' || c == '"' || c == '\n' || c == '\r'

/-- What a written field is read back as. -/
def readBack (field : List Char) : List Char :=
  if needsQuotes field then field else Text.trim field

theorem readBack_nil : readBack [] = [] := rfl

/-- The fields of a record with commas between them. -/
def renderRecord (fields : List (List Char)) : List Char :=
  joinChars [','] (fields.map renderField)

/-- The fields of the records of a text. -/
def table (text : List Char) : List (List (List Char)) :=
  (records text).map fun record => fields record.text

/-- Whether `c` has no meaning of its own outside quotes. -/
def IsPlain (c : Char) : Prop :=
  c ≠ ',' ∧ c ≠ '"' ∧ c ≠ '\n' ∧ c ≠ '\r'

theorem isPlain_of_mem {field : List Char} (h : ¬needsQuotes field = true) :
    ∀ c ∈ field, IsPlain c := by
  intro c hc
  have hnone : ¬(c == ',' || c == '"' || c == '\n' || c == '\r') = true :=
    fun hmark => h (List.any_eq_true.2 ⟨c, hc, hmark⟩)
  simp only [Bool.or_eq_true, beq_iff_eq, not_or] at hnone
  exact ⟨hnone.1.1.1, hnone.1.1.2, hnone.1.2, hnone.2⟩

theorem renderField_quoted {field : List Char} (h : needsQuotes field = true) :
    renderField field = Text.enclose '"' field :=
  if_pos h

theorem renderField_plain {field : List Char} (h : ¬needsQuotes field = true) :
    renderField field = field :=
  if_neg h

/-! ## The reader of fields -/

namespace FieldReader

/-- A reader at the start of a field. -/
def atStart (done : List (List Char)) : FieldReader :=
  { fields := done }

theorem foldl_plain {field : List Char} (hplain : ∀ c ∈ field, IsPlain c) (r : FieldReader)
    (hr : r.quoting = .outside) :
    field.foldl step r = { r with current := field.reverse ++ r.current } := by
  induction field generalizing r with
  | nil => rfl
  | cons c rest ih =>
    obtain ⟨hc, hrest⟩ := List.forall_mem_cons.1 hplain
    have hstep : r.step c = { r with current := c :: r.current } := by
      simp [step, stepOutside, hr, hc.1, hc.2.1]
    rw [List.foldl_cons, hstep, ih hrest { r with current := c :: r.current } hr,
      List.reverse_cons, List.append_assoc, List.singleton_append]

/-- Inside quotes a doubled quote is one and everything else is itself. -/
theorem foldl_double (field : List Char) (r : FieldReader) (hr : r.quoting = .inside) :
    (Text.double '"' field).foldl step r = { r with current := field.reverse ++ r.current } := by
  induction field generalizing r with
  | nil => rfl
  | cons c rest ih =>
    rw [Text.double]
    split
    next hquote =>
      -- the first quote of the two might have closed the field, the second takes that back
      have hsteps : (r.step '"').step '"' = { r with current := '"' :: r.current } := by
        simp [step, hr]
      rw [List.foldl_cons, List.foldl_cons, hsteps, ih { r with current := '"' :: r.current } hr,
        hquote, List.reverse_cons, List.append_assoc, List.singleton_append]
    next hother =>
      have hstep : r.step c = { r with current := c :: r.current } := by
        simp [step, hr, hother]
      rw [List.foldl_cons, hstep, ih { r with current := c :: r.current } hr, List.reverse_cons,
        List.append_assoc, List.singleton_append]

/-- A field in quotes is read to its end, and closing it there gives the field back. -/
theorem foldl_enclose (field : List Char) (done : List (List Char)) :
    ((Text.enclose '"' field).foldl step (atStart done)).close = field :: done ∧
      ((Text.enclose '"' field).foldl step (atStart done)).quoting ≠ .inside := by
  have hopen : (atStart done).step '"' =
      { fields := done, current := [], quoted := true, quoting := .inside } := rfl
  rw [Text.enclose, List.cons_append, List.foldl_cons, hopen, List.foldl_append,
    foldl_double field _ rfl]
  simp [step, close]

theorem foldl_renderField (field : List Char) (done : List (List Char)) :
    ((renderField field).foldl step (atStart done)).close = readBack field :: done ∧
      ((renderField field).foldl step (atStart done)).quoting ≠ .inside := by
  by_cases hquotes : needsQuotes field = true
  · rw [renderField_quoted hquotes, readBack, if_pos hquotes]
    exact foldl_enclose field done
  · rw [renderField_plain hquotes, foldl_plain (isPlain_of_mem hquotes) _ rfl, readBack,
      if_neg hquotes]
    simp [close, atStart]

theorem step_comma {r : FieldReader} (h : r.quoting ≠ .inside) : r.step ',' = atStart r.close := by
  cases hr : r.quoting with
  | inside => exact absurd hr h
  | outside => simp [step, stepOutside, hr, atStart]
  | behindQuote => simp [step, stepOutside, hr, atStart]

end FieldReader

/-! ## The splitter of records -/

namespace Splitter

theorem foldl_plain {field : List Char} (hplain : ∀ c ∈ field, IsPlain c) (s : Splitter)
    (b : Bool) (hs : s.quoting = .outside b) :
    ∃ b', field.foldl step s =
      { s with current := field.reverse ++ s.current, quoting := .outside b' } := by
  induction field generalizing s b with
  | nil => exact ⟨b, by rw [← hs]; rfl⟩
  | cons c rest ih =>
    obtain ⟨hc, hrest⟩ := List.forall_mem_cons.1 hplain
    -- blanks leave it open whether the field has started, everything else starts it
    have hstep : s.step c = { s with
        current := c :: s.current
        quoting := .outside (if Text.isBlank c then b else false) } := by
      simp only [step, hs, stepOutside, if_neg hc.2.2.1, hc.1, hc.2.1, false_and, if_false]
      split <;> rfl
    obtain ⟨b', hfold⟩ := ih hrest (s.step c) _ (by rw [hstep])
    refine ⟨b', ?_⟩
    rw [List.foldl_cons, hfold, hstep, List.reverse_cons, List.append_assoc, List.singleton_append]

theorem foldl_double (field : List Char) (s : Splitter) (hs : s.quoting = .inside) :
    ∃ line, (Text.double '"' field).foldl step s =
      { s with current := (Text.double '"' field).reverse ++ s.current, line := line } := by
  induction field generalizing s with
  | nil => exact ⟨s.line, rfl⟩
  | cons c rest ih =>
    rw [Text.double]
    split
    next =>
      have hsteps : (s.step '"').step '"' = { s with current := '"' :: '"' :: s.current } := by
        simp [step, hs]
      obtain ⟨line, hfold⟩ := ih { s with current := '"' :: '"' :: s.current } hs
      refine ⟨line, ?_⟩
      rw [List.foldl_cons, List.foldl_cons, hsteps, hfold]
      simp
    next hother =>
      have hstep : s.step c = { s with
          current := c :: s.current, line := if c = '\n' then s.line + 1 else s.line } := by
        simp [step, hs, hother]
      obtain ⟨line, hfold⟩ := ih (s.step c) (by rw [hstep]; exact hs)
      refine ⟨line, ?_⟩
      rw [List.foldl_cons, hfold, hstep]
      simp

/-- The splitter passes over a field in quotes and is outside them behind it. -/
theorem foldl_enclose (field : List Char) (s : Splitter) (hs : s.quoting = .outside true) :
    ∃ line quoting, quoting ≠ .inside ∧ (Text.enclose '"' field).foldl step s =
      { s with
        current := (Text.enclose '"' field).reverse ++ s.current
        line := line
        quoting := quoting } := by
  have hopen : s.step '"' = { s with current := '"' :: s.current, quoting := .inside } := by
    simp [step, hs, stepOutside]
  obtain ⟨line, hfold⟩ := foldl_double field (s.step '"') (by rw [hopen])
  refine ⟨line, .behindQuote, by decide, ?_⟩
  rw [Text.enclose, List.cons_append, List.foldl_cons, List.foldl_append, hfold, hopen]
  simp [step]

theorem foldl_renderField (field : List Char) (s : Splitter) (hs : s.quoting = .outside true) :
    ∃ line quoting, quoting ≠ .inside ∧ (renderField field).foldl step s =
      { s with
        current := (renderField field).reverse ++ s.current
        line := line
        quoting := quoting } := by
  by_cases hquotes : needsQuotes field = true
  · rw [renderField_quoted hquotes]
    exact foldl_enclose field s hs
  · obtain ⟨b, hfold⟩ := foldl_plain (isPlain_of_mem hquotes) s true hs
    refine ⟨s.line, .outside b, by simp, ?_⟩
    rw [renderField_plain hquotes, hfold]

theorem step_comma {s : Splitter} (h : s.quoting ≠ .inside) :
    s.step ',' = { s with current := ',' :: s.current, quoting := .outside true } := by
  cases hs : s.quoting with
  | inside => exact absurd hs h
  | outside b => simp [step, stepOutside, hs]
  | behindQuote => simp [step, stepOutside, hs]

theorem step_lineEnd {s : Splitter} (h : s.quoting ≠ .inside) :
    s.step '\n' =
      { records := s.close, line := s.line + 1, startLine := s.line + 1 } := by
  cases hs : s.quoting with
  | inside => exact absurd hs h
  | outside b => simp [step, stepOutside, hs]
  | behindQuote => simp [step, stepOutside, hs]

end Splitter

theorem getLast?_enclose (field : List Char) : (Text.enclose '"' field).getLast? ≠ some '\r' := by
  rw [Text.enclose, List.getLast?_concat]
  decide

theorem getLast?_renderField (field : List Char) : (renderField field).getLast? ≠ some '\r' := by
  by_cases hquotes : needsQuotes field = true
  · rw [renderField_quoted hquotes]
    exact getLast?_enclose field
  · intro hlast
    rw [renderField_plain hquotes] at hlast
    exact (isPlain_of_mem hquotes _ (List.mem_of_getLast? hlast)).2.2.2 rfl

/-! ## Written tables -/

/-- A way to write fields, and what is read back of a written field. -/
structure FieldWriter where
  write : List Char → List Char
  content : List Char → List Char
  /-- A written field is read to its end, and closing it there gives its content. -/
  read : ∀ field done,
    ((write field).foldl FieldReader.step (.atStart done)).close = content field :: done ∧
      ((write field).foldl FieldReader.step (.atStart done)).quoting ≠ .inside
  /-- The splitter passes over a written field and is outside quotes behind it. -/
  pass : ∀ (field : List Char) (s : Splitter), s.quoting = .outside true →
    ∃ line quoting, quoting ≠ .inside ∧ (write field).foldl Splitter.step s =
      { s with current := (write field).reverse ++ s.current, line := line, quoting := quoting }
  /-- No line end takes a part of the field with it. -/
  getLast?_write : ∀ field, (write field).getLast? ≠ some '\r'

namespace FieldWriter

/-- Quotes where they are needed. -/
def sparing : FieldWriter where
  write := renderField
  content := readBack
  read := FieldReader.foldl_renderField
  pass := Splitter.foldl_renderField
  getLast?_write := getLast?_renderField

/-- Quotes around every field. -/
def enclosing : FieldWriter where
  write := Text.enclose '"'
  content := id
  read := FieldReader.foldl_enclose
  pass := Splitter.foldl_enclose
  getLast?_write := getLast?_enclose

variable (w : FieldWriter)

/-- The fields of a record with commas between them. -/
def record (fields : List (List Char)) : List Char :=
  joinChars [','] (fields.map w.write)

/-- A table with a line feed behind every record. -/
def text (rows : List (List (List Char))) : List Char :=
  rows.flatMap fun row => w.record row ++ ['\n']

theorem record_cons {first : List Char} {rest : List (List Char)} (hrest : rest ≠ []) :
    w.record (first :: rest) = w.write first ++ ',' :: w.record rest := by
  cases rest with
  | nil => exact absurd rfl hrest
  | cons next more => simp [record, joinChars]

theorem close_foldl_record {fields : List (List Char)} (hfields : fields ≠ [])
    (done : List (List Char)) :
    ((w.record fields).foldl FieldReader.step (.atStart done)).close =
      (fields.map w.content).reverse ++ done := by
  induction fields generalizing done with
  | nil => exact absurd rfl hfields
  | cons first rest ih =>
    obtain ⟨hclose, hquoting⟩ := w.read first done
    by_cases hrest : rest = []
    · subst hrest
      exact hclose
    · rw [w.record_cons hrest, List.foldl_append, List.foldl_cons,
        FieldReader.step_comma hquoting, hclose, ih hrest, List.map_cons, List.reverse_cons,
        List.append_assoc, List.singleton_append]

theorem fields_record {fields : List (List Char)} (hfields : fields ≠ []) :
    Csv.fields (w.record fields) = fields.map w.content := by
  have hclose := w.close_foldl_record hfields []
  rw [List.append_nil] at hclose
  change ((w.record fields).foldl FieldReader.step (.atStart [])).close.reverse = _
  rw [hclose, List.reverse_reverse]

theorem foldl_record (fields : List (List Char)) (s : Splitter)
    (hs : s.quoting = .outside true) :
    ∃ line quoting, quoting ≠ .inside ∧ (w.record fields).foldl Splitter.step s =
      { s with current := (w.record fields).reverse ++ s.current, line := line,
               quoting := quoting } := by
  induction fields generalizing s with
  | nil => exact ⟨s.line, .outside true, by decide, by rw [← hs]; rfl⟩
  | cons first rest ih =>
    obtain ⟨line, quoting, hquoting, hfirst⟩ := w.pass first s hs
    by_cases hrest : rest = []
    · subst hrest
      exact ⟨line, quoting, hquoting, hfirst⟩
    · let behind : Splitter := { s with
        current := ',' :: ((w.write first).reverse ++ s.current)
        line := line
        quoting := .outside true }
      obtain ⟨line', quoting', hquoting', hmore⟩ := ih behind rfl
      refine ⟨line', quoting', hquoting', ?_⟩
      rw [w.record_cons hrest, List.foldl_append, List.foldl_cons, hfirst,
        Splitter.step_comma hquoting, hmore]
      simp [behind]

theorem getLast?_record (fields : List (List Char)) : (w.record fields).getLast? ≠ some '\r' := by
  induction fields with
  | nil => simp [record, joinChars]
  | cons first rest ih =>
    by_cases hrest : rest = []
    · subst hrest
      exact w.getLast?_write first
    · rw [w.record_cons hrest, List.getLast?_append, List.getLast?_cons]
      cases hlast : (w.record rest).getLast? with
      | none => simp
      | some c =>
        rw [hlast] at ih
        simpa using ih

theorem closeText_record (fields : List (List Char)) :
    Splitter.closeText (w.record fields).reverse = w.record fields := by
  unfold Splitter.closeText
  split
  next rest hreturn =>
    have hlast := w.getLast?_record fields
    rw [← List.head?_reverse, hreturn] at hlast
    exact absurd rfl hlast
  next => exact List.reverse_reverse _

/-- From the start of a line on, every row of a table that is written becomes a record. -/
theorem foldl_text (rows : List (List (List Char))) (s : Splitter)
    (hcurrent : s.current = []) (hs : s.quoting = .outside true) :
    ∃ (read : List Record) (line startLine : Nat), read.map (·.text) = rows.map w.record ∧
      (w.text rows).foldl Splitter.step s =
        { records := read.reverse ++ s.records, line := line, startLine := startLine } := by
  induction rows generalizing s with
  | nil => exact ⟨[], s.line, s.startLine, rfl, by rw [← hcurrent, ← hs]; rfl⟩
  | cons row rest ih =>
    obtain ⟨line, quoting, hquoting, hrow⟩ := w.foldl_record row s hs
    obtain ⟨read, line', startLine', htexts, hrest⟩ := ih
      { records := { line := s.startLine, text := w.record row } :: s.records
        line := line + 1, startLine := line + 1 } rfl rfl
    refine ⟨{ line := s.startLine, text := w.record row } :: read, line', startLine', ?_, ?_⟩
    · rw [List.map_cons, htexts, List.map_cons]
    · rw [text, List.flatMap_cons, ← text, List.foldl_append, List.foldl_append, hrow,
        List.foldl_cons, Splitter.step_lineEnd hquoting, List.foldl_nil, Splitter.close, hcurrent,
        List.append_nil, w.closeText_record, hrest, List.reverse_cons, List.append_assoc,
        List.singleton_append]

theorem records_text (rows : List (List (List Char))) :
    (records (w.text rows)).map (·.text) = rows.map w.record := by
  obtain ⟨read, line, startLine, htexts, hfold⟩ := w.foldl_text rows {} rfl rfl
  have hread : records (w.text rows) = read := by
    rw [records, hfold]
    simp [Splitter.finish]
  rw [hread, htexts]

/-- A table of rows with at least one field each is read back row by row and field by field. -/
theorem table_text {rows : List (List (List Char))} (hrows : ∀ row ∈ rows, row ≠ []) :
    table (w.text rows) = rows.map fun row => row.map w.content := by
  have hfields := congrArg (List.map fields) (w.records_text rows)
  rw [List.map_map, List.map_map] at hfields
  change (records _).map (fields ∘ Record.text) = _
  rw [hfields]
  exact List.map_congr_left fun row hrow => w.fields_record (hrows row hrow)

end FieldWriter

theorem renderRecord_cons {first : List Char} {rest : List (List Char)} (hrest : rest ≠ []) :
    renderRecord (first :: rest) = renderField first ++ ',' :: renderRecord rest :=
  FieldWriter.sparing.record_cons hrest

theorem table_renderTable {rows : List (List (List Char))} (hrows : ∀ row ∈ rows, row ≠ []) :
    table (rows.flatMap fun row => renderRecord row ++ ['\n']) =
      rows.map fun row => row.map readBack :=
  FieldWriter.sparing.table_text hrows

end Spreadsheet.Csv

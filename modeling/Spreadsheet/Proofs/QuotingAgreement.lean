import Spreadsheet.Proofs.CsvTables

/-!
The splitter of records and the reader of fields on the same text. The splitter notes whether a
field has started, the reader looks whether the text of the field is blank, and a blank text that
stood in quotes is where the two differ: behind it another quote opens the field again for the
reader only. Main statement: up to such a place the two agree, so that no record ends inside
quotes, and reading the records one by one gives what one pass over the whole text gives.
-/
namespace Spreadsheet.Csv

namespace FieldReader

/-- Whether `c` opens a field in quotes again, behind a blank text that stood in quotes. -/
def reopensAt (r : FieldReader) (c : Char) : Bool :=
  r.quoting == .outside && r.quoted && Text.allBlank r.current && c == '"'

/-- Whether a field in quotes is opened again somewhere in the text. -/
def reopens (r : FieldReader) : List Char → Bool
  | [] => false
  | c :: rest => r.reopensAt c || (r.step c).reopens rest

/-- The reader's quoting in the terms of the splitter: a field has not started as long as it is
blank and nothing of it stood in quotes. -/
def splitterQuoting (r : FieldReader) : Quoting :=
  match r.quoting with
  | .outside => .outside (!r.quoted && Text.allBlank r.current)
  | .inside => .inside
  | .behindQuote => .behindQuote

/-- The fields of a line that is over, whose end takes a carriage return with it. -/
def closeLine (r : FieldReader) : List (List Char) :=
  match r.quoting, r.current with
  | .behindQuote, _ => r.close.reverse
  | _, '\r' :: rest => ({ r with current := rest } : FieldReader).close.reverse
  | _, _ => r.close.reverse

end FieldReader

/-- The reader behind the text of a record. -/
def readerAfter (record : List Char) : FieldReader :=
  record.foldl FieldReader.step {}

/-- Whether a field in quotes is opened again in a record. -/
def reopens (record : List Char) : Bool :=
  FieldReader.reopens {} record

/-- A reader of a whole text: the complete rows, in reverse, the current row, and whether anything
of it has been read. -/
structure TableReader where
  rows : List (List (List Char)) := []
  row : FieldReader := {}
  started : Bool := false

namespace TableReader

/-- A line feed ends the row unless the reader of fields stands inside quotes. -/
def step (t : TableReader) (c : Char) : TableReader :=
  if c = '\n' ∧ t.row.quoting ≠ .inside then { rows := t.row.closeLine :: t.rows }
  else { t with row := t.row.step c, started := true }

def finish (t : TableReader) : List (List (List Char)) :=
  (if t.started then t.row.closeLine :: t.rows else t.rows).reverse

end TableReader

/-- The fields of a text in one pass, which follows the quotes as the reader of fields does. -/
def tableInOnePass (text : List Char) : List (List (List Char)) :=
  (text.foldl TableReader.step {}).finish

/-! ## One character -/

namespace FieldReader

/-- What a character makes of the reader. -/
inductive Transition (r : FieldReader) : Char → FieldReader → Prop
  | comma (hoff : r.quoting ≠ .inside) : Transition r ',' (atStart r.close)
  | opening (hoff : r.quoting = .outside) (hblank : Text.allBlank r.current = true) :
    Transition r '"' { r with current := [], quoted := true, quoting := .inside }
  | closing (hin : r.quoting = .inside) : Transition r '"' { r with quoting := .behindQuote }
  | doubled (hbehind : r.quoting = .behindQuote) :
    Transition r '"' { r with current := '"' :: r.current, quoting := .inside }
  | inner {c : Char} (hin : r.quoting = .inside) (hquote : c ≠ '"') :
    Transition r c { r with current := c :: r.current }
  | outer {c : Char} (hoff : r.quoting ≠ .inside) (hcomma : c ≠ ',')
    (hquote : c = '"' → r.quoting = .outside ∧ Text.allBlank r.current = false) :
    Transition r c { r with current := c :: r.current, quoting := .outside }

theorem transition_step (r : FieldReader) (c : Char) : r.Transition c (r.step c) := by
  cases hr : r.quoting with
  | inside =>
    by_cases hquote : c = '"'
    · subst hquote
      simpa [step, hr] using Transition.closing hr
    · simpa [step, hr, hquote] using Transition.inner hr hquote
  | behindQuote =>
    have hoff : r.quoting ≠ .inside := by simp [hr]
    by_cases hcomma : c = ','
    · subst hcomma
      rw [step_comma hoff]
      exact .comma hoff
    · by_cases hquote : c = '"'
      · subst hquote
        simpa [step, hr] using Transition.doubled hr
      · simpa [step, stepOutside, hr, hcomma, hquote] using
          Transition.outer hoff hcomma fun h => absurd h hquote
  | outside =>
    have hoff : r.quoting ≠ .inside := by simp [hr]
    by_cases hcomma : c = ','
    · subst hcomma
      rw [step_comma hoff]
      exact .comma hoff
    · by_cases hopen : c = '"' ∧ Text.allBlank r.current = true
      · obtain ⟨rfl, hblank⟩ := hopen
        simpa [step, stepOutside, hr, hblank] using Transition.opening hr hblank
      · have houter := Transition.outer (r := r) (c := c) hoff hcomma fun h =>
          ⟨hr, by simpa [h] using hopen⟩
        simpa [step, stepOutside, hr, hcomma, hopen] using houter

end FieldReader

/-! ## The reader on a growing record -/

theorem readerAfter_concat (record : List Char) (c : Char) :
    readerAfter (record ++ [c]) = (readerAfter record).step c := by
  rw [readerAfter, List.foldl_append]
  rfl

theorem FieldReader.reopens_append (r : FieldReader) (text more : List Char) :
    r.reopens (text ++ more) = (r.reopens text || (text.foldl step r).reopens more) := by
  induction text generalizing r with
  | nil => rfl
  | cons c rest ih => rw [List.cons_append, reopens, reopens, ih, Bool.or_assoc, List.foldl_cons]

theorem reopens_concat (record : List Char) (c : Char) :
    reopens (record ++ [c]) = (reopens record || (readerAfter record).reopensAt c) := by
  rw [reopens, FieldReader.reopens_append, FieldReader.reopens, FieldReader.reopens, Bool.or_false]
  rfl

/-- Whoever is inside quotes, or just behind them, reads a quoted field. -/
theorem quoted_readerAfter (record : List Char) :
    (readerAfter record).quoting ≠ .outside → (readerAfter record).quoted = true := by
  refine List.foldlRecOn (motive := fun r : FieldReader => r.quoting ≠ .outside → r.quoted = true)
    record FieldReader.step (fun hquoting => absurd rfl hquoting) ?_
  intro r hr c _
  have hstep := r.transition_step c
  generalize r.step c = next at hstep ⊢
  cases hstep with
  | comma => exact fun hquoting => absurd rfl hquoting
  | opening => exact fun _ => rfl
  | closing hin => exact fun _ => hr (by simp [hin])
  | doubled hbehind => exact fun _ => hr (by simp [hbehind])
  | inner hin => exact fun _ => hr (by simp [hin])
  | outer => exact fun hquoting => absurd rfl hquoting

namespace FieldReader

theorem closeLine_of_head {r : FieldReader} (h : r.current.head? ≠ some '\r') :
    r.closeLine = r.close.reverse := by
  unfold closeLine
  split
  next => rfl
  next hcurrent _ =>
    rw [hcurrent] at h
    exact absurd rfl h
  next => rfl

theorem closeLine_step {r : FieldReader} {c : Char} (hc : c ≠ '\r') :
    (r.step c).closeLine = (r.step c).close.reverse := by
  have hstep := r.transition_step c
  generalize r.step c = next at hstep ⊢
  cases hstep with
  | comma => rfl
  | opening => rfl
  | closing => rfl
  | doubled => rfl
  | inner => exact closeLine_of_head (by simpa using hc)
  | outer => exact closeLine_of_head (by simpa using hc)

theorem closeLine_step_return (r : FieldReader) : (r.step '\r').closeLine = r.close.reverse := by
  cases hr : r.quoting <;> simp [step, stepOutside, hr, closeLine, close]

end FieldReader

/-- A carriage return at the end of a record is left to the line end. -/
theorem closeLine_readerAfter (record : List Char) :
    (readerAfter record).closeLine = fields (Splitter.closeText record.reverse) := by
  rcases List.eq_nil_or_concat record with rfl | ⟨before, c, rfl⟩
  · rfl
  rw [List.concat_eq_append, readerAfter_concat, List.reverse_append, List.reverse_singleton,
    List.singleton_append]
  by_cases hreturn : c = '\r'
  · subst hreturn
    rw [FieldReader.closeLine_step_return, Splitter.closeText, List.reverse_reverse]
    rfl
  · rw [FieldReader.closeLine_step hreturn, ← readerAfter_concat, Splitter.closeText]
    · rw [List.reverse_cons, List.reverse_reverse]
      rfl
    · simpa using hreturn

/-! ## The quoting of the two -/

/-- The splitter's quoting behind a character that ends no record. -/
def Quoting.next (c : Char) : Quoting → Quoting
  | .outside atFieldStart =>
    if c = '"' ∧ atFieldStart then .inside
    else if c = ',' then .outside true
    else if Text.isBlank c then .outside atFieldStart
    else .outside false
  | .inside => if c = '"' then .behindQuote else .inside
  | .behindQuote =>
    if c = '"' then .inside else if c = ',' then .outside true else .outside false

/-- Unless a field is opened again, the reader's quoting changes as that of the splitter. -/
theorem FieldReader.splitterQuoting_step {r : FieldReader} {c : Char}
    (hquoted : r.quoting ≠ .outside → r.quoted = true) (hopen : r.reopensAt c = false) :
    (r.step c).splitterQuoting = r.splitterQuoting.next c := by
  have hstep := r.transition_step c
  generalize r.step c = after at hstep ⊢
  cases hstep with
  | comma hoff =>
    cases hr : r.quoting with
    | inside => exact absurd hr hoff
    | outside => simp [splitterQuoting, hr, Quoting.next, atStart, Text.allBlank]
    | behindQuote => simp [splitterQuoting, hr, Quoting.next, atStart, Text.allBlank]
  | opening hoff hblank =>
    -- the quote opens the field for the first time
    have hfresh : r.quoted = false := by simpa [reopensAt, hoff, hblank] using hopen
    simp [splitterQuoting, hoff, hblank, hfresh, Quoting.next]
  | closing hin => simp [splitterQuoting, hin, Quoting.next]
  | doubled hbehind => simp [splitterQuoting, hbehind, Quoting.next]
  | inner hin hquote => simp [splitterQuoting, hin, Quoting.next, hquote]
  | outer hoff hcomma hquote =>
    cases hr : r.quoting with
    | inside => exact absurd hr hoff
    | behindQuote =>
      have hne : c ≠ '"' := fun h => absurd ((hquote h).1.symm.trans hr) (by decide)
      simp [splitterQuoting, hr, Quoting.next, hne, hcomma, hquoted (by simp [hr])]
    | outside =>
      have hgrown : Text.allBlank (c :: r.current) =
          (Text.isBlank c && Text.allBlank r.current) := rfl
      by_cases hc : c = '"'
      · subst hc
        simp [splitterQuoting, hr, Quoting.next, (hquote rfl).2, hgrown]
      · by_cases hblank : Text.isBlank c = true
        · simp [splitterQuoting, hr, Quoting.next, hc, hcomma, hblank, hgrown]
        · simp [splitterQuoting, hr, Quoting.next, hc, hcomma, hblank, hgrown]

theorem FieldReader.splitterQuoting_eq_inside {r : FieldReader} :
    r.splitterQuoting = .inside ↔ r.quoting = .inside := by
  unfold splitterQuoting
  cases r.quoting <;> simp

namespace Splitter

theorem step_within {s : Splitter} {c : Char} (h : ¬(c = '\n' ∧ s.quoting ≠ .inside)) :
    (s.step c).records = s.records ∧ (s.step c).current = c :: s.current ∧
      (s.step c).quoting = s.quoting.next c := by
  cases hs : s.quoting with
  | inside => simp [step, hs, Quoting.next]
  | outside atFieldStart =>
    have hline : c ≠ '\n' := fun hc => h ⟨hc, by simp [hs]⟩
    simp [step, hs, stepOutside, hline, Quoting.next]
  | behindQuote =>
    have hline : c ≠ '\n' := fun hc => h ⟨hc, by simp [hs]⟩
    by_cases hquote : c = '"'
    · simp [step, hs, Quoting.next, hquote]
    · simp [step, hs, stepOutside, hline, Quoting.next, hquote]

/-- What the splitter has passed, checked against the reader: a record that ends inside quotes has
a field that is opened again, and up to such a field the quoting is the same. -/
structure Checked (s : Splitter) : Prop where
  records : ∀ record ∈ s.records,
    (readerAfter record.text).quoting = .inside → reopens record.text = true
  current : reopens s.current.reverse = true ∨
    s.quoting = (readerAfter s.current.reverse).splitterQuoting

/-- Whether a field is opened again in what the splitter has passed. -/
def Reopened (s : Splitter) : Prop :=
  reopens s.current.reverse = true ∨ ∃ record ∈ s.records, reopens record.text = true

theorem reopens_closeText (current : List Char) :
    reopens (closeText current) = reopens current.reverse := by
  unfold closeText
  split
  next rest =>
    rw [List.reverse_cons, reopens_concat]
    simp [FieldReader.reopensAt]
  next => rfl

theorem inside_of_closeText {current : List Char}
    (h : (readerAfter (closeText current)).quoting = .inside) :
    (readerAfter current.reverse).quoting = .inside := by
  unfold closeText at h
  split at h
  next rest =>
    rw [List.reverse_cons, readerAfter_concat]
    simp [FieldReader.step, h]
  next => exact h

theorem Checked.step {s : Splitter} (h : s.Checked) (c : Char) : (s.step c).Checked := by
  by_cases hline : c = '\n' ∧ s.quoting ≠ .inside
  · obtain ⟨rfl, hoff⟩ := hline
    rw [step_lineEnd hoff]
    refine ⟨List.forall_mem_cons.2 ⟨fun hin => ?_, h.records⟩, .inr rfl⟩
    rw [reopens_closeText]
    refine h.current.resolve_right fun hsame => hoff ?_
    rw [hsame, FieldReader.splitterQuoting_eq_inside]
    exact inside_of_closeText hin
  · obtain ⟨hrecords, hcurrent, hquoting⟩ := step_within hline
    constructor
    · rw [hrecords]
      exact h.records
    · rw [hcurrent, hquoting, List.reverse_cons, reopens_concat, readerAfter_concat]
      rcases h.current with hreopens | hsame
      · simp [hreopens]
      · cases hopen : (readerAfter s.current.reverse).reopensAt c with
        | true => simp
        | false =>
          rw [hsame, FieldReader.splitterQuoting_step (quoted_readerAfter _) hopen]
          exact .inr rfl

theorem Reopened.step {s : Splitter} (h : s.Reopened) (c : Char) : (s.step c).Reopened := by
  by_cases hline : c = '\n' ∧ s.quoting ≠ .inside
  · obtain ⟨rfl, hoff⟩ := hline
    rw [step_lineEnd hoff]
    refine .inr ?_
    rcases h with hcurrent | ⟨record, hrecord, hreopens⟩
    · exact ⟨_, List.mem_cons_self, (reopens_closeText _).trans hcurrent⟩
    · exact ⟨record, List.mem_cons_of_mem _ hrecord, hreopens⟩
  · obtain ⟨hrecords, hcurrent, -⟩ := step_within hline
    rw [Reopened, hrecords, hcurrent, List.reverse_cons, reopens_concat]
    exact h.imp_left fun hreopens => by simp [hreopens]

theorem checked_foldl (text : List Char) {s : Splitter} (h : s.Checked) :
    (text.foldl step s).Checked :=
  List.foldlRecOn text step h fun _ hs c _ => hs.step c

theorem reopened_foldl (text : List Char) {s : Splitter} (h : s.Reopened) :
    (text.foldl step s).Reopened :=
  List.foldlRecOn text step h fun _ hs c _ => hs.step c

theorem checked_start : ({} : Splitter).Checked :=
  ⟨List.forall_mem_nil _, .inr rfl⟩

/-- The splitter and the reader in one pass have read the same. -/
structure Matches (s : Splitter) (t : TableReader) : Prop where
  rows : t.rows = s.records.map fun record => fields record.text
  row : t.row = readerAfter s.current.reverse
  started : t.started = true ↔ s.current ≠ []

theorem Matches.step {s : Splitter} {t : TableReader} (h : s.Matches t) (hs : s.Checked)
    (hopen : ¬s.Reopened) (c : Char) : (s.step c).Matches (t.step c) := by
  have hsame : s.quoting = t.row.splitterQuoting := by
    rw [h.row]
    exact hs.current.resolve_left fun hcurrent => hopen (.inl hcurrent)
  have hinside : s.quoting = .inside ↔ t.row.quoting = .inside := by
    rw [hsame, FieldReader.splitterQuoting_eq_inside]
  by_cases hline : c = '\n' ∧ s.quoting ≠ .inside
  · have hline' : c = '\n' ∧ t.row.quoting ≠ .inside :=
      ⟨hline.1, fun hin => hline.2 (hinside.2 hin)⟩
    rw [TableReader.step, if_pos hline', hline.1, step_lineEnd hline.2]
    refine ⟨?_, rfl, by simp⟩
    rw [h.row, closeLine_readerAfter, List.reverse_reverse, h.rows]
    rfl
  · have hline' : ¬(c = '\n' ∧ t.row.quoting ≠ .inside) :=
      fun hc => hline ⟨hc.1, fun hin => hc.2 (hinside.1 hin)⟩
    obtain ⟨hrecords, hcurrent, -⟩ := step_within hline
    rw [TableReader.step, if_neg hline']
    refine ⟨?_, ?_, by simp [hcurrent]⟩
    · rw [hrecords]
      exact h.rows
    · rw [hcurrent, List.reverse_cons, readerAfter_concat, h.row]

/-- The whole run: the two read the same unless a field is opened again. -/
theorem matches_foldl (text : List Char) {s : Splitter} {t : TableReader} (h : s.Matches t)
    (hs : s.Checked) :
    (text.foldl step s).Reopened ∨ (text.foldl step s).Matches (text.foldl TableReader.step t) := by
  induction text generalizing s t with
  | nil => exact .inr h
  | cons c rest ih =>
    by_cases hopen : s.Reopened
    · exact .inl (reopened_foldl (c :: rest) hopen)
    · exact ih (h.step hs hopen c) (hs.step c)

theorem mem_records_of_mem_dropLast {s : Splitter} {record : Record}
    (h : record ∈ s.finish.dropLast) : record ∈ s.records := by
  unfold finish at h
  split at h
  next => exact List.mem_reverse.1 (List.dropLast_subset _ h)
  next =>
    rw [close, List.reverse_cons, List.dropLast_concat] at h
    exact List.mem_reverse.1 h

theorem Reopened.exists_record {s : Splitter} (h : s.Reopened) :
    ∃ record ∈ s.finish, reopens record.text = true := by
  rcases h with hcurrent | ⟨record, hrecord, hreopens⟩
  · have hne : s.current ≠ [] := by
      intro hnil
      rw [hnil] at hcurrent
      cases hcurrent
    refine ⟨{ line := s.startLine, text := closeText s.current }, ?_,
      (reopens_closeText _).trans hcurrent⟩
    simp [finish, hne, close]
  · refine ⟨record, ?_, hreopens⟩
    unfold finish close
    split <;> simp [hrecord]

theorem Matches.finish {s : Splitter} {t : TableReader} (h : s.Matches t) :
    s.finish.map (fun record => fields record.text) = t.finish := by
  unfold Splitter.finish TableReader.finish
  by_cases hcurrent : s.current = []
  · have hstarted : t.started = false := by
      rw [← Bool.not_eq_true, h.started]
      exact fun hne => hne hcurrent
    rw [if_pos hcurrent, hstarted, List.map_reverse, h.rows]
    rfl
  · rw [if_neg hcurrent, if_pos (h.started.2 hcurrent), List.map_reverse, close, List.map_cons,
      h.row, closeLine_readerAfter, List.reverse_reverse, h.rows]

end Splitter

/-- Of the records but the last, only those in which a field in quotes is opened again can end
inside quotes; if there are none, reading record by record is reading in one pass. -/
theorem records_follow_quotes (text : List Char) :
    (∀ record ∈ (records text).dropLast,
      (readerAfter record.text).quoting = .inside → reopens record.text = true) ∧
    ((∀ record ∈ records text, reopens record.text = false) →
      table text = tableInOnePass text) := by
  have hchecked := Splitter.checked_foldl text Splitter.checked_start
  constructor
  · intro record hrecord
    exact hchecked.records record (Splitter.mem_records_of_mem_dropLast hrecord)
  · intro hopen
    have hstart : ({} : Splitter).Matches {} := ⟨rfl, rfl, by simp⟩
    rcases Splitter.matches_foldl text hstart Splitter.checked_start with hreopened | hmatches
    · obtain ⟨record, hrecord, hreopens⟩ := hreopened.exists_record
      rw [hopen record hrecord] at hreopens
      cases hreopens
    · exact hmatches.finish

/-- Behind an empty text in quotes another quote opens the field again, and the line feed inside
it ends the record all the same. -/
theorem records_cut_reopened_field :
    records "\"\" \"a\nb".toList = [⟨0, "\"\" \"a".toList⟩, ⟨1, ['b']⟩] ∧
      (readerAfter "\"\" \"a".toList).quoting = .inside ∧
      table "\"\" \"a\nb".toList = [[['a']], [['b']]] ∧
      tableInOnePass "\"\" \"a\nb".toList = [["a\nb".toList]] := by
  decide

end Spreadsheet.Csv

import Spreadsheet.Formula.Render
import Spreadsheet.Modifier.Cell
import Spreadsheet.Proofs.WrittenCorners

/-!
Modifiers as they can be written for any settings: pairs with slashes between them, and every value
in quotes. Slashes, brackets and quotes in a value are then part of it, and the first brackets
outside quotes close the modifier. Main statement: a cell with written modifiers in front of its
text is read as the modifiers that its pairs make one after the other, with the text unchanged, or
fails with the first pair that cannot be set.
-/
namespace Spreadsheet

namespace Modifier

/-- A key with or without a value, as it can stand in a modifier. -/
structure Pair where
  key : List Char
  value : Option (List Char)
  key_ne_nil : key ≠ []
  all_isKeyChar : key.all isKeyChar = true

namespace Pair

theorem isKeyChar_of_mem (p : Pair) : ∀ c ∈ p.key, isKeyChar c = true :=
  List.all_eq_true.1 p.all_isKeyChar

/-- What is written behind the key. -/
def writeValue : Option (List Char) → List Char
  | none => []
  | some value => '=' :: Text.enclose '\'' value

/-- The pair as it is written, its value in quotes. -/
def write (p : Pair) : List Char :=
  p.key ++ writeValue p.value

end Pair

def writePairs (pairs : List Pair) : List Char :=
  joinChars ['/'] (pairs.map Pair.write)

/-- Sets what one pair says. -/
def setPair (row : Bool) (m : Modifier) (p : Pair) : Except ModifierError Modifier :=
  m.set (String.ofList p.key) (p.value.map String.ofList) row

/-- Sets what the pairs say, one after the other, up to the first that fails. -/
def setAll (row : Bool) : Modifier → List Pair → Except ModifierError Modifier
  | m, [] => .ok m
  | m, p :: rest =>
    match m.setPair row p with
    | .error e => .error e
    | .ok m => setAll row m rest

/-! ## One pair -/

theorem isBlank_of_isKeyChar {c : Char} (h : isKeyChar c = true) : Text.isBlank c = false := by
  cases Bool.or_eq_true_iff.1 h with
  | inl halphanum => exact Text.isBlank_of_isAlphanum halphanum
  | inr hline =>
    rw [eq_of_beq hline]
    decide

/-- A value in quotes ends at the quote that has no other one behind it. -/
theorem readValue_enclose (value : List Char) {after : List Char}
    (h : after.head? ≠ some '\'') :
    readValue (Text.enclose '\'' value ++ after) = .ok (value, after) := by
  have hquoted : Text.enclose '\'' value ++ after =
      '\'' :: (Text.double '\'' value ++ '\'' :: after) := by
    simp [Text.enclose]
  rw [hquoted, readValue, Text.readQuoted_double '\'' value after h]

/-- Whether `c` can follow a pair. -/
def EndsPair (c : Char) : Prop :=
  c = '/' ∨ c = ']'

theorem EndsPair.marks {c : Char} (h : EndsPair c) :
    isKeyChar c = false ∧ Text.isBlank c = false ∧ c ≠ '=' ∧ c ≠ '\'' := by
  rcases h with rfl | rfl
  · decide
  · decide

theorem trimStart_of_head {c : Char} {s : List Char} (h : Text.isBlank c = false) :
    Text.trimStart (c :: s) = c :: s :=
  List.dropWhile_cons_of_neg (by rw [h]; exact Bool.false_ne_true)

theorem trimStart_write (p : Pair) (after : List Char) :
    Text.trimStart (p.write ++ after) = p.write ++ after := by
  obtain ⟨c, rest, hkey⟩ := List.exists_cons_of_ne_nil p.key_ne_nil
  have hc : Text.isBlank c = false :=
    isBlank_of_isKeyChar (p.isKeyChar_of_mem c (by rw [hkey]; exact List.mem_cons_self))
  rw [Pair.write, hkey]
  exact trimStart_of_head hc

/-- The key ends where its value or the end of the pair begins. -/
theorem span_write (p : Pair) {c : Char} (hc : EndsPair c) (rest : List Char) :
    (p.write ++ c :: rest).takeWhile isKeyChar = p.key ∧
      (p.write ++ c :: rest).dropWhile isKeyChar = Pair.writeValue p.value ++ c :: rest := by
  have hhead : ∀ d ∈ (Pair.writeValue p.value ++ c :: rest).head?, isKeyChar d = false := by
    intro d hd
    cases hvalue : p.value with
    | none =>
      rw [hvalue] at hd
      cases hd
      exact hc.marks.1
    | some value =>
      rw [hvalue] at hd
      cases hd
      decide
  obtain ⟨htake, hdrop⟩ := Text.span_of_head? hhead
  rw [Pair.write, List.append_assoc, List.takeWhile_append_of_pos p.isKeyChar_of_mem, htake,
    List.dropWhile_append_of_pos p.isKeyChar_of_mem, hdrop, List.append_nil]
  exact ⟨rfl, rfl⟩

theorem readPair_write (p : Pair) {c : Char} (hc : EndsPair c) (rest : List Char) :
    readPair (p.write ++ c :: rest) = .ok (p.key, p.value, c :: rest) := by
  obtain ⟨htake, hdrop⟩ := span_write p hc rest
  obtain ⟨-, hblank, hequals, hquote⟩ := hc.marks
  simp only [readPair, trimStart_write, htake, hdrop, if_neg p.key_ne_nil]
  cases hvalue : p.value with
  | none =>
    rw [Pair.writeValue, List.nil_append, trimStart_of_head hblank]
    split
    next after heq =>
      cases heq
      exact absurd rfl hequals
    next => rfl
  | some value =>
    have hstart : Text.trimStart (Text.enclose '\'' value ++ c :: rest) =
        Text.enclose '\'' value ++ c :: rest :=
      trimStart_of_head (by decide)
    have hread : readValue (Text.enclose '\'' value ++ c :: rest) = .ok (value, c :: rest) :=
      readValue_enclose value (by simpa using hquote)
    rw [Pair.writeValue, List.cons_append, trimStart_of_head (by decide)]
    simp only [hstart, hread]

theorem applyPair_write (row : Bool) (m : Modifier) (p : Pair) {c : Char} (hc : EndsPair c)
    (rest : List Char) :
    applyPair row m (p.write ++ c :: rest) =
      (m.setPair row p).bind fun m =>
        (readPairEnd (c :: rest)).map fun pairEnd => (m, pairEnd) := by
  have hset : m.set (String.ofList p.key) (p.value.map String.ofList) row = m.setPair row p := rfl
  simp only [applyPair, readPair_write p hc rest, hset]
  cases m.setPair row p with
  | error e => rfl
  | ok m =>
    cases readPairEnd (c :: rest) with
    | error e => rfl
    | ok pairEnd => rfl

/-! ## All pairs -/

theorem readPairs_eq (row : Bool) (m : Modifier) (s : List Char) :
    readPairs row m s =
      match applyPair row m s with
      | .error e => .error e
      | .ok (m, .closed rest) => .ok (m, rest)
      | .ok (m, .more rest) => readPairs row m rest := by
  rw [readPairs]
  split
  next heq => rw [heq]
  next heq => rw [heq]
  next heq => simp only [heq]

/-- Written pairs are set one after the other, and what stands behind the closing brackets is
left. -/
theorem readPairs_writePairs (row : Bool) (m : Modifier) {pairs : List Pair} (h : pairs ≠ [])
    (rest : List Char) :
    readPairs row m (writePairs pairs ++ ']' :: ']' :: rest) =
      (setAll row m pairs).map fun m => (m, rest) := by
  induction pairs generalizing m with
  | nil => exact absurd rfl h
  | cons p more ih =>
    rw [setAll]
    -- the last pair is followed by the brackets, every other one by a slash
    by_cases hmore : more = []
    · subst hmore
      have hclosed : readPairEnd (']' :: ']' :: rest) = .ok (.closed rest) := rfl
      show readPairs row m (p.write ++ ']' :: ']' :: rest) = _
      rw [readPairs_eq, applyPair_write row m p (.inr rfl), hclosed]
      cases m.setPair row p with
      | error e => rfl
      | ok m => rfl
    · have hnext : ∀ after, readPairEnd ('/' :: after) = .ok (.more after) := fun _ => rfl
      have hjoin : writePairs (p :: more) ++ ']' :: ']' :: rest =
          p.write ++ '/' :: (writePairs more ++ ']' :: ']' :: rest) := by
        obtain ⟨q, later, rfl⟩ := List.exists_cons_of_ne_nil hmore
        simp [writePairs, joinChars]
      rw [hjoin, readPairs_eq, applyPair_write row m p (.inl rfl), hnext]
      cases m.setPair row p with
      | error e => rfl
      | ok m => exact ih m hmore

/-- A written row modifier, with what stands behind it. -/
theorem readRowModifier_writePairs {pairs : List Pair} (h : pairs ≠ []) (rest : List Char) :
    readRowModifier true ('!' :: '[' :: '[' :: (writePairs pairs ++ ']' :: ']' :: rest)) =
      (setAll true {} pairs).map fun row => (some row, Text.trimStart rest) := by
  rw [readRowModifier, if_pos rfl, readPairs_writePairs true {} h]
  cases setAll true {} pairs with
  | error e => rfl
  | ok row => rfl

end Modifier

namespace ParsedCell

open Modifier

/-- A cell's text with the modifiers of its row, if there are pairs for it, and its own in front. -/
def write (rowPairs cellPairs : List Pair) (value : List Char) : List Char :=
  (if rowPairs = [] then [] else '!' :: '[' :: '[' :: (writePairs rowPairs ++ [']', ']'])) ++
    '[' :: '[' :: (writePairs cellPairs ++ ']' :: ']' :: value)

/-- What the pairs make of a cell: those of the row start from nothing, and those of the cell from
what the row hands down. -/
def ofPairs (rowPairs cellPairs : List Pair) (value : List Char) (rowDefaults : Modifier) :
    Except ModifierError ParsedCell :=
  if rowPairs = [] then
    match setAll false rowDefaults cellPairs with
    | .error e => .error e
    | .ok m => .ok { rowModifier := none, modifier := m, value := value }
  else
    match setAll true {} rowPairs with
    | .error e => .error e
    | .ok row =>
      match setAll false row.cellDefaults cellPairs with
      | .error e => .error e
      | .ok m => .ok { rowModifier := some row, modifier := m, value := value }

/-- Any settings can be written in front of any text and are read back. -/
theorem read_write (rowPairs : List Pair) {cellPairs : List Pair} (hcell : cellPairs ≠ [])
    (value : List Char) (rowDefaults : Modifier) :
    ParsedCell.read (write rowPairs cellPairs value) rowDefaults true =
      ofPairs rowPairs cellPairs value rowDefaults := by
  let behind := '[' :: '[' :: (writePairs cellPairs ++ ']' :: ']' :: value)
  have htrim : Text.trimStart behind = behind := trimStart_of_head (by decide)
  have hcells : ∀ defaults, readCellModifier defaults behind =
      (setAll false defaults cellPairs).map fun m => (m, value) :=
    fun defaults => readPairs_writePairs false defaults hcell value
  by_cases hrow : rowPairs = []
  · have hwritten : write rowPairs cellPairs value = behind := by
      rw [write, if_pos hrow, List.nil_append]
    have hnone : readRowModifier true behind = .ok (none, behind) := rfl
    simp only [ofPairs, if_pos hrow, ParsedCell.read, hwritten, htrim, hnone, hcells]
    cases setAll false rowDefaults cellPairs with
    | error e => rfl
    | ok m => rfl
  · have hwritten : write rowPairs cellPairs value =
        '!' :: '[' :: '[' :: (writePairs rowPairs ++ ']' :: ']' :: behind) := by
      rw [write, if_neg hrow]
      simp [behind]
    have hstart : Text.trimStart (write rowPairs cellPairs value) =
        write rowPairs cellPairs value := by
      rw [hwritten]
      exact trimStart_of_head (by decide)
    have hsome : readRowModifier true (write rowPairs cellPairs value) =
        (setAll true {} rowPairs).map fun row => (some row, behind) := by
      rw [hwritten, readRowModifier_writePairs hrow, htrim]
    simp only [ofPairs, if_neg hrow, ParsedCell.read, hstart, hsome]
    cases setAll true {} rowPairs with
    | error e => rfl
    | ok row =>
      simp only [Except.map, hcells]
      cases setAll false row.cellDefaults cellPairs with
      | error e => rfl
      | ok m => rfl

/-- Two copies of a row whose note has every mark of a modifier in it. -/
def markedRow : List Pair :=
  [⟨"E".toList, some "2".toList, by decide, by decide⟩,
    ⟨"note".toList, some "]] 'a'/b = ".toList, by decide, by decide⟩]

/-- A bound cell, with an empty note of its own. -/
def boundCell : List Pair :=
  [⟨"var".toList, some " total".toList, by decide, by decide⟩,
    ⟨"n".toList, some [], by decide, by decide⟩]

/-- A setting that is only for rows, in front of one that no key has. -/
def frozenCell : List Pair :=
  [⟨"freeze".toList, none, by decide, by decide⟩, ⟨"x_1".toList, none, by decide, by decide⟩]

theorem read_write_markedRow :
    boundCell ≠ [] ∧ frozenCell ≠ [] ∧
      write markedRow boundCell " [[x]]".toList =
        "![[E='2'/note=']] ''a''/b = ']][[var=' total'/n='']] [[x]]".toList ∧
      ParsedCell.read (write markedRow boundCell " [[x]]".toList) {} true =
        .ok
          { rowModifier := some { note := "]] 'a'/b = ", expand := some { amount := some 2 } }
            modifier := { note := "", boundName := "total" }
            value := " [[x]]".toList } ∧
      ParsedCell.read (write [] frozenCell []) {} true = .error (.rowOnly "freeze") := by
  have hbound : boundCell ≠ [] := List.cons_ne_nil _ _
  have hfrozen : frozenCell ≠ [] := List.cons_ne_nil _ _
  refine ⟨hbound, hfrozen, by decide, ?_, ?_⟩
  · rw [read_write markedRow hbound]
    decide
  · rw [read_write [] hfrozen]
    decide

end ParsedCell
end Spreadsheet

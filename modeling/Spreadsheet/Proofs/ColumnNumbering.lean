import Mathlib.Tactic.Ring
import Spreadsheet.Proofs.WrittenNames

/-!
Column letters as a way of writing numbers. A letter counts its place in the alphabet, from one to
twenty-six, times a power of twenty-six for the letters behind it; no letter counts zero, so a
number is written in one way only. Main statement: letters are read as the column one below the
number that they stand for, and are its letters, up to the largest machine index; nothing else is
read as a column.
-/
namespace Spreadsheet.Column

open Text

/-- The capital letters in their order. -/
def alphabet : List Char :=
  "ABCDEFGHIJKLMNOPQRSTUVWXYZ".toList

/-- The number that letters of either case stand for, each with the weight of its position. -/
def positionalValue : List Char → Nat
  | [] => 0
  | c :: rest => (alphabet.idxOf c.toUpper + 1) * 26 ^ rest.length + positionalValue rest

theorem letterValue_eq_idxOf {c : Char} (hc : c.isAlpha = true) :
    letterValue c = alphabet.idxOf c.toUpper + 1 :=
  forall_ascii (P := fun c => c.isAlpha = true → letterValue c = alphabet.idxOf c.toUpper + 1)
    (by decide) (ascii_of_isAlpha hc) hc

theorem foldl_letterValue {s : List Char} (halpha : ∀ c ∈ s, c.isAlpha = true) (start : Nat) :
    s.foldl (fun value c => value * 26 + letterValue c) start =
      start * 26 ^ s.length + positionalValue s := by
  -- what was there before is moved up by one position for each letter
  induction s generalizing start with
  | nil => simp [positionalValue]
  | cons c rest ih =>
    obtain ⟨hc, hrest⟩ := List.forall_mem_cons.1 halpha
    rw [List.foldl_cons, ih hrest, letterValue_eq_idxOf hc, positionalValue, List.length_cons]
    ring

theorem lettersValue_eq_positionalValue {s : List Char} (halpha : ∀ c ∈ s, c.isAlpha = true) :
    lettersValue s = positionalValue s := by
  rw [lettersValue, foldl_letterValue halpha, Nat.zero_mul, Nat.zero_add]

theorem read_eq_some_iff_positionalValue {s : List Char} {column : Nat} (hne : s ≠ [])
    (halpha : ∀ c ∈ s, c.isAlpha = true) :
    read s = some column ↔
      positionalValue s = column + 1 ∧ positionalValue s ≤ 2 ^ 64 - 1 := by
  have hlimit : indexLimit = 2 ^ 64 := rfl
  rw [read_eq_some_iff, lettersValue_eq_positionalValue halpha]
  constructor
  · rintro ⟨-, -, hvalue, hlt⟩
    omega
  · rintro ⟨hvalue, hle⟩
    exact ⟨hne, halpha, hvalue, by omega⟩

theorem letters_of_read {s : List Char} {column : Nat} (h : read s = some column) :
    letters column = s.map Char.toUpper := by
  obtain ⟨-, halpha, hvalue, -⟩ := read_eq_some_iff.1 h
  exact letters_lettersValue halpha hvalue

/-- Without a column there are no letters, something other than letters, or too large a number. -/
theorem read_eq_none_iff {s : List Char} :
    read s = none ↔
      s = [] ∨ (∃ c ∈ s, c.isAlpha = false) ∨ 2 ^ 64 - 1 < positionalValue s := by
  rw [Option.eq_none_iff_forall_ne_some]
  constructor
  · intro hnone
    by_contra hreadable
    simp only [not_or, not_exists, not_and, Bool.not_eq_false, Nat.not_lt] at hreadable
    obtain ⟨hne, halpha, hle⟩ := hreadable
    have hpos : 0 < positionalValue s :=
      lettersValue_eq_positionalValue halpha ▸ lettersValue_pos hne
    exact hnone (positionalValue s - 1)
      ((read_eq_some_iff_positionalValue hne halpha).2 ⟨by omega, hle⟩)
  · intro hunreadable column hread
    obtain ⟨hne, halpha, -, -⟩ := read_eq_some_iff.1 hread
    have hle := ((read_eq_some_iff_positionalValue hne halpha).1 hread).2
    rcases hunreadable with hnil | ⟨c, hc, hother⟩ | hlarge
    · exact hne hnil
    · rw [halpha c hc] at hother
      cases hother
    · omega

/-- Columns and texts of capital letters name each other one to one as long as the number that is
written, one more than the column, is a machine index. Letters of either case are read, and no
other text. -/
theorem letters_number_columns :
    (∀ column < 2 ^ 64 - 1, read (letters column) = some column) ∧
    (∀ s column, s ≠ [] → (∀ c ∈ s, c.isAlpha = true) →
      (read s = some column ↔
        positionalValue s = column + 1 ∧ positionalValue s ≤ 2 ^ 64 - 1)) ∧
    (∀ s column, read s = some column → letters column = s.map Char.toUpper) ∧
    ∀ s, read s = none ↔
      s = [] ∨ (∃ c ∈ s, c.isAlpha = false) ∨ 2 ^ 64 - 1 < positionalValue s := by
  refine ⟨fun column hlt => ?_, fun s column => read_eq_some_iff_positionalValue,
    fun s column => letters_of_read, fun s => read_eq_none_iff⟩
  have hlimit : indexLimit = 2 ^ 64 := rfl
  exact read_letters (by omega)

/-- The last letters that name a column, and the first ones that do not. -/
theorem letters_number_columns_atTheLimit :
    read (letters 18446744073709551614) = some 18446744073709551614 ∧
    letters 18446744073709551614 = "GKGWBYLWRXTLPO".toList ∧
    read "gkgwbylwrxtlpo".toList = some 18446744073709551614 ∧
    read "gkgwbylwrxtlpp".toList = none := by
  have hread : read "gkgwbylwrxtlpo".toList = some 18446744073709551614 :=
    (letters_number_columns.2.1 _ _ (by decide) (List.all_eq_true.1 (by decide))).2
      ⟨by decide, by decide⟩
  exact ⟨letters_number_columns.1 _ (by decide), letters_number_columns.2.2.1 _ _ hread, hread,
    (letters_number_columns.2.2.2 _).2 (.inr (.inr (by decide)))⟩

end Spreadsheet.Column

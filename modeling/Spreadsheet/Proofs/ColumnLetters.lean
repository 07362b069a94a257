import Mathlib.Data.List.Induction
import Spreadsheet.Address.Column

/-!
Column letters and the columns that they name: the letters of a column stand for the number one
above it, and are read as the column as long as that number is a machine index.
-/
namespace Spreadsheet.Column

theorem isAlpha_letter {place : Nat} (h : place < 26) : (letter place).isAlpha = true := by
  revert place
  decide

theorem isAlpha_of_mem_letters {column : Nat} {c : Char} (h : c ∈ letters column) :
    c.isAlpha = true := by
  fun_induction letters column with
  | case1 column hlt =>
    rw [List.mem_singleton] at h
    rw [h]
    exact isAlpha_letter hlt
  | case2 column hge ih =>
    cases List.mem_append.1 h with
    | inl hmem => exact ih hmem
    | inr hmem =>
      rw [List.mem_singleton] at hmem
      rw [hmem]
      exact isAlpha_letter (Nat.mod_lt _ (by decide))

theorem letters_ne_nil (column : Nat) : letters column ≠ [] := by
  rw [letters]
  split <;> simp

theorem letterValue_letter {place : Nat} (h : place < 26) :
    letterValue (letter place) = place + 1 := by
  revert place
  decide

/-- The number that letters stand for in bijective base twenty-six. -/
def lettersValue (s : List Char) : Nat :=
  s.foldl (fun value c => value * 26 + letterValue c) 0

theorem lettersValue_concat (s : List Char) (c : Char) :
    lettersValue (s ++ [c]) = lettersValue s * 26 + letterValue c := by
  unfold lettersValue
  rw [List.foldl_append]
  rfl

/-- There is no letter for zero. -/
theorem lettersValue_pos {s : List Char} (h : s ≠ []) : 0 < lettersValue s := by
  have hlast : 0 < letterValue (s.getLast h) := Nat.succ_pos _
  rw [← List.dropLast_concat_getLast h, lettersValue_concat]
  omega

theorem lettersValue_letters (column : Nat) : lettersValue (letters column) = column + 1 := by
  fun_induction letters column with
  | case1 column hlt =>
    show 0 * 26 + letterValue (letter column) = column + 1
    rw [letterValue_letter hlt]
    omega
  | case2 column hge ih =>
    rw [lettersValue_concat, ih, letterValue_letter (Nat.mod_lt _ (by decide))]
    omega

theorem index?_eq_some_iff {n value : Nat} :
    index? n = some value ↔ n = value ∧ value < Text.indexLimit := by
  unfold index?
  split <;> simp only [Option.some.injEq, reduceCtorEq, false_iff] <;> omega

/-- The product need not be looked at, as the sum is not below it. -/
theorem append?_eq_some_iff {before value : Nat} {c : Char} :
    append? before c = some value ↔
      c.isAlpha = true ∧ before * 26 + letterValue c = value ∧ value < Text.indexLimit := by
  unfold append?
  split
  next hc =>
    simp only [Option.bind_eq_some_iff, index?_eq_some_iff]
    constructor
    · rintro ⟨shifted, ⟨rfl, -⟩, hsum⟩
      exact ⟨hc, hsum⟩
    · rintro ⟨-, hsum, hlimit⟩
      exact ⟨before * 26, ⟨rfl, by omega⟩, hsum, hlimit⟩
  next hc => simp [hc]

/-- No sum on the way is above the last one, so the checks on the way never fail on their own. -/
theorem foldlM_append?_eq_some_iff {s : List Char} {value : Nat} :
    s.foldlM append? 0 = some value ↔
      (∀ c ∈ s, c.isAlpha = true) ∧ lettersValue s = value ∧ value < Text.indexLimit := by
  induction s using List.reverseRecOn generalizing value with
  | nil =>
    constructor
    · intro h
      cases h
      exact ⟨fun _ hc => absurd hc List.not_mem_nil, rfl, by decide⟩
    · rintro ⟨-, rfl, -⟩
      rfl
  | append_singleton s c ih =>
    have hstep : (s ++ [c]).foldlM append? 0 = (s.foldlM append? 0).bind fun n => append? n c := by
      rw [List.foldlM_append]
      simp only [List.foldlM_cons, List.foldlM_nil, bind_pure]
      rfl
    rw [hstep, List.forall_mem_append, List.forall_mem_singleton, lettersValue_concat]
    constructor
    · intro h
      obtain ⟨before, hbefore, hlast⟩ := Option.bind_eq_some_iff.1 h
      obtain ⟨hs, rfl, -⟩ := ih.1 hbefore
      obtain ⟨hc, hvalue, hlimit⟩ := append?_eq_some_iff.1 hlast
      exact ⟨⟨hs, hc⟩, hvalue, hlimit⟩
    · rintro ⟨⟨hs, hc⟩, hvalue, hlimit⟩
      have hbefore := ih.2 ⟨hs, rfl, show lettersValue s < Text.indexLimit by omega⟩
      exact Option.bind_eq_some_iff.2
        ⟨lettersValue s, hbefore, append?_eq_some_iff.2 ⟨hc, hvalue, hlimit⟩⟩

theorem read_eq_some_iff_foldlM {s : List Char} {column : Nat} :
    read s = some column ↔ s.foldlM append? 0 = some (column + 1) := by
  unfold read
  split
  next value hvalue =>
    rw [hvalue, Option.some.injEq, Option.some.injEq]
    exact Nat.succ_inj.symm
  next hother =>
    constructor
    · intro h
      cases h
    · intro h
      exact absurd h (hother column)

/-- Letters name a column that is one less than what they stand for. -/
theorem read_eq_some_iff {s : List Char} {column : Nat} :
    read s = some column ↔ s ≠ [] ∧ (∀ c ∈ s, c.isAlpha = true) ∧ lettersValue s = column + 1 ∧
      column + 1 < Text.indexLimit := by
  rw [read_eq_some_iff_foldlM, foldlM_append?_eq_some_iff]
  constructor
  · rintro ⟨halpha, hvalue, hlimit⟩
    refine ⟨?_, halpha, hvalue, hlimit⟩
    rintro rfl
    cases hvalue
  · rintro ⟨-, halpha, hvalue, hlimit⟩
    exact ⟨halpha, hvalue, hlimit⟩

theorem read_letters {column : Nat} (h : column + 1 < Text.indexLimit) :
    read (letters column) = some column :=
  read_eq_some_iff.2
    ⟨letters_ne_nil column, fun _ => isAlpha_of_mem_letters, lettersValue_letters column, h⟩

end Spreadsheet.Column

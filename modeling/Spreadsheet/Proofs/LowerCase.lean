import Spreadsheet.Text.Case

/-!
Lower case is final: the lower-case form of a text has no capitals left, so that a name that was
folded once is not changed by folding it again.
-/
namespace Spreadsheet.Text

/-- The capital letters of ASCII. -/
def capitals : CaseRun :=
  ⟨0x41, 0x5A, 1, 32⟩

/-- All characters that are mapped to a single other one. -/
def shiftedRuns : List CaseRun :=
  capitals :: lowerRuns

/-- The capital with a dot above, the only character whose lower-case form is two characters. -/
def dottedCapital : CaseRun :=
  ⟨0x130, 0x130, 1, 0⟩

/-! ## Single characters -/

theorem CaseRun.map?_eq_some_iff {run : CaseRun} {n m : Nat} :
    run.map? n = some m ↔ run.first ≤ n ∧ n ≤ run.last ∧ (n - run.first) % run.step = 0 ∧
      (n + run.shift).toNat = m := by
  unfold CaseRun.map?
  split
  next hmember =>
    simp only [Bool.and_eq_true, decide_eq_true_eq, beq_iff_eq] at hmember
    simp [hmember]
  next hmember =>
    simp only [Bool.and_eq_true, decide_eq_true_eq, beq_iff_eq] at hmember
    constructor
    · intro h
      cases h
    · rintro ⟨hfirst, hlast, hstep, _⟩
      exact absurd ⟨⟨hfirst, hlast⟩, hstep⟩ hmember

theorem le_first_of_mem_lowerRuns {run : CaseRun} (h : run ∈ lowerRuns) : 128 ≤ run.first := by
  have hall : lowerRuns.all (fun run => Nat.ble 128 run.first) = true := by decide +kernel
  exact Nat.le_of_ble_eq_true (List.all_eq_true.1 hall run h)

theorem toLower_ascii {n : Nat} (h : n < 128) :
    (Char.ofNat n).toLower = ((capitals.map? n).map Char.ofNat).getD (Char.ofNat n) := by
  have hall : ∀ n < 128, (Char.ofNat n).toLower =
      ((capitals.map? n).map Char.ofNat).getD (Char.ofNat n) := by decide
  exact hall n h

/-- ASCII and the tables in one: a character is mapped by the run it is in, if there is one. -/
theorem lowerChar_eq {c : Char} (h : c.toNat ≠ 0x130) :
    lowerChar c = [((shiftedRuns.findSome? (·.map? c.toNat)).map Char.ofNat).getD c] := by
  unfold lowerChar shiftedRuns
  rw [List.findSome?_cons]
  split
  next hascii =>
    have hnone : lowerRuns.findSome? (·.map? c.toNat) = none := by
      rw [List.findSome?_eq_none_iff]
      intro run hrun
      rw [Option.eq_none_iff_forall_ne_some]
      intro m hm
      have hfirst := le_first_of_mem_lowerRuns hrun
      have hmember := (CaseRun.map?_eq_some_iff.1 hm).1
      omega
    have hlower := toLower_ascii hascii
    rw [Char.ofNat_toNat] at hlower
    rw [hlower, hnone]
    cases capitals.map? c.toNat <;> rfl
  next hascii =>
    have hcapital : capitals.map? c.toNat = none := by
      rw [Option.eq_none_iff_forall_ne_some]
      intro m hm
      have hlast : c.toNat ≤ 0x5A := (CaseRun.map?_eq_some_iff.1 hm).2.1
      omega
    have hspecial : lowerSpecial.lookup c.toNat = none := by
      rw [List.lookup_eq_none_iff]
      intro entry hentry
      rw [lowerSpecial, List.mem_singleton] at hentry
      simpa [hentry] using h
    rw [hcapital, mapCase, hspecial]
    cases lowerRuns.findSome? (·.map? c.toNat) <;> rfl

/-! ## No capital is mapped to another -/

/-- Whether no character of `other` is one that `run` maps to. Runs that overlap take every second
number, and are apart if one takes the even and the other the odd ones. -/
def CaseRun.avoids (run other : CaseRun) : Bool :=
  Nat.blt (run.last + run.shift).toNat other.first ||
  Nat.blt other.last (run.first + run.shift).toNat ||
  (decide (0 ≤ run.first + run.shift) && (run.step == 2 || run.first == run.last) &&
    other.step == 2 && ((run.first + run.shift).toNat + other.first) % 2 == 1)

theorem CaseRun.map?_eq_none_of_avoids {run other : CaseRun} {n m : Nat}
    (h : run.avoids other = true) (hm : run.map? n = some m) : other.map? m = none := by
  rw [Option.eq_none_iff_forall_ne_some]
  intro next hnext
  obtain ⟨hfirst, hlast, hstep, rfl⟩ := CaseRun.map?_eq_some_iff.1 hm
  obtain ⟨hfirst', hlast', hstep', _⟩ := CaseRun.map?_eq_some_iff.1 hnext
  simp only [avoids, Bool.or_eq_true, Bool.and_eq_true, decide_eq_true_eq, beq_iff_eq,
    Nat.blt_eq] at h
  rcases h with (hbelow | habove) | ⟨⟨⟨hpositive, halternate⟩, hother⟩, hparity⟩
  · omega
  · omega
  · rw [hother] at hstep'
    rcases halternate with hrun | hsingle
    · rw [hrun] at hstep
      omega
    · omega

theorem avoids_of_mem {run other : CaseRun} (hrun : run ∈ shiftedRuns)
    (hother : other ∈ dottedCapital :: shiftedRuns) : run.avoids other = true := by
  have hall : (shiftedRuns.all fun run =>
      (dottedCapital :: shiftedRuns).all run.avoids) = true := by
    decide +kernel
  exact List.all_eq_true.1 (List.all_eq_true.1 hall run hrun) other hother

/-- The characters of a lower-case form are their own lower-case forms. -/
theorem lowerChar_of_mem {c c' : Char} (h : c' ∈ lowerChar c) : lowerChar c' = [c'] := by
  by_cases hdotted : c.toNat = 0x130
  · have hc : c = Char.ofNat 0x130 := by rw [← hdotted, Char.ofNat_toNat]
    have hall : (lowerChar (Char.ofNat 0x130)).all (fun c' => lowerChar c' == [c']) = true := by
      decide
    exact beq_iff_eq.1 (List.all_eq_true.1 hall c' (hc ▸ h))
  rw [lowerChar_eq hdotted, List.mem_singleton] at h
  cases hmapped : shiftedRuns.findSome? (·.map? c.toNat) with
  | none =>
    rw [hmapped] at h
    rw [h, Option.map_none, Option.getD_none, lowerChar_eq hdotted, hmapped]
    rfl
  | some m =>
    rw [hmapped, Option.map_some, Option.getD_some] at h
    obtain ⟨run, hrun, hm⟩ := List.exists_of_findSome?_eq_some hmapped
    have hapart : ∀ other ∈ dottedCapital :: shiftedRuns, other.map? m = none :=
      fun _ hother => CaseRun.map?_eq_none_of_avoids (avoids_of_mem hrun hother) hm
    by_cases hvalid : m.isValidChar
    · have hnat : c'.toNat = m := by
        rw [h, Char.ofNat, dif_pos hvalid]
        rfl
      have hplain : c'.toNat ≠ 0x130 := by
        intro heq
        have hnone := hapart dottedCapital List.mem_cons_self
        rw [← hnat, heq] at hnone
        cases hnone
      have hnone : shiftedRuns.findSome? (·.map? c'.toNat) = none := by
        rw [List.findSome?_eq_none_iff, hnat]
        exact fun other hother => hapart other (List.mem_cons_of_mem _ hother)
      rw [lowerChar_eq hplain, hnone]
      rfl
    · -- a number that is no character stands for the null character, which has no case
      have hnull : c' = Char.ofNat 0 := by
        rw [h, Char.ofNat, dif_neg hvalid]
        rfl
      rw [hnull]
      decide

/-! ## Texts -/

theorem lowerChar_of_mem_lowerAfter {before s : List Char} {c : Char}
    (h : c ∈ lowerAfter before s) : lowerChar c = [c] := by
  induction s generalizing before with
  | nil => cases h
  | cons first rest ih =>
    rw [lowerAfter] at h
    rcases List.mem_append.1 h with hfirst | hrest
    · have hsigma : lowerChar 'ς' = ['ς'] ∧ lowerChar 'σ' = ['σ'] := by decide
      split at hfirst
      · split at hfirst
        · rw [List.mem_singleton.1 hfirst]
          exact hsigma.1
        · rw [List.mem_singleton.1 hfirst]
          exact hsigma.2
      · exact lowerChar_of_mem hfirst
    · exact ih hrest

theorem lowerAfter_eq_self {s : List Char} (h : ∀ c ∈ s, lowerChar c = [c])
    (before : List Char) : lowerAfter before s = s := by
  induction s generalizing before with
  | nil => rfl
  | cons first rest ih =>
    obtain ⟨hfirst, hrest⟩ := List.forall_mem_cons.1 h
    have hsigma : first ≠ 'Σ' := by
      rintro rfl
      exact absurd hfirst (by decide)
    rw [lowerAfter, if_neg hsigma, hfirst, ih hrest]
    rfl

theorem lower_lower (s : String) : lower (lower s) = lower s := by
  have hchars : lowerAfter [] (lower s).toList = (lower s).toList := by
    apply lowerAfter_eq_self
    intro c hc
    rw [lower, String.toList_ofList] at hc
    exact lowerChar_of_mem_lowerAfter hc
  rw [lower, hchars, String.ofList_toList]

end Spreadsheet.Text

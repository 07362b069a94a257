import Mathlib.Data.List.TakeWhile
import Spreadsheet.Number.Shortest

/-!
The text of a number read back. The digits that are written stand for a fraction whose nearest
number is the one they were written for; the shape of the text is that of a number in a formula.
-/
namespace Spreadsheet.Number

/-! ## The nearest number -/

theorem divNearest_mul_right (n d c : Nat) (hc : 0 < c) :
    divNearest (n * c) (d * c) = divNearest n d := by
  have hlt : 2 * (n % d * c) < d * c ↔ 2 * (n % d) < d := by
    rw [← Nat.mul_assoc]
    exact Nat.mul_lt_mul_right hc
  have heq : 2 * (n % d * c) = d * c ↔ 2 * (n % d) = d := by
    rw [← Nat.mul_assoc]
    exact Nat.mul_left_inj (Nat.ne_of_gt hc)
  unfold divNearest
  rw [Nat.mul_div_mul_right _ _ hc, Nat.mul_mod_mul_right]
  simp only [hlt, heq]

theorem divNearest_exact (n d : Nat) (hd : 0 < d) : divNearest (n * d) d = n := by
  unfold divNearest
  rw [Nat.mul_mod_left, Nat.mul_div_cancel _ hd]
  rw [if_pos (Or.inl (by omega))]

/-- The nearest magnitude depends on the fraction alone, not on how it is written. -/
theorem nearestMagnitude_mul_right (n d c : Nat) (hc : 0 < c) :
    nearestMagnitude (n * c) (d * c) = nearestMagnitude n d := by
  have hscaled : n * c * Nat.pow 2 1074 = n * Nat.pow 2 1074 * c := Nat.mul_right_comm _ _ _
  unfold nearestMagnitude
  dsimp only
  rw [hscaled, Nat.mul_div_mul_right _ _ hc]
  rw [Nat.mul_right_comm d c, divNearest_mul_right _ _ _ hc]

theorem nearestMagnitude_of_pow_mul {n d k : Nat} {value : Nat} (hd : 0 < d)
    (hvalue : n * Nat.pow 2 1074 = value * Nat.pow 2 k * d)
    (hk : (value * Nat.pow 2 k).log2 + 1 - 53 = k)
    (hle : k * exponentWeight + value ≤ infinity) :
    nearestMagnitude n d = k * exponentWeight + value := by
  unfold nearestMagnitude
  dsimp only
  rw [hvalue, Nat.mul_div_cancel _ hd, hk]
  have hpos : 0 < d * Nat.pow 2 k := Nat.mul_pos hd (Nat.pow_pos (by decide))
  rw [Nat.mul_assoc, Nat.mul_comm (Nat.pow 2 k), divNearest_exact _ _ hpos]
  exact Nat.min_eq_left hle

/-! ## The exact expansion -/

/-- A magnitude is its significand, shifted by its scale. -/
theorem scale_mul_add_significand (m : Nat) :
    scale m * exponentWeight + significand m = m := by
  have hle : scale m * exponentWeight ≤ m := by
    have hdiv := Nat.div_mul_le_self m exponentWeight
    have hscale : scale m * exponentWeight ≤ m / exponentWeight * exponentWeight :=
      Nat.mul_le_mul_right _ (Nat.sub_le _ _)
    omega
  unfold significand
  omega

theorem scale_of_small {m : Nat} (hsmall : m < 2 * exponentWeight) : scale m = 0 := by
  have hdiv : m / exponentWeight < 2 := by
    rw [Nat.div_lt_iff_lt_mul (by decide)]
    exact hsmall
  unfold scale
  omega

/-- From the second exponent on the leading binary digit is not stored. -/
theorem significand_of_large {m : Nat} (hlarge : 2 * exponentWeight ≤ m) :
    exponentWeight ≤ significand m ∧ significand m < 2 * exponentWeight := by
  have hsplit := scale_mul_add_significand m
  have hmod := Nat.mod_lt m (show 0 < exponentWeight by decide)
  have hdiv : 2 ≤ m / exponentWeight := by
    rw [Nat.le_div_iff_mul_le (by decide)]
    exact hlarge
  have hscale : scale m + 1 = m / exponentWeight := by
    unfold scale
    omega
  have hdecomp := Nat.div_add_mod m exponentWeight
  rw [← hscale, Nat.mul_add, Nat.mul_one, Nat.mul_comm] at hdecomp
  omega

/-- The scale is the shift that leaves a quotient of at most 53 binary digits. -/
theorem log2_significand (m : Nat) :
    (significand m * Nat.pow 2 (scale m)).log2 + 1 - 53 = scale m := by
  have hweight : exponentWeight = 2 ^ 52 := by decide
  by_cases hsmall : m < 2 * exponentWeight
  · have hsplit := scale_mul_add_significand m
    have hscale := scale_of_small hsmall
    have hself : significand m = m := by
      rw [hscale] at hsplit
      omega
    rw [hscale, hself]
    change (m * 1).log2 + 1 - 53 = 0
    rw [Nat.mul_one]
    by_cases hzero : m = 0
    · rw [hzero, Nat.log2_zero]
    · have hlog : m.log2 < 53 := by
        rw [Nat.log2_lt hzero]
        rw [hweight] at hsmall
        omega
      omega
  · obtain ⟨hlow, hhigh⟩ := significand_of_large (Nat.le_of_not_lt hsmall)
    rw [hweight] at hlow hhigh
    have hpos : 0 < significand m * Nat.pow 2 (scale m) :=
      Nat.mul_pos (by omega) (Nat.pow_pos (by decide))
    have hlog : (significand m * Nat.pow 2 (scale m)).log2 = 52 + scale m := by
      rw [Nat.log2_eq_iff (Nat.ne_of_gt hpos)]
      constructor
      · rw [Nat.pow_add]
        exact Nat.mul_le_mul_right _ hlow
      · rw [show 52 + scale m + 1 = 53 + scale m by omega, Nat.pow_add]
        exact Nat.mul_lt_mul_of_pos_right (by omega) (Nat.pow_pos (by decide))
    omega

theorem pow_sub_mul_pow (s bias : Nat) :
    Nat.pow 2 (s - bias) * Nat.pow 2 bias = Nat.pow 2 s * Nat.pow 2 (bias - s) := by
  change 2 ^ (s - bias) * 2 ^ bias = 2 ^ s * 2 ^ (bias - s)
  rw [← Nat.pow_add, ← Nat.pow_add]
  congr 1
  omega

theorem expansion_mul_pow (m : Nat) :
    expansion m * Nat.pow 2 1074 =
      significand m * Nat.pow 2 (scale m) * Nat.pow 10 (places m) := by
  have hten (k : Nat) : Nat.pow 10 k = Nat.pow 2 k * Nat.pow 5 k := Nat.mul_pow 2 5 k
  unfold expansion places
  -- the bias is kept a variable, as its power is not to be computed
  generalize 1074 = bias
  rw [Nat.mul_right_comm _ (Nat.pow 5 _), Nat.mul_assoc (significand m),
    pow_sub_mul_pow (scale m) bias, hten]
  rw [← Nat.mul_assoc, ← Nat.mul_assoc]

/-- The exact expansion of a finite magnitude reads back as it. -/
theorem nearestMagnitude_expansion (m : Nat) (hfinite : m ≤ infinity) :
    nearestMagnitude (expansion m) (Nat.pow 10 (places m)) = m := by
  have hsplit := scale_mul_add_significand m
  have hpos : 0 < Nat.pow 10 (places m) := Nat.pow_pos (by decide)
  rw [nearestMagnitude_of_pow_mul hpos (expansion_mul_pow m) (log2_significand m) (by omega)]
  exact hsplit

/-! ## Written digits -/

theorem Digits.readsAs_iff (d : Digits) (m : Nat) :
    d.readsAs m = true ↔
      nearestMagnitude (d.value * Nat.pow 10 d.zeros) (Nat.pow 10 d.places) = m :=
  beq_iff_eq

theorem readsAs_shortestFrom (m size tries count : Nat) (hfinite : m ≤ infinity) :
    (shortestFrom m (expansion m) size tries count).readsAs m = true := by
  -- a candidate is taken only if it reads back; when none is left, the exact digits do
  induction tries generalizing count with
  | zero =>
    have hexact := nearestMagnitude_expansion m hfinite
    rw [← Nat.mul_one (expansion m)] at hexact
    rw [shortestFrom, Digits.readsAs_iff]
    exact hexact
  | succ tries ih =>
    rw [shortestFrom]
    split
    next d hfind => exact List.find?_some (p := fun d : Digits => d.readsAs m) hfind
    next => exact ih (count + 1)

theorem isDigit_of_mem_decimal {n : Nat} {c : Char} (h : c ∈ Text.decimal n) :
    c.isDigit = true :=
  Nat.isDigit_of_mem_toDigits (by decide) (by decide) h

theorem digitsValue_decimal (n : Nat) : Text.digitsValue 0 (Text.decimal n) = n :=
  Nat.ofDigitChars_ten_toDigits

theorem digitsValue_append (start : Nat) (a b : List Char) :
    Text.digitsValue start (a ++ b) = Text.digitsValue (Text.digitsValue start a) b :=
  Nat.ofDigitChars_append start

theorem digitsValue_zeros (start n : Nat) :
    Text.digitsValue start (List.replicate n '0') = start * Nat.pow 10 n := by
  rw [Nat.mul_comm]
  exact Nat.ofDigitChars_replicate_zero

/-- A text in the form of a number: digits, and further ones behind a point if there is one. -/
inductive Decimal : (whole fraction text : List Char) → Prop
  | whole {digits : List Char} (hne : digits ≠ []) (hdigits : ∀ c ∈ digits, c.isDigit = true) :
    Decimal digits [] digits
  | point {whole fraction : List Char} (hwhole : whole ≠ []) (hfraction : fraction ≠ [])
    (hdigits : ∀ c ∈ whole ++ fraction, c.isDigit = true) :
    Decimal whole fraction (whole ++ '.' :: fraction)

theorem ofDecimalText_of_decimal {whole fraction text : List Char}
    (h : Decimal whole fraction text) :
    ofDecimalText text =
      ofRatio (Text.digitsValue 0 (whole ++ fraction)) (Nat.pow 10 fraction.length) := by
  cases h with
  | whole hne hdigits =>
    unfold ofDecimalText
    rw [List.takeWhile_eq_self_iff.2 hdigits, List.dropWhile_eq_nil_iff.2 hdigits]
    rfl
  | point hwhole hfraction hdigits =>
    have hdigits' : ∀ c ∈ whole, c.isDigit = true :=
      fun c hc => hdigits c (List.mem_append_left _ hc)
    unfold ofDecimalText
    rw [List.takeWhile_append_of_pos hdigits', List.dropWhile_append_of_pos hdigits']
    rw [List.takeWhile_cons_of_neg (by decide), List.dropWhile_cons_of_neg (by decide)]
    rw [List.append_nil, List.drop_one, List.tail_cons]

theorem isDigit_of_mem_zeros {n : Nat} {c : Char} (h : c ∈ List.replicate n '0') :
    c.isDigit = true := by
  rw [List.eq_of_mem_replicate h]
  decide

/-- Digits with a point in front of the last ones, and zeros there where they are too few. -/
theorem decimal_places (n : Nat) {places : Nat} (hplaces : 0 < places) :
    ∃ whole fraction, fraction.length = places ∧ Text.digitsValue 0 (whole ++ fraction) = n ∧
      Decimal whole fraction
        (if places < (Text.decimal n).length then
          (Text.decimal n).take ((Text.decimal n).length - places) ++
            '.' :: (Text.decimal n).drop ((Text.decimal n).length - places)
        else
          '0' :: '.' :: List.replicate (places - (Text.decimal n).length) '0' ++
            Text.decimal n) := by
  have hne : Text.decimal n ≠ [] := Nat.toDigits_ne_nil
  split
  next hlt =>
    refine ⟨_, _, ?_, ?_, .point ?_ ?_ ?_⟩
    · rw [List.length_drop]
      omega
    · rw [List.take_append_drop, digitsValue_decimal]
    · rw [Ne, List.take_eq_nil_iff, not_or]
      exact ⟨by omega, hne⟩
    · rw [Ne, List.drop_eq_nil_iff]
      omega
    · rw [List.take_append_drop]
      exact fun c hc => isDigit_of_mem_decimal hc
  next hge =>
    refine ⟨['0'], List.replicate (places - (Text.decimal n).length) '0' ++ Text.decimal n,
      ?_, ?_, .point (by decide) (by simp [hne]) ?_⟩
    · rw [List.length_append, List.length_replicate]
      omega
    · rw [← List.append_assoc, ← List.replicate_one, List.replicate_append_replicate,
        digitsValue_append, digitsValue_zeros, Nat.zero_mul, digitsValue_decimal]
    · -- the zero of the whole part is one more of the zeros behind the point
      intro c hc
      rw [← List.append_assoc, ← List.replicate_one, List.replicate_append_replicate] at hc
      exact (List.mem_append.1 hc).elim isDigit_of_mem_zeros isDigit_of_mem_decimal

/-- The text of digits has the form of a number, and its digits stand for the same fraction. -/
theorem Digits.render_decimal (d : Digits) :
    ∃ whole fraction, Decimal whole fraction d.render ∧
      Text.digitsValue 0 (whole ++ fraction) * Nat.pow 10 d.places =
        d.value * Nat.pow 10 d.zeros * Nat.pow 10 fraction.length := by
  have hpow (a b : Nat) : Nat.pow 10 (a + b) = Nat.pow 10 a * Nat.pow 10 b := Nat.pow_add 10 a b
  have hne : Text.decimal d.value ≠ [] := Nat.toDigits_ne_nil
  unfold render
  dsimp only
  split
  next hle =>
    refine ⟨_, [], .whole (by simp [hne]) ?_, ?_⟩
    · intro c hc
      exact (List.mem_append.1 hc).elim isDigit_of_mem_decimal isDigit_of_mem_zeros
    · rw [List.append_nil, digitsValue_append, digitsValue_decimal, digitsValue_zeros]
      rw [Nat.mul_assoc, ← hpow, show d.zeros - d.places + d.places = d.zeros by omega]
      exact (Nat.mul_one _).symm
  next hgt =>
    obtain ⟨whole, fraction, hlength, hvalue, hform⟩ :=
      decimal_places d.value (show 0 < d.places - d.zeros by omega)
    refine ⟨whole, fraction, hform, ?_⟩
    rw [hvalue, hlength, Nat.mul_assoc, ← hpow,
      show d.zeros + (d.places - d.zeros) = d.places by omega]

/-- A finite magnitude is written in the form of a number that reads back as it. -/
theorem renderMagnitude_decimal (m : Nat) (hfinite : m < infinity) :
    ∃ whole fraction, Decimal whole fraction (renderMagnitude m) ∧
      nearestMagnitude (Text.digitsValue 0 (whole ++ fraction)) (Nat.pow 10 fraction.length) =
        m := by
  by_cases hzero : m = 0
  · refine ⟨['0'], [], ?_, ?_⟩
    · rw [renderMagnitude, if_pos hzero]
      exact .whole (by decide) (List.forall_mem_singleton.2 (by decide))
    · have hnearest : nearestMagnitude 0 1 = 0 * exponentWeight + 0 :=
        nearestMagnitude_of_pow_mul (by decide) (by simp only [Nat.zero_mul])
          (by rw [Nat.zero_mul, Nat.log2_zero]) (by decide)
      rw [hzero]
      exact hnearest
  · have hread := readsAs_shortestFrom m (Text.decimal (expansion m)).length 17 1 (by omega)
    rw [Digits.readsAs_iff] at hread
    obtain ⟨whole, fraction, hform, hvalue⟩ := (shortest m).render_decimal
    refine ⟨whole, fraction, ?_, ?_⟩
    · rw [renderMagnitude, if_neg hzero]
      exact hform
    · have hplaces : 0 < Nat.pow 10 (shortest m).places := Nat.pow_pos (by decide)
      have hlength : 0 < Nat.pow 10 fraction.length := Nat.pow_pos (by decide)
      -- the two fractions are equal, so that they have the same nearest number
      rw [← nearestMagnitude_mul_right _ _ _ hplaces, hvalue, Nat.mul_comm (Nat.pow 10 _),
        nearestMagnitude_mul_right _ _ _ hlength]
      exact hread

/-- What is printed for a finite number without its sign is read as the same number. -/
theorem ofDecimalText_renderMagnitude (x : Number) (hfinite : x.isFinite = true) :
    ofDecimalText (renderMagnitude x.magnitude) = x.abs := by
  have hlt : x.magnitude.val < infinity := by simpa [isFinite] using hfinite
  obtain ⟨whole, fraction, hform, hvalue⟩ := renderMagnitude_decimal _ hlt
  rw [ofDecimalText_of_decimal hform, ofRatio, abs]
  congr 1
  exact Fin.ext hvalue

theorem ofDecimalText_decimal (n : Nat) : ofDecimalText (Text.decimal n) = ofNat n := by
  have hform : Decimal (Text.decimal n) [] (Text.decimal n) :=
    .whole Nat.toDigits_ne_nil fun c hc => isDigit_of_mem_decimal hc
  rw [ofDecimalText_of_decimal hform, List.append_nil, digitsValue_decimal]
  rfl

end Spreadsheet.Number

import Mathlib.Algebra.Group.Nat.Defs
import ElementFinder.Decimal.Shortest

/-!
# Shortest decimals read back

The search for a shortest decimal tests every candidate before it is taken, so two facts carry
the read-back law: the exact value, where the search ends, reads back, and moving trailing zeros
into the exponent does not change what is read.

Both are about quotients of units.  `Decimal.nearest` decides decimals far outside the range by
their size alone; `nearest_eq_unitFraction` shows that these shortcuts give what the quotient
would give, and from there on only the quotient matters.

A magnitude is nearest to its own units, so a whole number of at most 53 bits, which is the units
of some magnitude, is held exactly (`Binary64.ofNat_exact`).
-/

namespace ElementFinder

/-! ## Rounding a quotient -/

/-- Rounding does not depend on how a fraction is written. -/
theorem roundHalfEven_mul_right (num den : Nat) {k : Nat} (hk : 0 < k) :
    roundHalfEven (num * k) (den * k) = roundHalfEven num den := by
  have hbelow : 2 * (num * k % (den * k)) < den * k ↔ 2 * (num % den) < den := by
    rw [Nat.mul_mod_mul_right, ← Nat.mul_assoc, Nat.mul_lt_mul_right hk]
  have habove : den * k < 2 * (num * k % (den * k)) ↔ den < 2 * (num % den) := by
    rw [Nat.mul_mod_mul_right, ← Nat.mul_assoc, Nat.mul_lt_mul_right hk]
  simp only [roundHalfEven, Nat.mul_div_mul_right _ _ hk, hbelow, habove]

/-- A whole quotient is not rounded. -/
theorem roundHalfEven_mul_self (n : Nat) {k : Nat} (hk : 0 < k) : roundHalfEven (n * k) k = n := by
  simp [roundHalfEven, Nat.mul_div_cancel n hk, hk]

/-- Rounding does not go below the whole part. -/
theorem div_le_roundHalfEven (num den : Nat) : num / den ≤ roundHalfEven num den := by
  simp only [roundHalfEven]
  split
  · exact Nat.le_refl _
  split
  · exact Nat.le_succ _
  · exact Nat.le_add_right _ _

namespace Magnitude

/-- The nearest number does not depend on how a fraction is written. -/
theorem nearest_mul_right (num den : Nat) {k : Nat} (hk : 0 < k) :
    nearest (num * k) (den * k) = nearest num den := by
  have hround : ∀ scale, roundHalfEven (num * k) (den * k * Nat.pow 2 scale) =
      roundHalfEven num (den * Nat.pow 2 scale) := by
    intro scale
    rw [Nat.mul_right_comm, roundHalfEven_mul_right _ _ hk]
  simp only [nearest, Nat.mul_div_mul_right _ _ hk, hround]

/-- Less than half a unit rounds to zero. -/
theorem nearest_of_small {num den : Nat} (h : 2 * num < den) : nearest num den = zero := by
  have hquotient : num / den = 0 := Nat.div_eq_of_lt (by omega)
  have hround : roundHalfEven num den = 0 := by
    simp [roundHalfEven, hquotient, Nat.mod_eq_of_lt (show num < den by omega), h]
  simp [nearest, hquotient, hround, zero]

/-- From `2 ^ 1024` on everything rounds to infinity. -/
theorem nearest_of_large {num : Nat} (h : 2 ^ 2098 ≤ num) : nearest num 1 = infinity := by
  have hne : num ≠ 0 := by
    have := Nat.two_pow_pos 2098
    omega
  have hlog : 2098 ≤ Nat.log2 num := (Nat.le_log2 hne).mpr h
  obtain ⟨scale, hscale⟩ : ∃ scale, Nat.log2 num = scale + 52 := ⟨Nat.log2 num - 52, by omega⟩
  -- the leading 53 bits alone already fill the last block
  have hleading : 2 ^ 52 ≤ roundHalfEven num (2 ^ scale) := by
    have hpower : 2 ^ 52 * 2 ^ scale ≤ num := by
      rw [← Nat.pow_add, Nat.add_comm, ← hscale]
      exact Nat.log2_self_le hne
    have hquotient : 2 ^ 52 ≤ num / 2 ^ scale :=
      (Nat.le_div_iff_mul_le (Nat.two_pow_pos scale)).mpr hpower
    exact Nat.le_trans hquotient (div_le_roundHalfEven num (2 ^ scale))
  have hposition : 2047 * 2 ^ 52 ≤ scale * 2 ^ 52 + roundHalfEven num (2 ^ scale) := by
    have hblocks : 2046 * 2 ^ 52 ≤ scale * 2 ^ 52 := Nat.mul_le_mul_right _ (by omega)
    omega
  simp only [nearest, Nat.div_one, Nat.one_mul, hscale, Nat.add_sub_cancel, Nat.pow_eq, infinity]
  split
  · rename_i hlt
    apply Fin.ext
    show scale * 2 ^ 52 + roundHalfEven num (2 ^ scale) = 2047 * 2 ^ 52
    omega
  · rfl

/-- Within a block of positions the leading 53 bits count the positions and the other bits are
the spacing of the block. -/
theorem log2_leading {lead scale : Nat} (hlead : lead < 2 ^ 53)
    (hfull : 0 < scale → 2 ^ 52 ≤ lead) : Nat.log2 (lead * 2 ^ scale) - 52 = scale := by
  cases scale with
  | zero =>
      have hlog : Nat.log2 lead < 53 := by
        by_cases hzero : lead = 0
        · simp [hzero]
        · exact (Nat.log2_lt hzero).mpr hlead
      rw [Nat.pow_zero, Nat.mul_one]
      omega
  | succ scale =>
      have hlow : 2 ^ (52 + (scale + 1)) ≤ lead * 2 ^ (scale + 1) := by
        rw [Nat.pow_add]
        exact Nat.mul_le_mul_right _ (hfull (Nat.succ_pos scale))
      have hhigh : lead * 2 ^ (scale + 1) < 2 ^ (52 + (scale + 1) + 1) := by
        rw [show 52 + (scale + 1) + 1 = 53 + (scale + 1) by omega, Nat.pow_add 2 53]
        exact Nat.mul_lt_mul_of_pos_right hlead (Nat.two_pow_pos _)
      have hne : lead * 2 ^ (scale + 1) ≠ 0 := by
        have := Nat.two_pow_pos (52 + (scale + 1))
        omega
      rw [(Nat.log2_eq_iff hne).mpr ⟨hlow, hhigh⟩, Nat.add_sub_cancel_left]

/-- The magnitude nearest to the units of a magnitude is the magnitude. -/
theorem nearest_units (m : Magnitude) : nearest m.units 1 = m := by
  obtain ⟨scale, hscale⟩ : ∃ scale, scale = m.val / 2 ^ 52 - 1 := ⟨_, rfl⟩
  obtain ⟨lead, hval⟩ : ∃ lead, m.val = scale * 2 ^ 52 + lead :=
    ⟨m.val - scale * 2 ^ 52, by omega⟩
  have hunits : m.units = lead * 2 ^ scale := by
    simp only [units, Nat.pow_eq, ← hscale]
    rw [hval, Nat.add_sub_cancel_left]
  have hlog : Nat.log2 (lead * 2 ^ scale) - 52 = scale := log2_leading (by omega) (by omega)
  have hposition : scale * 2 ^ 52 + roundHalfEven (lead * 2 ^ scale) (2 ^ scale) = m.val := by
    rw [roundHalfEven_mul_self lead (Nat.two_pow_pos scale), hval]
  simp only [nearest, hunits, Nat.div_one, Nat.one_mul, hlog, Nat.pow_eq, hposition]
  simp [m.isLt]

/-- Every number of at most 53 bits, or of just 53 bits at some spacing, is a magnitude. -/
theorem exists_units {lead scale : Nat} (hlead : lead < 2 ^ 53)
    (hfull : 0 < scale → 2 ^ 52 ≤ lead) (hscale : scale ≤ 2045) :
    ∃ m : Magnitude, m.isFinite = true ∧ m.units = lead * 2 ^ scale := by
  have hlt : scale * 2 ^ 52 + lead < 2047 * 2 ^ 52 := by omega
  have hblock : (scale * 2 ^ 52 + lead) / 2 ^ 52 - 1 = scale := by omega
  refine ⟨⟨scale * 2 ^ 52 + lead, Nat.lt_succ_of_lt hlt⟩, ?_, ?_⟩
  · simpa [isFinite] using hlt
  · simp only [units, Nat.pow_eq, hblock, Nat.add_sub_cancel_left]

/-- A whole number of at most 53 bits is a magnitude. -/
theorem exists_units_whole {n : Nat} (hn : n < 2 ^ 53) :
    ∃ m : Magnitude, m.isFinite = true ∧ m.units = n * unitsPerOne := by
  by_cases hzero : n = 0
  · exact ⟨zero, by decide, by simp [hzero, zero, units]⟩
  obtain ⟨k, hk⟩ : ∃ k, Nat.log2 n + k = 52 := by
    have hlog := (Nat.log2_lt hzero).mpr hn
    exact ⟨52 - Nat.log2 n, by omega⟩
  have hlow : 2 ^ 52 ≤ n * 2 ^ k := by
    rw [← hk, Nat.pow_add]
    exact Nat.mul_le_mul_right _ (Nat.log2_self_le hzero)
  have hhigh : n * 2 ^ k < 2 ^ 53 := by
    rw [show 53 = Nat.log2 n + 1 + k by omega, Nat.pow_add]
    exact Nat.mul_lt_mul_of_pos_right Nat.lt_log2_self (Nat.two_pow_pos k)
  obtain ⟨scale, hscale⟩ : ∃ scale, k + scale = 1074 := ⟨1074 - k, by omega⟩
  obtain ⟨m, hfinite, hunits⟩ := @exists_units _ scale hhigh (fun _ => hlow) (by omega)
  refine ⟨m, hfinite, ?_⟩
  rw [hunits, Nat.mul_assoc, ← Nat.pow_add, hscale]
  rfl

end Magnitude

namespace Decimal

/-! ## Reading a decimal -/

/-- Eight to a power is at most ten to it. -/
theorem two_pow_mul_three_le_ten_pow (n : Nat) : 2 ^ (3 * n) ≤ 10 ^ n := by
  rw [Nat.pow_mul]
  exact Nat.pow_le_pow_left (by decide) n

/-- Five times two is ten, to any power. -/
theorem five_pow_mul_two_pow (n : Nat) : 5 ^ n * 2 ^ n = 10 ^ n := by
  rw [← Nat.mul_pow]

/-- A decimal without negative exponent is a whole number of units. -/
theorem unitFraction_of_nonneg {c : Nat} {e : Int} (he : 0 ≤ e) :
    unitFraction ⟨c, e⟩ = (c * 10 ^ e.toNat * Magnitude.unitsPerOne, 1) := by
  simp [unitFraction, he]

/-- A decimal with a negative exponent is a fraction of units. -/
theorem unitFraction_of_neg {c : Nat} {e : Int} (he : e < 0) :
    unitFraction ⟨c, e⟩ = (c * Magnitude.unitsPerOne, 10 ^ (-e).toNat) := by
  simp [unitFraction, Int.not_le.mpr he]

/-- From `10 ^ 400` on everything is infinite. -/
theorem nearest_unitFraction_of_large {c : Nat} {e : Int} (hc : c ≠ 0) (he : 400 < e) :
    Magnitude.nearest (unitFraction ⟨c, e⟩).1 (unitFraction ⟨c, e⟩).2 = .infinity := by
  rw [unitFraction_of_nonneg (by omega)]
  apply Magnitude.nearest_of_large
  have hpower : 2 ^ 1024 ≤ 10 ^ e.toNat :=
    Nat.le_trans (Nat.pow_le_pow_right (by decide) (by omega))
      (two_pow_mul_three_le_ten_pow e.toNat)
  calc 2 ^ 2098 = 2 ^ 1024 * 2 ^ 1074 := by rw [show 2098 = 1024 + 1074 from rfl, Nat.pow_add]
    _ ≤ 10 ^ e.toNat * 2 ^ 1074 := Nat.mul_le_mul_right _ hpower
    _ ≤ c * 10 ^ e.toNat * 2 ^ 1074 :=
      Nat.mul_le_mul_right _ (Nat.le_mul_of_pos_left _ (Nat.pos_of_ne_zero hc))

/-- A coefficient so much shorter than its exponent asks for leaves less than half a unit. -/
theorem nearest_unitFraction_of_small {c : Nat} {e : Int} (h : e + (Nat.log2 c : Int) < -400) :
    Magnitude.nearest (unitFraction ⟨c, e⟩).1 (unitFraction ⟨c, e⟩).2 = .zero := by
  rw [unitFraction_of_neg (by omega)]
  apply Magnitude.nearest_of_small
  obtain ⟨k, hk⟩ : ∃ k, (-e).toNat = Nat.log2 c + 401 + k :=
    ⟨(-e).toNat - (Nat.log2 c + 401), by omega⟩
  rw [hk]
  calc 2 * (c * 2 ^ 1074) < 2 * (2 ^ (Nat.log2 c + 1) * 2 ^ 1074) :=
        Nat.mul_lt_mul_of_pos_left
          (Nat.mul_lt_mul_of_pos_right Nat.lt_log2_self (Nat.two_pow_pos 1074)) (by decide)
    _ = 2 ^ (Nat.log2 c + 1076) := by
      rw [← Nat.pow_add, ← Nat.pow_succ']
    _ ≤ 2 ^ (3 * (Nat.log2 c + 401 + k)) := Nat.pow_le_pow_right (by decide) (by omega)
    _ ≤ 10 ^ (Nat.log2 c + 401 + k) := two_pow_mul_three_le_ten_pow _

/-- A decimal is read as the magnitude nearest to its value in units, as a quotient. -/
theorem nearest_eq_unitFraction (d : Decimal) :
    d.nearest = .nearest d.unitFraction.1 d.unitFraction.2 := by
  obtain ⟨c, e⟩ := d
  by_cases hc : c = 0
  · subst hc
    by_cases he : 0 ≤ e
    · rw [unitFraction_of_nonneg he, Nat.zero_mul, Nat.zero_mul]
      exact (Magnitude.nearest_of_small Nat.zero_lt_one).symm
    · rw [unitFraction_of_neg (Int.not_le.mp he), Nat.zero_mul]
      exact (Magnitude.nearest_of_small (Nat.pow_pos (by decide))).symm
  by_cases hhigh : 400 < e
  · rw [nearest_unitFraction_of_large hc hhigh]
    simp [nearest, hc, hhigh]
  by_cases hlow : e + (Nat.log2 c : Int) < -400
  · rw [nearest_unitFraction_of_small hlow]
    simp [nearest, hc, hhigh, hlow]
  by_cases he : 0 ≤ e
  · simp [nearest, hc, hhigh, hlow, he, unitFraction_of_nonneg he]
  · simp [nearest, hc, hhigh, hlow, he, unitFraction_of_neg (Int.not_le.mp he)]

/-- A trailing zero of the coefficient may as well stand in the exponent. -/
theorem nearest_shift (c : Nat) (e : Int) : nearest ⟨10 * c, e⟩ = nearest ⟨c, e + 1⟩ := by
  rw [nearest_eq_unitFraction, nearest_eq_unitFraction]
  by_cases he : 0 ≤ e
  · have hpower : 10 ^ (e + 1).toNat = 10 * 10 ^ e.toNat := by
      rw [show (e + 1).toNat = e.toNat + 1 by omega, Nat.pow_succ']
    rw [unitFraction_of_nonneg he, unitFraction_of_nonneg (by omega), hpower,
      Nat.mul_left_comm c 10, Nat.mul_assoc 10 c]
  have hnum : 10 * c * Magnitude.unitsPerOne = c * Magnitude.unitsPerOne * 10 := by
    rw [Nat.mul_comm 10 c, Nat.mul_right_comm]
  by_cases hlast : e = -1
  · subst hlast
    rw [unitFraction_of_neg (by decide), unitFraction_of_nonneg (by decide), hnum]
    simpa using Magnitude.nearest_mul_right (c * Magnitude.unitsPerOne) 1 (k := 10) (by decide)
  · have hden : 10 ^ (-e).toNat = 10 ^ (-(e + 1)).toNat * 10 := by
      rw [show (-e).toNat = (-(e + 1)).toNat + 1 by omega, Nat.pow_succ]
    rw [unitFraction_of_neg (by omega), unitFraction_of_neg (by omega), hnum, hden]
    exact Magnitude.nearest_mul_right _ _ (by decide)

/-- The value of a decimal may be written without a positive exponent. -/
theorem nearest_whole {c : Nat} {e : Int} (he : 0 ≤ e) :
    nearest ⟨c * 10 ^ e.toNat, 0⟩ = nearest ⟨c, e⟩ := by
  rw [nearest_eq_unitFraction, nearest_eq_unitFraction, unitFraction_of_nonneg he,
    unitFraction_of_nonneg (Int.le_refl 0)]
  simp

/-- Taking zeros off a decimal keeps the nearest number. -/
theorem nearest_trim (fuel : Nat) (d : Decimal) : (trim fuel d).nearest = d.nearest := by
  induction fuel generalizing d with
  | zero => rfl
  | succ fuel ih =>
      rw [trim]
      split
      · rename_i htrailing
        simp only [bne_iff_ne, Bool.and_eq_true, decide_eq_true_eq] at htrailing
        have hcoefficient : 10 * (d.coefficient / 10) = d.coefficient := by omega
        rw [ih, ← nearest_shift, hcoefficient]
      · rfl

/-- The exact value of a magnitude reads back. -/
theorem nearest_exact (m : Magnitude) : (exact m).nearest = m := by
  have hten : 5 ^ 1074 * Magnitude.unitsPerOne = 10 ^ 1074 := by
    rw [Magnitude.unitsPerOne, Nat.pow_eq, five_pow_mul_two_pow]
  have hnum : m.units * 5 ^ 1074 * Magnitude.unitsPerOne = m.units * 10 ^ 1074 := by
    rw [Nat.mul_assoc, hten]
  have hfraction : (exact m).unitFraction = (m.units * 10 ^ 1074, 1 * 10 ^ 1074) := by
    rw [exact, unitFraction_of_neg (by decide), Nat.pow_eq, hnum, Nat.one_mul]
    rfl
  rw [nearest_eq_unitFraction, hfraction, Magnitude.nearest_mul_right _ _ (Nat.pow_pos (by decide))]
  exact Magnitude.nearest_units m

/-! ## The search -/

/-- The search for a short decimal ends with one whose nearest number is the one searched for. -/
theorem nearest_searchFrom (m : Magnitude) (lead : Int) (grids : Nat) :
    (searchFrom m lead grids).nearest = m := by
  simp only [searchFrom]
  cases hfound : (List.range grids).findSome? fun (step : Nat) =>
      (neighbours m (lead - step)).find? fun d => d.nearest = m with
  | none => exact nearest_exact m
  | some d =>
      obtain ⟨step, -, hstep⟩ := List.exists_of_findSome?_eq_some hfound
      simpa using List.find?_some hstep

/-- **The shortest decimal reads back**, for every magnitude. -/
theorem nearest_shortest (m : Magnitude) : (shortest m).nearest = m := by
  rw [shortest]
  split
  · rename_i hzero
    exact Fin.ext (hzero.symm)
  · rw [nearest_trim, nearest_searchFrom]

end Decimal

/-! ## Whole numbers -/

namespace Binary64

/-- A natural number of at most 53 bits is held exactly. -/
theorem ofNat_exact {n : Nat} (hn : n < 2 ^ 53) :
    (ofNat n).isFinite = true ∧ (ofNat n).wholePart? = some n := by
  obtain ⟨m, hfinite, hunits⟩ := Magnitude.exists_units_whole hn
  have hm : ofNat n = .signed false m := by
    rw [ofNat, ofUnits, ← hunits, Magnitude.nearest_units]
  have hpos : 0 < Magnitude.unitsPerOne := Nat.two_pow_pos 1074
  rw [hm]
  refine ⟨hfinite, ?_⟩
  rw [wholePart?, if_pos hfinite, hunits, Nat.mul_div_cancel n hpos]

end Binary64

end ElementFinder

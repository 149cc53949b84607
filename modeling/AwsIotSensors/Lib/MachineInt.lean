import Mathlib.Tactic

/-!
# Machine integers: wrapping clocks and truncating remainders

A clock register of `width` bits shows the true time modulo `2 ^ width`.  Reading
it into a signed integer and subtracting two readings gives the elapsed time
only while that is below half of the range; `lt_toInt_elapsed_iff` says exactly
when such a difference exceeds a positive bound.

The remainder of C's `%` takes the sign of the dividend; `tmod_nonneg_iff` says
when it is nevertheless not negative, and `inRange_tmod_add_iff` when the usual
"random number in a range" idiom stays in its range.
-/

namespace MachineInt

/-! ## Clocks -/

/-- A clock register that has counted `time` ticks. -/
abbrev clock (width time : ℕ) : BitVec width := BitVec.ofNat width time

/-- The difference of two readings is the reading of the difference. -/
theorem clock_sub_clock {width earlier later : ℕ} (hle : earlier ≤ later) :
    clock width later - clock width earlier = clock width (later - earlier) := by
  calc clock width later - clock width earlier
      = clock width (later - earlier + earlier) - clock width earlier := by
        rw [Nat.sub_add_cancel hle]
    _ = clock width (later - earlier) := by
        rw [clock, BitVec.ofNat_add, BitVec.add_sub_cancel]

/-- As a signed number, a reading exceeds a positive bound if and only if the
true time does so modulo `2 ^ width`, in the lower half of the range. -/
theorem lt_toInt_clock_iff {width time bound : ℕ} :
    (bound : ℤ) < (clock width time).toInt ↔
      bound < time % 2 ^ width ∧ 2 * (time % 2 ^ width) < 2 ^ width := by
  rw [BitVec.toInt_eq_toNat_cond, BitVec.toNat_ofNat]
  have hlt : time % 2 ^ width < 2 ^ width := Nat.mod_lt _ (Nat.two_pow_pos width)
  generalize time % 2 ^ width = reading at hlt ⊢
  generalize 2 ^ width = range at hlt ⊢
  split
  · next hlow => simp [hlow]
  · next hhigh =>
      -- the upper half of the range is read as negative numbers
      constructor
      · intro hbound
        omega
      · intro hbound
        exact absurd hbound.2 hhigh

/-- When a wrapping signed difference of two clock readings exceeds a bound. -/
theorem lt_toInt_elapsed_iff (width bound : ℕ) {earlier later : ℕ} (hle : earlier ≤ later) :
    (bound : ℤ) < (clock width later - clock width earlier).toInt ↔
      bound < (later - earlier) % 2 ^ width ∧
        2 * ((later - earlier) % 2 ^ width) < 2 ^ width := by
  rw [clock_sub_clock hle, lt_toInt_clock_iff]

/-! ## Truncating remainders -/

/-- C's `%` by a positive number is not negative exactly for a dividend that is
not negative or that is divided without remainder. -/
theorem tmod_nonneg_iff {dividend divisor : ℤ} :
    0 ≤ dividend.tmod divisor ↔ 0 ≤ dividend ∨ divisor ∣ dividend := by
  constructor
  · intro hnonneg
    rcases le_or_gt 0 dividend with hpos | hneg
    · exact Or.inl hpos
    · -- of a negative dividend the remainder is not positive either
      have hflip : 0 ≤ (-dividend).tmod divisor := Int.tmod_nonneg _ (by omega)
      rw [Int.neg_tmod] at hflip
      exact Or.inr (Int.dvd_of_tmod_eq_zero (by omega))
  · intro hcases
    rcases hcases with hpos | hdvd
    · exact Int.tmod_nonneg _ hpos
    · exact (Int.tmod_eq_zero_of_dvd hdvd).ge

/-- `word % (upper - lower + 1) + lower` lies between `lower` and `upper` exactly
when the remainder is not negative. -/
theorem inRange_tmod_add_iff (word : ℤ) {lower upper : ℤ} (hle : lower ≤ upper) :
    (lower ≤ word.tmod (upper - lower + 1) + lower ∧
        word.tmod (upper - lower + 1) + lower ≤ upper) ↔
      0 ≤ word ∨ upper - lower + 1 ∣ word := by
  have hlt : word.tmod (upper - lower + 1) < upper - lower + 1 :=
    Int.tmod_lt_of_pos _ (by omega)
  rw [← tmod_nonneg_iff]
  constructor
  · intro hrange
    obtain ⟨hlow, -⟩ := hrange
    omega
  · intro hnonneg
    exact ⟨by omega, by omega⟩

end MachineInt

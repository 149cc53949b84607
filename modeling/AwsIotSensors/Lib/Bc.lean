import AwsIotSensors.Lib.Json
import AwsIotSensors.Lib.PlainText

/-!
# Numbers of bc

`bc` computes with a fixed number of decimals, `scale`: quotients and products are
cut off after them.  A number is represented by the integer that is `10 ^ scale`
times it.

`text` prints all decimals, and for a number between -1 and 1 no digit before the
point; only zero is printed as `0`.  `reads_text` says which of these texts are
JSON numbers, and `text_injective` that each of them determines its number.
-/

namespace Bc

open Json

variable (scale : ℕ)

/-- An integer. -/
def ofInt (n : ℤ) : ℤ := n * 10 ^ scale

/-- The quotient, cut off. -/
def divide (a b : ℤ) : ℤ := (a * 10 ^ scale).tdiv b

/-- The product, cut off. -/
def multiply (a b : ℤ) : ℤ := (a * b).tdiv (10 ^ scale)

/-- The number that is represented. -/
def toRat (a : ℤ) : ℚ := a / 10 ^ scale

/-- What `bc` prints. -/
def text (a : ℤ) : List Char :=
  if a = 0 then ['0']
  else
    (if a < 0 then ['-'] else []) ++
      ((if 10 ^ scale ≤ a.natAbs then Nat.toDigits 10 (a.natAbs / 10 ^ scale) else []) ++
        '.' :: padded scale a.natAbs)

/-- Zero, or at least 1 in absolute value. -/
def DigitBeforePoint (a : ℤ) : Prop := a = 0 ∨ 10 ^ scale ≤ a.natAbs

instance (a : ℤ) : Decidable (DigitBeforePoint scale a) :=
  inferInstanceAs (Decidable (_ ∨ _))

variable {scale}

/-- The quotient of two integers. -/
theorem divide_ofInt {n : ℤ} (hn : 0 ≤ n) (m : ℤ) :
    divide scale (ofInt scale n) (ofInt scale m) = n * 10 ^ scale / m := by
  have hpos : (0 : ℤ) < 10 ^ scale := by positivity
  unfold divide ofInt
  rw [Int.tdiv_eq_ediv_of_nonneg (by positivity), Int.mul_ediv_mul_of_pos_left _ _ hpos]

/-- The product with an integer. -/
theorem multiply_ofInt (a n : ℤ) : multiply scale a (ofInt scale n) = a * n := by
  have hne : (10 : ℤ) ^ scale ≠ 0 := by positivity
  unfold multiply ofInt
  rw [← mul_assoc, Int.mul_tdiv_cancel _ hne]

theorem sign_mul_natAbs (a : ℤ) :
    (if a < 0 then -1 else 1) * (a.natAbs / 10 ^ scale : ℚ) = toRat scale a := by
  have habs : ((a.natAbs : ℤ) : ℚ) = |(a : ℚ)| := by
    rw [Int.natCast_natAbs, Int.cast_abs]
  rw [Int.cast_natCast] at habs
  unfold toRat
  split
  · next hneg => rw [habs, abs_of_neg (by exact_mod_cast hneg)]; ring
  · next hnonneg =>
      rw [habs, abs_of_nonneg (by exact_mod_cast not_lt.mp hnonneg), one_mul]

/-- **The output of bc as a JSON number**: it is one if and only if it has a digit
before the point. -/
theorem reads_text (hscale : 0 < scale) (a : ℤ) :
    Reads 1 (text scale a)
      (if DigitBeforePoint scale a then some (.number (toRat scale a)) else none) := by
  unfold text
  by_cases hzero : a = 0
  · have hdigit : DigitBeforePoint scale a := Or.inl hzero
    have htext : (0 : ℤ).repr.toList = ['0'] := by decide
    have hread := reads_int 0
    rw [htext] at hread
    rw [if_pos hzero, if_pos hdigit]
    simpa [hzero, toRat] using hread
  · rw [if_neg hzero]
    have hsign : (if a < 0 then ['-'] else []) =
        if decide (a < 0) = true then ['-'] else [] := by simp
    by_cases hwhole : 10 ^ scale ≤ a.natAbs
    · have hfixed := reads_fixed (decide (a < 0)) hscale a.natAbs
      simp only [decide_eq_true_eq, sign_mul_natAbs] at hfixed
      have hdigit : DigitBeforePoint scale a := Or.inr hwhole
      rw [if_pos hwhole, if_pos hdigit]
      exact hfixed
    · have hpoint := reads_point (decide (a < 0)) (padded scale a.natAbs)
      have hnot : ¬ DigitBeforePoint scale a := not_or.mpr ⟨hzero, hwhole⟩
      rw [if_neg hwhole, if_neg hnot, hsign]
      exact hpoint

/-! ## What the output determines -/

/-- The digits before the point. -/
def wholeDigits (scale : ℕ) (a : ℤ) : List Char :=
  if 10 ^ scale ≤ a.natAbs then Nat.toDigits 10 (a.natAbs / 10 ^ scale) else []

/-- What stands before the point. -/
def whole (scale : ℕ) (a : ℤ) : List Char :=
  (if a < 0 then ['-'] else []) ++ wholeDigits scale a

theorem text_of_ne_zero {a : ℤ} (ha : a ≠ 0) :
    text scale a = whole scale a ++ '.' :: padded scale a.natAbs := by
  rw [text, if_neg ha, whole, List.append_assoc, wholeDigits]

theorem isDigit_of_mem_wholeDigits {char : Char} {a : ℤ} (hmem : char ∈ wholeDigits scale a) :
    char.isDigit := by
  unfold wholeDigits at hmem
  split at hmem
  · exact Nat.isDigit_of_mem_toDigits (by decide) (by decide) hmem
  · cases hmem

theorem mem_whole {char : Char} {a : ℤ} (hmem : char ∈ whole scale a) :
    char = '-' ∨ char.isDigit := by
  rcases List.mem_append.mp hmem with hsign | hdigit
  · split at hsign
    · exact Or.inl (List.mem_singleton.mp hsign)
    · cases hsign
  · exact Or.inr (isDigit_of_mem_wholeDigits hdigit)

theorem natural_wholeDigits (a : ℤ) :
    natural (wholeDigits scale a) = a.natAbs / 10 ^ scale := by
  unfold wholeDigits
  split
  · exact natural_toDigits _
  · next hsmall =>
      rw [Nat.div_eq_of_lt (not_le.mp hsmall)]
      rfl

/-- The output consists of digits, a sign and a point. -/
theorem notMem_text {char : Char} (hdigit : ¬ char.isDigit) (hsign : char ≠ '-')
    (hpoint : char ≠ '.') (a : ℤ) : char ∉ text scale a := by
  intro hmem
  by_cases ha : a = 0
  · rw [text, if_pos ha, List.mem_singleton] at hmem
    subst hmem
    exact hdigit (by decide)
  · rw [text_of_ne_zero ha, List.mem_append, List.mem_cons] at hmem
    rcases hmem with hwhole | hdot | hpadded
    · exact (mem_whole hwhole).elim hsign hdigit
    · exact hpoint hdot
    · exact hdigit (isDigit_of_mem_padded hpadded)

/-- The sign and the whole part are read off the digits before the point. -/
theorem whole_inj {a b : ℤ} (heq : whole scale a = whole scale b) :
    (a < 0 ↔ b < 0) ∧ a.natAbs / 10 ^ scale = b.natAbs / 10 ^ scale := by
  have hdigits : wholeDigits scale a = wholeDigits scale b →
      a.natAbs / 10 ^ scale = b.natAbs / 10 ^ scale := by
    intro hsame
    rw [← natural_wholeDigits, hsame, natural_wholeDigits]
  have hdash : ∀ c : ℤ, '-' ∉ wholeDigits scale c := fun c hmem =>
    absurd (isDigit_of_mem_wholeDigits hmem) (by decide)
  unfold whole at heq
  by_cases ha : a < 0
  · by_cases hb : b < 0
    · rw [if_pos ha, if_pos hb, List.append_cancel_left_eq] at heq
      exact ⟨iff_of_true ha hb, hdigits heq⟩
    · rw [if_pos ha, if_neg hb, List.nil_append] at heq
      exact absurd (heq ▸ List.mem_cons_self) (hdash b)
  · by_cases hb : b < 0
    · rw [if_neg ha, if_pos hb, List.nil_append] at heq
      exact absurd (heq ▸ List.mem_cons_self) (hdash a)
    · rw [if_neg ha, if_neg hb, List.append_cancel_left_eq] at heq
      exact ⟨iff_of_false ha hb, hdigits heq⟩

/-- **The output of bc determines the number.** -/
theorem text_injective : Function.Injective (text scale) := by
  intro a b heq
  have hpoint : ∀ c : ℤ, c ≠ 0 → '.' ∈ text scale c := by
    intro c hc
    rw [text_of_ne_zero hc]
    simp
  have hzero : text scale 0 = ['0'] := by rw [text, if_pos rfl]
  by_cases ha : a = 0
  · by_contra hne
    have hmem := hpoint b fun hb => hne (ha.trans hb.symm)
    rw [← heq, ha, hzero] at hmem
    exact absurd hmem (by decide)
  · by_cases hb : b = 0
    · have hmem := hpoint a ha
      rw [heq, hb, hzero] at hmem
      exact absurd hmem (by decide)
    · rw [text_of_ne_zero ha, text_of_ne_zero hb] at heq
      have hwhole : ∀ c : ℤ, '.' ∉ whole scale c := fun c hmem =>
        (mem_whole hmem).elim (by decide) (by decide)
      obtain ⟨hfront, hpadded⟩ := PlainText.append_cons_inj (hwhole a) (hwhole b) heq
      obtain ⟨hsign, hquotient⟩ := whole_inj hfront
      have hremainder := congrArg natural hpadded
      rw [natural_padded, natural_padded] at hremainder
      have habs : a.natAbs = b.natAbs := by
        rw [← Nat.div_add_mod a.natAbs (10 ^ scale), hquotient, hremainder, Nat.div_add_mod]
      omega

end Bc

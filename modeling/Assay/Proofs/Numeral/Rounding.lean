import Mathlib.Algebra.Order.Field.Rat
import Mathlib.Order.Monotone.Basic
import Mathlib.Tactic.FieldSimp
import Mathlib.Tactic.Linarith
import Mathlib.Tactic.Positivity
import Mathlib.Tactic.Ring
import Assay.Numeral.Binary64

/-!
# Rounding to the nearest double

Patterns are ordered as the magnitudes they stand for.  A quotient lies between two neighbouring
patterns, and rounding takes the nearer one, or the even one if it lies halfway.  Infinity stands
where the next power of two would be, so a quotient overflows if it is nearer to that than to the
largest double.
-/

namespace Assay.Binary64

/-- The magnitude of a pattern, in units of `2 ^ -1074`. -/
def units (pattern : Nat) : Nat :=
  if pattern < 2 ^ 52 then pattern
  else (2 ^ 52 + pattern % 2 ^ 52) * 2 ^ (pattern / 2 ^ 52 - 1)

def magnitude (pattern : Nat) : ℚ := units pattern / 2 ^ 1074

/-- The bits of the number are those of the pattern, with the sign in front. -/
def HasPattern (number : Binary64) (negative : Bool) (pattern : Nat) : Prop :=
  number.bits.toNat = (if negative then 2 ^ 63 else 0) + pattern

theorem hasPattern_iff {number : Binary64} {negative : Bool} {pattern : Nat}
    (h : pattern ≤ infinityPattern) :
    number.HasPattern negative pattern ↔ number = ofPattern negative pattern := by
  have hsmall : pattern < 2 ^ 63 := Nat.lt_of_le_of_lt h (by decide)
  have hbits : (ofPattern negative pattern).bits.toNat =
      (if negative then 2 ^ 63 else 0) + pattern := by
    cases negative <;> simp [ofPattern] <;> omega
  rw [HasPattern, ← hbits, UInt64.toNat_inj, ← Binary64.mk.injEq]

/-! ## The order of patterns -/

private theorem units_add {shift count : Nat} (hcount : count ≤ 2 ^ 53)
    (hnormal : shift = 0 ∨ 2 ^ 52 ≤ count) :
    units (shift * 2 ^ 52 + count) = count * 2 ^ shift := by
  unfold units
  split
  · next hsmall =>
      obtain rfl : shift = 0 := by omega
      simp
  · rcases Nat.lt_or_eq_of_le hcount with hlt | rfl
    · have hexponent : (shift * 2 ^ 52 + count) / 2 ^ 52 - 1 = shift := by omega
      have hfraction : 2 ^ 52 + (shift * 2 ^ 52 + count) % 2 ^ 52 = count := by omega
      rw [hexponent, hfraction]
    · -- The count has carried into the exponent.
      have hexponent : (shift * 2 ^ 52 + 2 ^ 53) / 2 ^ 52 - 1 = shift + 1 := by omega
      have hfraction : (shift * 2 ^ 52 + 2 ^ 53) % 2 ^ 52 = 0 := by omega
      rw [hexponent, hfraction, Nat.add_zero, pow_succ' 2 shift, ← Nat.mul_assoc]
      rfl

private theorem units_lt_succ (pattern : Nat) : units pattern < units (pattern + 1) := by
  obtain ⟨shift, count, rfl, hcount, hnormal⟩ : ∃ shift count, pattern = shift * 2 ^ 52 + count ∧
      count < 2 ^ 53 ∧ (shift = 0 ∨ 2 ^ 52 ≤ count) :=
    ⟨pattern / 2 ^ 52 - 1, pattern - (pattern / 2 ^ 52 - 1) * 2 ^ 52, by omega, by omega, by omega⟩
  rw [Nat.add_assoc, units_add (by omega) hnormal, units_add (by omega) (by omega)]
  exact Nat.mul_lt_mul_of_pos_right (Nat.lt_succ_self count) (Nat.two_pow_pos shift)

theorem magnitude_strictMono : StrictMono magnitude := by
  intro pattern other hlt
  have hunits : units pattern < units other := strictMono_nat_of_lt_succ units_lt_succ hlt
  have hcast : (units pattern : ℚ) < units other := Nat.cast_lt.mpr hunits
  exact div_lt_div_of_pos_right hcast (by positivity)

theorem magnitude_zero : magnitude 0 = 0 := by simp [magnitude, units]

theorem magnitude_one : magnitude 1 = 1 / 2 ^ 1074 := by
  rw [magnitude]
  congr 1

theorem magnitude_infinityPattern : magnitude infinityPattern = 2 ^ 1024 := by
  have hpattern : infinityPattern = 2045 * 2 ^ 52 + 2 ^ 53 := rfl
  have hunit : (2 ^ 1074 : ℚ) ≠ 0 := pow_ne_zero _ two_ne_zero
  rw [magnitude, hpattern, units_add (Nat.le_refl _) (.inr (by decide)), Nat.cast_mul,
    Nat.cast_pow, Nat.cast_pow, Nat.cast_ofNat, ← pow_add]
  exact (eq_div_of_mul_eq hunit (pow_add 2 1024 1074).symm).symm

/-! ## The nearest pattern -/

/-- No pattern up to that of infinity is nearer to the number.  If another one is as near, this
one is even. -/
structure IsNearest (number : ℚ) (pattern : Nat) : Prop where
  le : pattern ≤ infinityPattern
  nearest : ∀ other ≤ infinityPattern, |number - magnitude pattern| ≤ |number - magnitude other|
  even : ∀ other ≤ infinityPattern, other ≠ pattern →
    |number - magnitude other| = |number - magnitude pattern| → pattern % 2 = 0

theorem IsNearest.unique {number : ℚ} {pattern other : Nat} (h : IsNearest number pattern)
    (hother : IsNearest number other) : pattern = other := by
  -- Two that are as near would both be even, and the one between them would be nearer.
  by_contra hne
  wlog hlt : pattern < other generalizing pattern other
  · exact this hother h (Ne.symm hne) (by omega)
  have hequal := le_antisymm (h.nearest other hother.le) (hother.nearest pattern h.le)
  have heven := h.even other hother.le (Ne.symm hne) hequal.symm
  have heven' := hother.even pattern h.le hne hequal
  have hbetween := h.nearest (pattern + 1) (Nat.le_trans hlt hother.le)
  have hbelow := magnitude_strictMono (Nat.lt_succ_self pattern)
  have habove : magnitude (pattern + 1) < magnitude other := magnitude_strictMono (by omega)
  rcases abs_cases (number - magnitude pattern) with ⟨_, _⟩ | ⟨_, _⟩ <;>
    rcases abs_cases (number - magnitude other) with ⟨_, _⟩ | ⟨_, _⟩ <;>
    rcases abs_cases (number - magnitude (pattern + 1)) with ⟨_, _⟩ | ⟨_, _⟩ <;>
    linarith

theorem IsNearest.of_lt {number : ℚ} {pattern : Nat} (hle : pattern ≤ infinityPattern)
    (h : ∀ other ≤ infinityPattern, other ≠ pattern →
      |number - magnitude pattern| < |number - magnitude other|) :
    IsNearest number pattern where
  le := hle
  nearest other hother := by
    rcases eq_or_ne other pattern with rfl | hne
    · exact le_rfl
    · exact (h other hother hne).le
  even other hother hne hequal := absurd hequal (h other hother hne).ne'

/-! ## Between two neighbours -/

section

variable {number : ℚ} {low other : Nat}

private theorem sub_magnitude_le (h : other ≤ low) :
    number - magnitude low ≤ |number - magnitude other| := by
  have hle := magnitude_strictMono.monotone h
  exact le_trans (by linarith) (le_abs_self _)

private theorem magnitude_sub_le {high : Nat} (h : high ≤ other) :
    magnitude high - number ≤ |number - magnitude other| := by
  have hle := magnitude_strictMono.monotone h
  rw [abs_sub_comm]
  exact le_trans (by linarith) (le_abs_self _)

private theorem sub_magnitude_lt (h : other < low) :
    number - magnitude low < |number - magnitude other| := by
  have hlt := magnitude_strictMono h
  exact lt_of_lt_of_le (by linarith) (le_abs_self _)

private theorem magnitude_sub_lt {high : Nat} (h : high < other) :
    magnitude high - number < |number - magnitude other| := by
  have hlt := magnitude_strictMono h
  rw [abs_sub_comm]
  exact lt_of_lt_of_le (by linarith) (le_abs_self _)

theorem isNearest_infinity (h : magnitude infinityPattern ≤ number) :
    IsNearest number infinityPattern := by
  refine .of_lt (Nat.le_refl _) fun other hother hne => ?_
  rw [abs_of_nonneg (sub_nonneg.mpr h)]
  exact sub_magnitude_lt (Nat.lt_of_le_of_ne hother hne)

private theorem isNearest_low (hle : low ≤ infinityPattern) (hlow : magnitude low ≤ number)
    (h : number - magnitude low < magnitude (low + 1) - number) : IsNearest number low := by
  refine .of_lt hle fun other _ hne => ?_
  rw [abs_of_nonneg (sub_nonneg.mpr hlow)]
  rcases Nat.lt_or_gt_of_ne hne with hlt | hgt
  · exact sub_magnitude_lt hlt
  · exact lt_of_lt_of_le h (magnitude_sub_le hgt)

private theorem isNearest_high (hle : low + 1 ≤ infinityPattern)
    (hhigh : number ≤ magnitude (low + 1))
    (h : magnitude (low + 1) - number < number - magnitude low) :
    IsNearest number (low + 1) := by
  refine .of_lt hle fun other _ hne => ?_
  rw [abs_sub_comm, abs_of_nonneg (sub_nonneg.mpr hhigh)]
  rcases Nat.lt_or_gt_of_ne hne with hlt | hgt
  · exact lt_of_lt_of_le h (sub_magnitude_le (Nat.le_of_lt_succ hlt))
  · exact magnitude_sub_lt hgt

theorem isNearest_zero (hnonneg : 0 ≤ number) (h : 2 * number < magnitude 1) :
    IsNearest number 0 := by
  refine isNearest_low (Nat.zero_le _) (magnitude_zero ▸ hnonneg) ?_
  rw [magnitude_zero, Nat.zero_add]
  linarith

private theorem isNearest_tie (hle : low + 1 ≤ infinityPattern)
    (h : number - magnitude low = magnitude (low + 1) - number) :
    IsNearest number (low + low % 2) := by
  have hgap := magnitude_strictMono (Nat.lt_succ_self low)
  have hlow : |number - magnitude low| = number - magnitude low := abs_of_nonneg (by linarith)
  have hhigh : |number - magnitude (low + 1)| = number - magnitude low := by
    rw [abs_sub_comm, abs_of_nonneg (by linarith), h]
  have hrounded : |number - magnitude (low + low % 2)| = number - magnitude low := by
    rcases Nat.mod_two_eq_zero_or_one low with hmod | hmod <;> rw [hmod]
    · exact hlow
    · exact hhigh
  refine ⟨by omega, fun other _ => ?_, fun _ _ _ _ => by omega⟩
  rw [hrounded]
  rcases Nat.lt_or_ge low other with hlt | hge
  · exact h ▸ magnitude_sub_le hlt
  · exact sub_magnitude_le hge

end

/-! ## Quotients -/

section

variable (numerator denominator : Nat)

def shift : Nat := Nat.log2 ((numerator <<< 1074) / denominator) - 52

def count : Nat := (numerator <<< 1074) / (denominator <<< shift numerator denominator)

def remainder : Nat := (numerator <<< 1074) % (denominator <<< shift numerator denominator)

def lower : Nat := shift numerator denominator * 2 ^ 52 + count numerator denominator

variable {numerator denominator}

private theorem count_eq : count numerator denominator =
    (numerator <<< 1074) / denominator / 2 ^ shift numerator denominator := by
  rw [count, Nat.shiftLeft_eq denominator, Nat.div_div_eq_div_mul]

private theorem count_lt : count numerator denominator < 2 ^ 53 := by
  rw [count_eq, Nat.div_lt_iff_lt_mul (Nat.two_pow_pos _), ← Nat.pow_add]
  refine Nat.lt_of_lt_of_le Nat.lt_log2_self (Nat.pow_le_pow_right (by decide) ?_)
  unfold shift
  omega

private theorem shift_eq_zero_or_le_count :
    shift numerator denominator = 0 ∨ 2 ^ 52 ≤ count numerator denominator := by
  rcases Nat.eq_zero_or_pos (shift numerator denominator) with hzero | hpos
  · exact .inl hzero
  · right
    have hlog : 52 + shift numerator denominator =
        Nat.log2 ((numerator <<< 1074) / denominator) := by
      unfold shift at hpos ⊢
      omega
    have hne : (numerator <<< 1074) / denominator ≠ 0 := by
      intro hzero
      rw [hzero, Nat.log2_zero] at hlog
      omega
    rw [count_eq, Nat.le_div_iff_mul_le (Nat.two_pow_pos _), ← Nat.pow_add, hlog]
    exact Nat.log2_self_le hne

private theorem units_lower : units (lower numerator denominator) =
    count numerator denominator * 2 ^ shift numerator denominator :=
  units_add count_lt.le shift_eq_zero_or_le_count

private theorem units_lower_succ : units (lower numerator denominator + 1) =
    (count numerator denominator + 1) * 2 ^ shift numerator denominator := by
  have hnormal : shift numerator denominator = 0 ∨ 2 ^ 52 ≤ count numerator denominator :=
    shift_eq_zero_or_le_count
  rw [lower, Nat.add_assoc]
  exact units_add (Nat.succ_le_of_lt count_lt) (by omega)

private theorem magnitudePattern_cases (numerator denominator : Nat) :
    let low := lower numerator denominator
    let width := denominator <<< shift numerator denominator
    let twice := 2 * remainder numerator denominator
    (twice < width ∧ magnitudePattern numerator denominator = min low infinityPattern) ∨
    (width < twice ∧ magnitudePattern numerator denominator = min (low + 1) infinityPattern) ∨
    (twice = width ∧
      magnitudePattern numerator denominator = min (low + low % 2) infinityPattern) := by
  intro low width twice
  have hpattern : magnitudePattern numerator denominator =
      min (shift numerator denominator * 2 ^ 52 + roundToEven (numerator <<< 1074) width)
        infinityPattern := by
    rw [← Nat.shiftLeft_eq]
    rfl
  have hlow : low = shift numerator denominator * 2 ^ 52 + count numerator denominator := rfl
  have hround : roundToEven (numerator <<< 1074) width =
      if twice < width then count numerator denominator
      else if width < twice then count numerator denominator + 1
      else count numerator denominator + count numerator denominator % 2 := rfl
  rw [hpattern, hround]
  split
  · next hless => exact .inl ⟨hless, rfl⟩
  · split
    · next hmore => exact .inr (.inl ⟨hmore, by rw [hlow, Nat.add_assoc]⟩)
    · have hmod : low % 2 = count numerator denominator % 2 := by omega
      exact .inr (.inr ⟨by omega, by rw [hmod, hlow, Nat.add_assoc]⟩)

private theorem scaled_eq (numerator denominator : Nat) : (numerator : ℚ) * 2 ^ 1074 =
    denominator * 2 ^ shift numerator denominator * count numerator denominator +
      remainder numerator denominator := by
  have hdivision := congrArg (Nat.cast (R := ℚ)) (Nat.div_add_mod (numerator <<< 1074)
    (denominator <<< shift numerator denominator))
  rw [← count, ← remainder, Nat.shiftLeft_eq, Nat.shiftLeft_eq] at hdivision
  simp only [Nat.cast_add, Nat.cast_mul, Nat.cast_pow, Nat.cast_ofNat] at hdivision
  exact hdivision.symm

section

variable (hpos : 0 < denominator)

include hpos

private theorem remainder_lt :
    remainder numerator denominator < denominator <<< shift numerator denominator := by
  apply Nat.mod_lt
  rw [Nat.shiftLeft_eq]
  exact Nat.mul_pos hpos (Nat.two_pow_pos _)

private theorem sub_magnitude_lower :
    (numerator / denominator : ℚ) - magnitude (lower numerator denominator) =
      remainder numerator denominator / (denominator * 2 ^ 1074) := by
  have hdenominator : (denominator : ℚ) ≠ 0 := Nat.cast_ne_zero.mpr hpos.ne'
  have hunit : (2 ^ 1074 : ℚ) ≠ 0 := pow_ne_zero _ two_ne_zero
  rw [magnitude, units_lower, div_sub_div _ _ hdenominator hunit, scaled_eq numerator denominator]
  push_cast
  congr 1
  ring

private theorem magnitude_lower_succ_sub :
    magnitude (lower numerator denominator + 1) - (numerator / denominator : ℚ) =
      ((denominator <<< shift numerator denominator : Nat) - remainder numerator denominator) /
        (denominator * 2 ^ 1074) := by
  have hdenominator : (denominator : ℚ) ≠ 0 := Nat.cast_ne_zero.mpr hpos.ne'
  have hunit : (2 ^ 1074 : ℚ) ≠ 0 := pow_ne_zero _ two_ne_zero
  rw [magnitude, units_lower_succ, div_sub_div _ _ hunit hdenominator, Nat.shiftLeft_eq,
    mul_comm (2 ^ 1074 : ℚ) (numerator : ℚ), scaled_eq numerator denominator,
    mul_comm (2 ^ 1074 : ℚ)]
  push_cast
  congr 1
  ring

/-- The double nearest to a quotient, and the even one of two that are as near. -/
theorem isNearest_magnitudePattern :
    IsNearest (numerator / denominator) (magnitudePattern numerator denominator) := by
  have hunit : 0 < (denominator * 2 ^ 1074 : ℚ) :=
    mul_pos (Nat.cast_pos.mpr hpos) (pow_pos two_pos _)
  have hbelow := @sub_magnitude_lower numerator denominator hpos
  have habove := @magnitude_lower_succ_sub numerator denominator hpos
  have hlow : magnitude (lower numerator denominator) ≤ (numerator / denominator : ℚ) := by
    rw [← sub_nonneg, hbelow]
    exact div_nonneg (Nat.cast_nonneg _) hunit.le
  have hhigh : (numerator / denominator : ℚ) ≤ magnitude (lower numerator denominator + 1) := by
    rw [← sub_nonneg, habove]
    exact div_nonneg (sub_nonneg.mpr (Nat.cast_le.mpr (remainder_lt hpos).le)) hunit.le
  have hcases := magnitudePattern_cases numerator denominator
  rcases Nat.lt_or_ge (lower numerator denominator) infinityPattern with hlt | hge
  · rcases hcases with ⟨htwice, hpattern⟩ | ⟨htwice, hpattern⟩ | ⟨htwice, hpattern⟩
    · rw [hpattern, Nat.min_eq_left hlt.le]
      refine isNearest_low hlt.le hlow ?_
      rw [hbelow, habove, div_lt_div_iff_of_pos_right hunit, lt_sub_iff_add_lt, ← two_mul]
      exact_mod_cast htwice
    · rw [hpattern, Nat.min_eq_left hlt]
      refine isNearest_high hlt hhigh ?_
      rw [hbelow, habove, div_lt_div_iff_of_pos_right hunit, sub_lt_iff_lt_add, ← two_mul]
      exact_mod_cast htwice
    · rw [hpattern, Nat.min_eq_left (by omega)]
      refine isNearest_tie hlt ?_
      rw [hbelow, habove, div_left_inj' hunit.ne', eq_sub_iff_add_eq, ← two_mul]
      exact_mod_cast htwice
  · -- The quotient is at least that of infinity.
    have hinfinity : magnitudePattern numerator denominator = infinityPattern := by
      rcases hcases with ⟨-, hpattern⟩ | ⟨-, hpattern⟩ | ⟨-, hpattern⟩ <;> rw [hpattern] <;>
        exact Nat.min_eq_right (by omega)
    rw [hinfinity]
    exact isNearest_infinity (le_trans (magnitude_strictMono.monotone hge) hlow)

end

end

end Assay.Binary64

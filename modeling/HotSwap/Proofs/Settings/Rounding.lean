import HotSwap.Json.Numeral
import Mathlib.Tactic.Ring

/-!
# Rounding keeps powers of two apart

A quotient that is at least a power of two is not rounded below it. So whole numbers that have more
bits than a word are fractions that have as many.
-/

namespace HotSwap.Binary64

variable {num den m j k : Nat} {negative : Bool} {x y : Binary64}

theorem le_roundEven (pos : 0 < den) (enough : m * den ≤ num) : m ≤ roundEven num den := by
  have quotient : m ≤ num / den := (Nat.le_div_iff_mul_le pos).mpr enough
  unfold roundEven
  dsimp only
  split
  · exact quotient
  · split <;> omega

theorem roundEven_le (pos : 0 < den) (small : num ≤ m * den) : roundEven num den ≤ m := by
  have split := Nat.div_add_mod num den
  have quotient : num / den ≤ m := by
    apply Nat.div_le_of_le_mul
    rwa [Nat.mul_comm]
  unfold roundEven
  dsimp only
  by_cases even : num / den = m
  · have rest : num % den = 0 := by
      rw [even, Nat.mul_comm] at split
      omega
    rw [rest, if_pos (by omega)]
    exact quotient
  · split
    · exact quotient
    · split <;> omega

/-- A quotient lies between two powers of two, of which the binary exponent is the lower one. -/
theorem exists_binaryExponent (pos : 0 < den) (least : den ≤ num) :
    ∃ k : Nat, binaryExponent num den = k ∧ den * 2 ^ k ≤ num ∧ num < den * 2 ^ (k + 1) := by
  have logs : den.log2 ≤ num.log2 := by
    apply (Nat.le_log2 (by omega)).mpr
    exact (Nat.log2_self_le pos.ne').trans least
  obtain ⟨d, apart⟩ := Nat.exists_eq_add_of_le logs
  have below : 2 ^ (den.log2 + d) ≤ num := apart ▸ Nat.log2_self_le (by omega)
  have above : num < 2 ^ (den.log2 + d + 1) := apart ▸ Nat.lt_log2_self
  have natural : (num.log2 : Int) - den.log2 = d := by omega
  unfold binaryExponent
  dsimp only
  rw [natural, if_pos (Int.natCast_nonneg d), Int.toNat_natCast, Nat.pow_eq]
  by_cases short : num < den * 2 ^ d
  · rw [if_pos short]
    obtain ⟨k, rfl⟩ : ∃ k, d = k + 1 := by
      apply Nat.exists_eq_add_one_of_ne_zero
      rintro rfl
      omega
    refine ⟨k, by omega, ?_, short⟩
    have den_lt : den * 2 ^ k < 2 ^ (den.log2 + 1) * 2 ^ k :=
      Nat.mul_lt_mul_of_pos_right Nat.lt_log2_self (Nat.two_pow_pos k)
    have powers : 2 ^ (den.log2 + 1) * 2 ^ k = 2 ^ (den.log2 + (k + 1)) := by ring
    omega
  · rw [if_neg short]
    refine ⟨d, rfl, Nat.not_lt.mp short, ?_⟩
    have le_den : 2 ^ den.log2 * 2 ^ (d + 1) ≤ den * 2 ^ (d + 1) :=
      Nat.mul_le_mul_right _ (Nat.log2_self_le pos.ne')
    have powers : 2 ^ den.log2 * 2 ^ (d + 1) = 2 ^ (den.log2 + d + 1) := by ring
    omega

theorem leading_eq : leading = 2 ^ 52 := rfl

/-- What a quotient that is one at least is rounded to: an exponent and a full significand. -/
theorem exists_nearest (pos : 0 < den) (least : den ≤ num) :
    ∃ k m : Nat, den * 2 ^ k ≤ num ∧ num < den * 2 ^ (k + 1) ∧
      nearest num den = (k + 1022) * leading + m ∧ leading ≤ m ∧ m ≤ 2 * leading := by
  obtain ⟨k, exponent, below, above⟩ := exists_binaryExponent pos least
  have middle : max ((k : Int) - 52) (-1074) = k - 52 := by omega
  have place : ((k : Int) - 52 + 1074).toNat = k + 1022 := by omega
  unfold nearest
  rw [if_neg (by omega), exponent]
  dsimp only
  rw [middle, place]
  by_cases wide : 52 ≤ k
  · obtain ⟨d, rfl⟩ := Nat.exists_eq_add_of_le' wide
    have shift : (((d + 52 : Nat) : Int) - 52).toNat = d := by omega
    have positive : 0 < den * 2 ^ d := Nat.mul_pos pos (Nat.two_pow_pos d)
    have low : leading * (den * 2 ^ d) = den * 2 ^ (d + 52) := by rw [leading_eq]; ring
    have high : 2 * leading * (den * 2 ^ d) = den * 2 ^ (d + 52 + 1) := by rw [leading_eq]; ring
    rw [if_pos (by omega), shift, Nat.pow_eq]
    refine ⟨d + 52, _, below, above, rfl, ?_, ?_⟩
    · apply le_roundEven positive
      omega
    · apply roundEven_le positive
      omega
  · obtain ⟨d, narrow⟩ := Nat.exists_eq_add_of_le (Nat.le_of_not_le wide)
    have shift : (-((k : Int) - 52)).toNat = d := by omega
    have powers : 2 ^ k * 2 ^ d = leading := by rw [leading_eq, narrow]; ring
    have low : leading * den = den * 2 ^ k * 2 ^ d := by rw [← powers]; ring
    have high : 2 * leading * den = den * 2 ^ (k + 1) * 2 ^ d := by rw [← powers]; ring
    rw [if_neg (by omega), shift, Nat.pow_eq]
    refine ⟨k, _, below, above, rfl, ?_, ?_⟩
    · apply le_roundEven pos
      rw [low]
      exact Nat.mul_le_mul_right _ below
    · apply roundEven_le pos
      rw [high]
      exact Nat.mul_le_mul_right _ above.le

/-- Rounding does not go below a power of two. -/
theorem le_nearest (pos : 0 < den) (enough : den * 2 ^ j ≤ num) :
    (j + 1023) * leading ≤ nearest num den := by
  have least : den ≤ num := (Nat.le_mul_of_pos_right den (Nat.two_pow_pos j)).trans enough
  obtain ⟨k, m, -, above, same, low, -⟩ := exists_nearest pos least
  have exponents : j < k + 1 := by
    apply (Nat.pow_lt_pow_iff_right (a := 2) (by decide)).mp
    exact Nat.lt_of_mul_lt_mul_left (enough.trans_lt above)
  have patterns : (j + 1023) * leading ≤ (k + 1022) * leading + leading := by
    rw [← Nat.succ_mul]
    exact Nat.mul_le_mul_right _ (by omega)
  omega

/-- Rounding does not go above a power of two. -/
theorem nearest_le (pos : 0 < den) (least : den ≤ num) (small : num < den * 2 ^ j) :
    nearest num den ≤ (j + 1023) * leading := by
  obtain ⟨k, m, below, -, same, -, high⟩ := exists_nearest pos least
  have exponents : k < j := by
    apply (Nat.pow_lt_pow_iff_right (a := 2) (by decide)).mp
    exact Nat.lt_of_mul_lt_mul_left (below.trans_lt small)
  have patterns : (k + 1022) * leading + 2 * leading ≤ (j + 1023) * leading := by
    rw [← Nat.add_mul]
    exact Nat.mul_le_mul_right _ (by omega)
  omega

/-- The magnitude is at least a power of two. -/
def AtLeast (j : Nat) (x : Binary64) : Prop :=
  2 ^ j * (quotient x.magnitude).2 ≤ (quotient x.magnitude).1

theorem quotient_pos (p : Nat) : 0 < (quotient p).2 := by
  unfold quotient
  dsimp only
  split
  · exact Nat.one_pos
  · exact Nat.two_pow_pos _

/-- A pattern behind that of a power of two stands for no less. -/
theorem atLeast_of_magnitude (enough : (j + 1023) * leading ≤ x.magnitude) : x.AtLeast j := by
  have positive : 0 < leading := Nat.two_pow_pos 52
  have exponents : j + 1023 ≤ x.magnitude / leading := (Nat.le_div_iff_mul_le positive).mpr enough
  have full : leading ≤ x.magnitude := by
    have := Nat.le_mul_of_pos_left leading (show 0 < j + 1023 by omega)
    omega
  have digits : leading ≤ significand x.magnitude := by
    rw [significand, if_neg (Nat.not_lt.mpr full)]
    exact Nat.le_add_right _ _
  unfold AtLeast quotient
  rw [exponent, if_neg (Nat.not_lt.mpr full)]
  generalize x.magnitude / leading = q at exponents
  dsimp only
  by_cases wide : 1075 ≤ q
  · obtain ⟨d, rfl⟩ := Nat.exists_eq_add_of_le' wide
    have shift : (((d + 1075 : Nat) : Int) - 1075).toNat = d := by omega
    rw [if_pos (by omega), shift, Nat.pow_eq, Nat.mul_one]
    calc
      2 ^ j ≤ 2 ^ (52 + d) := Nat.pow_le_pow_right (by decide) (by omega)
      _ = leading * 2 ^ d := by rw [leading_eq, Nat.pow_add]
      _ ≤ significand x.magnitude * 2 ^ d := Nat.mul_le_mul_right _ digits
  · obtain ⟨d, narrow⟩ := Nat.exists_eq_add_of_le (Nat.le_of_not_le wide)
    have shift : (-((q : Int) - 1075)).toNat = d := by omega
    rw [if_neg (by omega), shift, Nat.pow_eq]
    calc
      2 ^ j * 2 ^ d = 2 ^ (j + d) := (Nat.pow_add 2 j d).symm
      _ ≤ leading := Nat.pow_le_pow_right (by decide) (by omega)
      _ ≤ significand x.magnitude := digits

theorem atLeast_of_ofQuotient? (pos : 0 < den) (enough : den * 2 ^ j ≤ num)
    (found : ofQuotient? negative num den = some x) : x.AtLeast j ∧ x.negative = negative := by
  unfold ofQuotient? at found
  split at found
  · cases found
    exact ⟨atLeast_of_magnitude (le_nearest pos enough), rfl⟩
  · cases found

/-- A natural number of 64 bits is not too great. -/
theorem ofQuotient?_one (negative : Bool) (one : 1 ≤ m) (small : m < 2 ^ 64) :
    ofQuotient? negative m 1 = some (ofNat negative m) := by
  have finite : nearest m 1 < overflow := by
    have := nearest_le (j := 64) Nat.one_pos one (by rwa [Nat.one_mul])
    have positive : 0 < leading := Nat.two_pow_pos 52
    rw [overflow]
    omega
  have known : ofQuotient? negative m 1 = some ⟨negative, nearest m 1, finite⟩ := dif_pos finite
  rw [ofNat, known]
  rfl

theorem atLeast_ofNat (negative : Bool) (enough : 2 ^ j ≤ m) (small : m < 2 ^ 64) :
    (ofNat negative m).AtLeast j ∧ (ofNat negative m).negative = negative := by
  have one : 1 ≤ m := Nat.one_le_two_pow.trans enough
  have known := ofQuotient?_one negative one small
  exact atLeast_of_ofQuotient? Nat.one_pos (by rwa [Nat.one_mul]) known

theorem ofDecimal?_zero (negative : Bool) (m : Nat) :
    ofDecimal? negative m 0 = ofQuotient? negative m 1 := by
  rw [ofDecimal?, if_pos (Int.le_refl 0)]
  exact congrArg (ofQuotient? negative · 1) (Nat.mul_one m)

theorem atLeast_times? (left : x.AtLeast j) (right : y.AtLeast k)
    {z : Binary64} (found : x.times? y = some z) :
    z.AtLeast (j + k) ∧ z.negative = (x.negative != y.negative) := by
  have pos := Nat.mul_pos (quotient_pos x.magnitude) (quotient_pos y.magnitude)
  apply atLeast_of_ofQuotient? pos _ found
  calc
    _ = (2 ^ j * (quotient x.magnitude).2) * (2 ^ k * (quotient y.magnitude).2) := by ring
    _ ≤ _ := Nat.mul_le_mul left right

/-- Scaling up by a power of ten keeps the sign, and makes nothing smaller. -/
theorem atLeast_scale? (least : x.AtLeast j) (power : Nat) (found : x.scale? power = some y) :
    y.AtLeast j ∧ y.negative = x.negative := by
  rw [scale?, scaleBy?] at found
  split at found
  · rw [if_pos (Int.natCast_nonneg power), timesPower?] at found
    obtain ⟨z, ten, scaled⟩ := Option.bind_eq_some_iff.mp found
    rw [ofDecimal?, if_pos (Int.natCast_nonneg _), Int.toNat_natCast, Nat.pow_eq] at ten
    obtain ⟨one, positive⟩ := atLeast_of_ofQuotient? (j := 0) Nat.one_pos
      (by simpa using Nat.one_le_pow _ _ (by decide)) ten
    have grown := atLeast_times? least one scaled
    rwa [positive, Bool.bne_false] at grown
  · split at found
    · cases found
      exact ⟨least, rfl⟩
    · rw [if_pos (Int.natCast_nonneg power)] at found
      cases found

theorem le_round (least : x.AtLeast j) (positive : x.negative = false) :
    ((2 ^ j : Nat) : Int) ≤ x.round := by
  have pos := quotient_pos x.magnitude
  have whole : 2 ^ j ≤
      (2 * (quotient x.magnitude).1 + (quotient x.magnitude).2) /
        (2 * (quotient x.magnitude).2) := by
    apply (Nat.le_div_iff_mul_le (by omega)).mpr
    have twice : 2 ^ j * (2 * (quotient x.magnitude).2) =
      2 * (2 ^ j * (quotient x.magnitude).2) := by ring
    rw [twice]
    exact (Nat.mul_le_mul_left 2 least).trans (Nat.le_add_right _ _)
  rw [round, positive]
  exact Int.ofNat_le.mpr whole

theorem round_nonpos (negative : x.negative = true) : x.round ≤ 0 := by
  rw [round, if_pos negative]
  exact Int.neg_nonpos_of_nonneg (Int.natCast_nonneg _)

end HotSwap.Binary64

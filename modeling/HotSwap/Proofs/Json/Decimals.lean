import HotSwap.Proofs.Json.Numerals

/-!
# Whole numbers as they are written

A whole number is written with its decimal digits, so what is written is a numeral. If the number
has 64 bits it is the one that the numeral stands for.
-/

namespace HotSwap.Json

variable {n : Nat} {ds : Bytes}

theorem ofText_append (s t : String) :
    Bytes.ofText (s ++ t) = Bytes.ofText s ++ Bytes.ofText t := by
  simp [Bytes.ofText]

theorem ofText_digit : ∀ d < 10,
    Bytes.ofText (String.singleton d.digitChar) = [(48 + d).toUInt8] := by
  decide +kernel

theorem digitsValue_append (s : Bytes) (b : UInt8) :
    digitsValue (s ++ [b]) = 10 * digitsValue s + Bytes.digit b := by
  simp [digitsValue]

theorem digitsValue_singleton (b : UInt8) : digitsValue [b] = Bytes.digit b := by
  simp [digitsValue]

theorem digit_toUInt8 : ∀ d < 10,
    Bytes.isDigit (48 + d).toUInt8 ∧ Bytes.digit (48 + d).toUInt8 = d := by
  decide

/-- The digits of a number spell it, and only those of zero start with one. -/
theorem digits_repr (n : Nat) :
    Digits (Bytes.ofText n.repr) ∧ digitsValue (Bytes.ofText n.repr) = n ∧
      ((Bytes.ofText n.repr).head? = some 48 → n = 0) := by
  induction n using Nat.strongRecOn with
  | ind n inductionHypothesis =>
    by_cases small : n < 10
    · obtain ⟨digit, value⟩ := digit_toUInt8 n small
      rw [Nat.repr_of_lt small, ofText_digit n small]
      refine ⟨⟨List.cons_ne_nil _ _, by simpa using digit⟩, ?_, ?_⟩
      · rw [digitsValue_singleton, value]
      · intro zero
        have zero : (48 + n).toUInt8 = 48 := Option.some.inj zero
        rw [zero] at value
        exact value.symm
    · have small' : n % 10 < 10 := Nat.mod_lt n (by decide)
      obtain ⟨digit, value⟩ := digit_toUInt8 (n % 10) small'
      obtain ⟨⟨nonempty, digits⟩, value', first⟩ := inductionHypothesis (n / 10) (by omega)
      rw [Nat.repr_of_ge (by omega), ofText_append, ofText_digit _ small']
      refine ⟨⟨by simp, ?_⟩, ?_, ?_⟩
      · exact List.forall_mem_append.mpr ⟨digits, by simpa using digit⟩
      · rw [digitsValue_append, value, value']
        omega
      · obtain ⟨c, cs, split⟩ := List.exists_cons_of_ne_nil nonempty
        rw [split] at first ⊢
        intro zero
        have := first zero
        omega

/-- Digits that spell a number of 64 bits are all gathered. -/
theorem Scan.gather_digits (digits : ∀ b ∈ ds, Bytes.isDigit b)
    (fits : ds.foldl (fun n b => 10 * n + Bytes.digit b) n < Word.count 64) :
    (gather n ds).1.1 = ds.foldl (fun n b => 10 * n + Bytes.digit b) n ∧ (gather n ds).2 = [] := by
  induction ds generalizing n with
  | nil => exact ⟨rfl, rfl⟩
  | cons b ds inductionHypothesis =>
    obtain ⟨digit, others⟩ := List.forall_mem_cons.mp digits
    have := le_foldl_digits (10 * n + Bytes.digit b) ds
    rw [List.foldl_cons] at fits
    rw [gather, if_pos ⟨digit, by omega⟩]
    exact inductionHypothesis others fits

namespace Numeral

/-- A whole number as it is written. -/
def ofNat (negative : Bool) (n : Nat) : Numeral where
  negative := negative
  whole := Bytes.ofText n.repr
  fraction := none
  exponent := none
  areDigits := (digits_repr n).1
  noZero zero := by
    rw [(digits_repr n).2.2 zero]
    decide +kernel
  areFraction := nofun

theorem number?_ofNat (negative : Bool) (fits : n < Word.count 64) :
    (ofNat negative n).number? = some (Scan.wholeNumber negative n) := by
  obtain ⟨digits, value, -⟩ := digits_repr n
  obtain ⟨gathered, left⟩ := Scan.gather_digits digits.2 (n := 0) (by
    change digitsValue _ < _
    rw [value]
    exact fits)
  change _ = digitsValue _ at gathered
  simp [number?, behind?, ofNat, gathered, left, value]

theorem lt_of_fits {n : Nat} (fits : Number.Fits n) : n < Word.count 64 := by
  have := show Word.count 63 ≤ Word.count 64 by decide
  rcases fits with ⟨-, small⟩ | ⟨-, small⟩ <;> omega

theorem le_of_fits_negSucc {n : Nat} (fits : Number.Fits (.negSucc n)) :
    n + 1 ≤ Word.count 63 := by
  rcases fits with ⟨small, -⟩ | ⟨nonnegative, -⟩ <;> omega

/-- A whole number that fits is written as a numeral that stands for it. -/
theorem exists_numeral {n : Int} (fits : Number.Fits n) :
    ∃ x : Numeral, x.bytes = Bytes.ofText (toString n) ∧ x.number? = some (.int n) := by
  cases n with
  | ofNat n =>
    refine ⟨ofNat false n, ?_, number?_ofNat false (lt_of_fits fits)⟩
    rw [bytes, ofNat]
    simp only [Option.elim_none, List.append_nil]
    rfl
  | negSucc n =>
    have small := le_of_fits_negSucc fits
    have := show Word.count 63 < Word.count 64 by decide
    refine ⟨ofNat true (n + 1), ?_, ?_⟩
    · change _ = Bytes.ofText ("-" ++ (n + 1).repr)
      rw [bytes, ofNat, ofText_append]
      simp only [Option.elim_none, List.append_nil]
      rfl
    · have middle : ¬ (n + 1 = 0 ∨ Word.count 63 < n + 1) := by omega
      rw [number?_ofNat true (by omega), Scan.wholeNumber]
      simp only [Bool.not_true, Bool.false_eq_true, if_false, if_neg middle]
      rfl

/-- Minus zero, which is no whole number for a reader. -/
def minusZero : Numeral where
  negative := true
  whole := [48]
  fraction := some [48]
  exponent := none
  areDigits := by decide
  noZero _ := rfl
  areFraction := by
    rintro _ ⟨⟩
    decide

theorem minusZero_bytes :
    minusZero.bytes = Bytes.ofText (Number.float (.zero true)).render := by
  decide +kernel

theorem number?_minusZero : minusZero.number? = some (.float (.zero true)) := by
  decide +kernel

end Numeral

end HotSwap.Json

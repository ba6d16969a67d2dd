import HotSwap.Proofs.Settings.Rounding
import HotSwap.Proofs.Settings.WholeNumbers
import HotSwap.Settings.Relaxed
import Mathlib.Data.List.TakeWhile

/-!
# Numbers without quotes

Digits that stand for a number of 63 bits and a sign are that number. Of others one notation takes
none. In the rest they are fractions with the same sign, and infinite ones if they are too great.
-/

namespace HotSwap

open Digits

/-- What may become of a number where whole numbers have 63 bits and a sign. -/
inductive Keeps (n : Int) : Scalar → Prop
  | whole (fits : Word.FitsSigned 63 n) : Keeps n (.int n)
  | fraction {x : Binary64} (wide : ¬ Word.FitsSigned 63 n) (sign : x.negative = decide (n < 0))
      (least : x.AtLeast 60) (near : n.natAbs < Word.count 64 → x = .ofNat (n < 0) n.natAbs) :
      Keeps n (.float x)
  | infinite (great : Word.count 64 ≤ n.natAbs) : Keeps n (.infinite (n < 0))

variable {n : Int}

theorem small_of_word (word : Word.FitsSigned 63 n ∨ Word.Fits 64 n) :
    n.natAbs < Word.count 64 := by
  have half : 2 * Word.count 63 = Word.count 64 := by decide
  have some : 0 < Word.count 63 := by decide
  rcases word with ⟨least, most⟩ | ⟨natural, most⟩
  · omega
  · omega

theorem great_of_wide (wide : ¬ Word.FitsSigned 63 n) : 2 ^ 63 ≤ n.natAbs := by
  rw [Word.FitsSigned, not_and_or] at wide
  change ¬ (-((2 ^ 63 : Nat) : Int) ≤ n) ∨ ¬ (n < (2 ^ 63 : Nat)) at wide
  omega

/-- A number that is no word and not too great is rounded once. -/
theorem keeps_of_ofQuotient? (wide : ¬ Word.FitsSigned 63 n) {x : Binary64}
    (found : Binary64.ofQuotient? (n < 0) n.natAbs 1 = some x) : Keeps n (.float x) := by
  have great := great_of_wide wide
  obtain ⟨least, sign⟩ := Binary64.atLeast_of_ofQuotient? (j := 60) Nat.one_pos (by omega) found
  refine .fraction wide sign least ?_
  intro _
  rw [Binary64.ofNat, found]
  rfl

theorem great_of_ofQuotient? (wide : ¬ Word.FitsSigned 63 n) {negative : Bool}
    (found : Binary64.ofQuotient? negative n.natAbs 1 = none) : Word.count 64 ≤ n.natAbs := by
  have great := great_of_wide wide
  by_contra small
  have small : n.natAbs < 2 ^ 64 := Nat.not_le.mp small
  rw [Binary64.ofQuotient?_one negative (by omega) small] at found
  cases found

theorem keeps_ofShortNumber (small : n.natAbs < Word.count 64) :
    Keeps n (Scalar.ofShortNumber (.int n)) := by
  change Keeps n (if Word.FitsSigned 63 n then _ else _)
  by_cases fits : Word.FitsSigned 63 n
  · rw [if_pos fits]
    exact .whole fits
  · have great := great_of_wide fits
    rw [if_neg fits]
    obtain ⟨least, sign⟩ := Binary64.atLeast_ofNat (j := 60) (n < 0) (by omega) small
    exact .fraction fits sign least fun _ => rfl

namespace Written

variable {ds : List Char} {c : Char}

/-- Among the hexadecimal digits the decimal ones are themselves. -/
theorem hexDigit?_of_isDigit (digit : c.isDigit) :
    c.toNat < 128 ∧ Bytes.hexDigit? c.toUInt8 = some (c.toNat - 48) := by
  obtain ⟨least, most⟩ := between_of_isDigit digit
  have same : c.toUInt8.toNat = c.toNat := by
    change c.toNat % 256 = c.toNat
    omega
  have digit : Bytes.isDigit c.toUInt8 := by
    simp only [Bytes.isDigit, Bool.and_eq_true, decide_eq_true_eq, UInt8.le_iff_toNat_le, same]
    exact ⟨least, most⟩
  refine ⟨by omega, ?_⟩
  rw [Bytes.hexDigit?, if_pos digit, Bytes.digit, same]

theorem isIn_of_isDigit (digit : c.isDigit) : isIn 10 c := by
  obtain ⟨ascii, value⟩ := hexDigit?_of_isDigit digit
  obtain ⟨-, most⟩ := between_of_isDigit digit
  rw [isIn, value]
  simp only [Option.any_some, Bool.and_eq_true, decide_eq_true_eq]
  omega

theorem natIn_of_run (digits : Run ds) : natIn 10 ds = value ds := by
  unfold natIn value
  apply List.foldl_ext
  intro n c there
  rw [(hexDigit?_of_isDigit (digits.2 c there)).2]
  rfl

theorem all_isIn (digits : Run ds) : ds.all (isIn 10) :=
  List.all_eq_true.mpr fun c there => isIn_of_isDigit (digits.2 c there)

theorem signed_natIn (n : Int) :
    (if decide (n < 0) then -(natIn 10 (Nat.toDigits 10 n.natAbs) : Int)
      else natIn 10 (Nat.toDigits 10 n.natAbs)) = n := by
  rw [natIn_of_run (run_toDigits n.natAbs)]
  exact signedValue_toString n

theorem wordOf?_toString (n : Int) :
    wordOf? 10 (toString n).toList = if Word.FitsSigned 63 n then some n else none := by
  have digits := run_toDigits n.natAbs
  unfold wordOf?
  simp only [sign_toString, signed_natIn]
  rw [if_pos ⟨digits.1, all_isIn digits⟩]

/-- Digits are all there is of a decimal number. -/
theorem decimal?_toString (n : Int) :
    decimal? (toString n).toList = some ⟨n < 0, Nat.toDigits 10 n.natAbs, [], 0⟩ := by
  have digits := run_toDigits n.natAbs
  have taken := List.takeWhile_eq_self_iff.mpr digits.2
  have dropped := List.dropWhile_eq_nil_iff.mpr digits.2
  unfold decimal?
  simp only [sign_toString, taken, dropped, digits.1, false_and, if_false]
  rfl

/-- A number that is no word is a fraction, or too great for one. -/
theorem keeps_scalar (wide : ¬ Word.FitsSigned 63 n) :
    Keeps n (Decimal.scalar ⟨n < 0, Nat.toDigits 10 n.natAbs, [], 0⟩) := by
  have power (most : Int) (natural : 0 ≤ most) :
      (if n.natAbs = 0 then (0 : Int) else max (-most) (min most 0)) = 0 := by
    split <;> omega
  unfold Decimal.scalar
  simp only [List.append_nil, value_toDigits, List.length_nil]
  have whole : (0 : Int) - (0 : Nat) = 0 := rfl
  rw [power _ (by omega), whole, Binary64.ofDecimal?_zero]
  cases found : Binary64.ofQuotient? (n < 0) n.natAbs 1 with
  | none => exact .infinite (great_of_ofQuotient? wide found)
  | some x => exact keeps_of_ofQuotient? wide found

end Written

/-- A sign before digits is a minus sign. -/
theorem head?_toString_ne (n : Int) : (toString n).toList.head? ≠ some '+' := by
  rw [toList_toString]
  split
  · rintro ⟨⟩
  · exact (run_toDigits n.natAbs).head?_ne (by decide)

/-- A base is marked by what is no digit. -/
theorem ne_marked {cs rest : List Char} {mark : Char} (spelled : Spells cs n)
    (letter : ¬ (mark = '-' ∨ mark = '+' ∨ mark.isDigit)) : cs ≠ '0' :: mark :: rest := by
  rintro rfl
  exact letter (spelled.mem (List.mem_cons_of_mem _ List.mem_cons_self))

namespace Yaml

theorem intOf?_toString (n : Int) :
    intOf? (toString n).toList = if Word.FitsSigned 63 n then some n else none := by
  have spelled := spells_toString n
  have plus := head?_toString_ne n
  have word := Written.wordOf?_toString n
  generalize (toString n).toList = cs at spelled plus word
  unfold intOf?
  split
  · exact absurd rfl (ne_marked spelled (by decide))
  · exact absurd rfl (ne_marked spelled (by decide))
  · exact absurd rfl plus
  · exact word

/-- Digits are no name of a fraction. -/
theorem fraction?_toString (n : Int) :
    Written.fraction? (toString n).toList =
      some (Written.Decimal.scalar ⟨n < 0, Nat.toDigits 10 n.natAbs, [], 0⟩) := by
  have digits := run_toDigits n.natAbs
  have lower : (Nat.toDigits 10 n.natAbs).map Char.toLower = Nat.toDigits 10 n.natAbs := by
    rw [List.map_congr_left fun c there => toLower_of_isDigit (digits.2 c there), List.map_id']
  unfold Written.fraction?
  simp only [sign_toString, lower, Written.decimal?_toString]
  rw [if_neg (not_or.mpr ⟨toDigits_ne (by decide) _, toDigits_ne (by decide) _⟩),
    if_neg (toDigits_ne (by decide) _)]
  rfl

/-- A plain number of 63 bits and a sign is a whole number, and any other a fraction. -/
theorem plain_toString (n : Int) : ∃ x, plain (toString n).toList = .ok x ∧ Keeps n x := by
  have spelled := spells_toString n
  have absent : ¬ ((toString n).toList = [] ∨ (toString n).toList = ['~'] ∨
      (toString n).toList = "null".toList) := by
    rintro (empty | tilde | null)
    · exact spelled.ne_nil empty
    · exact spelled.ne_of_hasLetter (by decide) tilde
    · exact spelled.ne_of_hasLetter (by decide) null
  have assent : (toString n).toList ≠ "true".toList := spelled.ne_of_hasLetter (by decide)
  have denial : (toString n).toList ≠ "false".toList := spelled.ne_of_hasLetter (by decide)
  rw [plain, if_neg absent, if_neg assent, if_neg denial, intOf?_toString, fraction?_toString]
  by_cases fits : Word.FitsSigned 63 n
  · rw [if_pos fits]
    exact ⟨_, rfl, .whole fits⟩
  · rw [if_neg fits]
    exact ⟨_, rfl, Written.keeps_scalar fits⟩

end Yaml

namespace Relaxed.Dialect

variable {cs : List Char} {c : Char}

theorem startsName_of_spells (d : Dialect) (spelled : Spells cs n) (there : c ∈ cs) :
    d.startsName c = false := by
  have other {d : Char} : ¬ (d = '-' ∨ d = '+' ∨ d.isDigit) → c ≠ d := spelled.ne there
  have letter : c.isAlpha = false := by
    rcases spelled.mem there with rfl | rfl | digit
    · rfl
    · rfl
    · exact isAlpha_of_isDigit digit
  cases d with
  | ron => simp [startsName, letter, other (d := '_') (by decide)]
  | json5 =>
    simp [startsName, letter, other (d := '_') (by decide), other (d := '$') (by decide)]

theorem not_isName_of_spells (d : Dialect) (spelled : Spells cs n) : ¬ d.IsName cs := by
  rintro ⟨first, -⟩
  cases cs with
  | nil => exact spelled.ne_nil rfl
  | cons c cs =>
    change d.startsName c at first
    rw [d.startsName_of_spells spelled List.mem_cons_self] at first
    cases first

theorem based_of_run {ds : List Char} (digits : Run ds) : based ds = (10, ds) := by
  unfold based
  split
  · exact absurd rfl (ne_marked (.bare digits) (by decide))
  · exact absurd rfl (ne_marked (.bare digits) (by decide))
  · exact absurd rfl (ne_marked (.bare digits) (by decide))
  · rfl

/-- Without marks a number is a whole one or a fraction. -/
theorem ronNumber?_toString (n : Int) :
    ∃ x, ronNumber? (toString n).toList = some x ∧ Keeps n x := by
  have digits := run_toDigits n.natAbs
  have joined : ∀ c ∈ Nat.toDigits 10 n.natAbs, c ≠ '_' :=
    fun c there => (Spells.bare digits).ne there (by decide)
  have all : (Nat.toDigits 10 n.natAbs).filter (· ≠ '_') = Nat.toDigits 10 n.natAbs := by
    apply List.filter_eq_self.mpr
    intro c there
    exact decide_eq_true (joined c there)
  unfold ronNumber?
  simp only [sign_toString, based_of_run digits, all, Written.signed_natIn,
    Written.decimal?_toString]
  by_cases word : Word.FitsSigned 63 n ∨
      (Nat.toDigits 10 n.natAbs = (toString n).toList ∧ Word.Fits 64 n)
  · rw [if_pos ⟨digits.1, digits.head?_ne (by decide), Written.all_isIn digits, word⟩]
    exact ⟨_, rfl, keeps_ofShortNumber (small_of_word (word.imp_right And.right))⟩
  · rw [if_neg fun found => word found.2.2.2, if_neg ?_]
    · exact ⟨_, rfl, Written.keeps_scalar fun fits => word (.inl fits)⟩
    · rintro (base | parted)
      · exact base rfl
      · exact joined _ parted rfl

theorem ronWord?_toString (n : Int) : ∃ x, ronWord? (toString n).toList = some x ∧ Keeps n x := by
  have spelled := spells_toString n
  unfold ronWord?
  simp only [sign_toString]
  rw [if_neg (toDigits_ne (by decide) _), if_neg (toDigits_ne (by decide) _),
    if_neg (spelled.ne_of_hasLetter (by decide)), if_neg (spelled.ne_of_hasLetter (by decide)),
    if_neg (ron.not_isName_of_spells spelled)]
  exact ronNumber?_toString n

theorem json5Decimal?_toString (n : Int) :
    json5Decimal? (toString n).toList =
      some (if Word.FitsSigned 63 n then .ok (.int n) else badInteger) := by
  have spelled := spells_toString n
  have whole : (toString n).toList.any (· ∈ ['.', 'e', 'E']) = false := by
    apply List.any_eq_false.mpr
    intro c there
    have other {d : Char} : ¬ (d = '-' ∨ d = '+' ∨ d.isDigit) → c ≠ d := spelled.ne there
    simp [other (d := '.') (by decide), other (d := 'e') (by decide), other (d := 'E') (by decide)]
  have front : ¬ ((Nat.toDigits 10 n.natAbs).head? = some '0' ∧
      Nat.toDigits 10 n.natAbs ≠ ['0']) := by
    rintro ⟨zero, more⟩
    rw [toDigits_of_head? _ zero] at more
    exact more rfl
  unfold json5Decimal?
  rw [Written.decimal?_toString, Option.bind_some]
  dsimp only
  rw [if_neg front, whole, if_neg Bool.false_ne_true, Written.wordOf?_toString]
  by_cases fits : Word.FitsSigned 63 n
  · rw [if_pos fits, if_pos fits]
  · rw [if_neg fits, if_neg fits]

theorem json5Word?_toString (n : Int) :
    json5Word? (toString n).toList =
      some (if Word.FitsSigned 63 n then .ok (.int n) else badInteger) := by
  have spelled := spells_toString n
  have digits := run_toDigits n.natAbs
  unfold json5Word?
  simp only [sign_toString]
  rw [if_neg (spelled.ne_of_hasLetter (by decide)), if_neg (spelled.ne_of_hasLetter (by decide)),
    if_neg (spelled.ne_of_hasLetter (by decide)),
    if_neg (not_or.mpr ⟨toDigits_ne (by decide) _, toDigits_ne (by decide) _⟩)]
  split
  · next mark rest marked =>
    rw [if_neg ?_]
    · exact json5Decimal?_toString n
    · rintro (rfl | rfl)
      · exact ne_marked (.bare digits) (by decide) marked
      · exact ne_marked (.bare digits) (by decide) marked
  · exact json5Decimal?_toString n

end Relaxed.Dialect

end HotSwap

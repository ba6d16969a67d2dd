import HotSwap.CommandLine.Numeral
import HotSwap.Proofs.Settings.Fields
import Mathlib.Data.List.Basic

/-!
# Whole numbers as settings

A whole number is spelled by digits behind a sign or none. Where a setting is a number, what is read
from a whole number or from a text that spells it is that very number, both by the command line and
by what the settings are loaded with.
-/

namespace HotSwap

namespace Digits

/-- Digits, and at least one of them. -/
def Run (ds : List Char) : Prop := ds ≠ [] ∧ ∀ d ∈ ds, d.isDigit

/-- The characters are a sign or none and then the digits of a number. -/
inductive Spells : List Char → Int → Prop
  | minus {ds : List Char} (digits : Run ds) : Spells ('-' :: ds) (-(value ds))
  | plus {ds : List Char} (digits : Run ds) : Spells ('+' :: ds) (value ds)
  | bare {ds : List Char} (digits : Run ds) : Spells ds (value ds)

variable {cs ds : List Char} {n : Int} {c : Char}

theorem between_of_isDigit (digit : c.isDigit) : 48 ≤ c.toNat ∧ c.toNat ≤ 57 := by
  simp only [Char.isDigit, Bool.and_eq_true, decide_eq_true_eq] at digit
  exact digit

/-- Digits have no lower case. -/
theorem toLower_of_isDigit (digit : c.isDigit) : c.toLower = c := by
  obtain ⟨-, most⟩ := between_of_isDigit digit
  refine dif_neg ?_
  rintro ⟨upper, -⟩
  change 65 ≤ c.toNat at upper
  omega

theorem isAlpha_of_isDigit (digit : c.isDigit) : c.isAlpha = false := by
  obtain ⟨-, most⟩ := between_of_isDigit digit
  have upper : c.isUpper = false := by
    refine decide_eq_false ?_
    rintro ⟨least, -⟩
    change 65 ≤ c.toNat at least
    omega
  have lower : c.isLower = false := by
    refine Bool.and_eq_false_iff.mpr (.inl (decide_eq_false ?_))
    intro least
    change 97 ≤ c.toNat at least
    omega
  change (c.isUpper || c.isLower) = false
  rw [upper, lower, Bool.or_false]

theorem run_toDigits (n : Nat) : Run (Nat.toDigits 10 n) := by
  constructor
  · exact Nat.toDigits_ne_nil
  · intro c there
    exact Nat.isDigit_of_mem_toDigits (by decide) (by decide) there

theorem value_toDigits (n : Nat) : value (Nat.toDigits 10 n) = n :=
  Nat.ofDigitChars_toDigits (by decide) (by decide)

theorem Run.head?_ne (digits : Run ds) (mark : ¬ c.isDigit) : ds.head? ≠ some c := by
  intro first
  apply mark
  exact digits.2 c (List.mem_of_head? first)

/-- Before digits there is no sign. -/
theorem Run.sign_eq (digits : Run ds) : sign ds = (false, ds) := by
  have plus := digits.head?_ne (c := '+') (by decide)
  have minus := digits.head?_ne (c := '-') (by decide)
  unfold sign
  split
  · exact absurd rfl minus
  · exact absurd rfl plus
  · rfl

theorem Run.all (digits : Run ds) : ds.all Char.isDigit := List.all_eq_true.mpr digits.2

theorem run_iff : Run ds ↔ ¬ (ds = [] ∨ ds.any (!·.isDigit)) := by
  simp [Run]

/-- The sign and the digits of a number are found again. -/
theorem spells_iff : Spells cs n ↔ Run (sign cs).2 ∧ signedValue (sign cs).1 (sign cs).2 = n := by
  constructor
  · intro spelled
    cases spelled with
    | minus digits => exact ⟨digits, rfl⟩
    | plus digits => exact ⟨digits, rfl⟩
    | bare digits =>
      rw [digits.sign_eq]
      exact ⟨digits, rfl⟩
  · rintro ⟨digits, rfl⟩
    unfold sign at digits ⊢
    split at digits
    · exact .minus digits
    · exact .plus digits
    · exact .bare digits

theorem Spells.ne_nil (spelled : Spells cs n) : cs ≠ [] := by
  rintro rfl
  exact (spells_iff.mp spelled).1.1 rfl

/-- A number is spelled by signs and digits only. -/
theorem Spells.mem (spelled : Spells cs n) (there : c ∈ cs) :
    c = '-' ∨ c = '+' ∨ c.isDigit := by
  cases spelled with
  | minus digits =>
    rcases List.mem_cons.mp there with minus | later
    · exact .inl minus
    · exact .inr (.inr (digits.2 c later))
  | plus digits =>
    rcases List.mem_cons.mp there with plus | later
    · exact .inr (.inl plus)
    · exact .inr (.inr (digits.2 c later))
  | bare digits => exact .inr (.inr (digits.2 c there))

/-- A character is there that spells no number. -/
def hasLetter (word : List Char) : Bool := word.any fun c => !(c == '-' || c == '+' || c.isDigit)

theorem Spells.ne_of_hasLetter {word : List Char} (spelled : Spells cs n)
    (letter : hasLetter word) : cs ≠ word := by
  rintro rfl
  obtain ⟨c, there, letter⟩ := List.any_eq_true.mp letter
  have plain := spelled.mem there
  simp only [Bool.not_eq_true', Bool.or_eq_false_iff, beq_eq_false_iff_ne] at letter
  rcases plain with minus | plus | digit
  · exact letter.1.1 minus
  · exact letter.1.2 plus
  · rw [letter.2] at digit
    cases digit

theorem toDigits_ne {word : List Char} (letter : hasLetter word) (n : Nat) :
    Nat.toDigits 10 n ≠ word :=
  (Spells.bare (run_toDigits n)).ne_of_hasLetter letter

theorem Spells.ne (spelled : Spells cs n) (there : c ∈ cs) {d : Char}
    (mark : ¬ (d = '-' ∨ d = '+' ∨ d.isDigit)) : c ≠ d := by
  rintro rfl
  exact mark (spelled.mem there)

/-- Only zero is written with a zero at the front. -/
theorem toDigits_of_head? (n : Nat) (zero : (Nat.toDigits 10 n).head? = some '0') : n = 0 := by
  induction n using Nat.strongRecOn with
  | ind n inductionHypothesis =>
    by_cases small : n < 10
    · have single : ∀ d < 10, [d.digitChar].head? = some '0' → d = 0 := by decide
      rw [Nat.toDigits_of_lt_base small] at zero
      exact single n small zero
    · have front := (run_toDigits (n / 10)).1
      rw [Nat.toDigits_of_base_le (by decide) (by omega),
        List.head?_append_of_ne_nil _ front] at zero
      have := inductionHypothesis (n / 10) (by omega) zero
      omega

/-- A negative number is written as its digits behind a minus sign. -/
theorem toList_toString (n : Int) :
    (toString n).toList = if n < 0 then '-' :: Nat.toDigits 10 n.natAbs
      else Nat.toDigits 10 n.natAbs := by
  cases n with
  | ofNat n =>
    have natural : ¬ (Int.ofNat n < 0) := Int.not_lt.mpr (Int.natCast_nonneg n)
    rw [if_neg natural]
    exact Nat.toList_repr
  | negSucc n =>
    rw [if_pos (Int.negSucc_lt_zero n)]
    change ("-" ++ (n + 1).repr).toList = _
    rw [String.toList_append, Nat.toList_repr]
    rfl

/-- The sign and the digits that a number is written with. -/
theorem sign_toString (n : Int) :
    sign (toString n).toList = (decide (n < 0), Nat.toDigits 10 n.natAbs) := by
  rw [toList_toString]
  by_cases negative : n < 0
  · rw [if_pos negative, decide_eq_true negative]
    rfl
  · rw [if_neg negative, decide_eq_false negative]
    exact (run_toDigits n.natAbs).sign_eq

theorem signedValue_toString (n : Int) :
    signedValue (decide (n < 0)) (Nat.toDigits 10 n.natAbs) = n := by
  by_cases negative : n < 0
  · rw [decide_eq_true negative, signedValue, if_pos rfl, value_toDigits]
    omega
  · rw [decide_eq_false negative, signedValue, if_neg Bool.false_ne_true, value_toDigits]
    omega

theorem spells_toString (n : Int) : Spells (toString n).toList n := by
  rw [spells_iff, sign_toString]
  exact ⟨run_toDigits n.natAbs, signedValue_toString n⟩

end Digits

open Digits

namespace Settings

variable {s name : String} {n : Int} {m : Nat} {origin : Option String}

theorem lowercaseChar_of_isDigit {c : Char} (digit : c.isDigit) : Text.lowercaseChar c = [c] := by
  obtain ⟨-, most⟩ := between_of_isDigit digit
  rw [Text.lowercaseChar, if_pos (by omega), toLower_of_isDigit digit]

theorem lowercase_of_spells (spelled : Spells s.toList n) : Text.lowercase s = s := by
  have kept : s.toList.flatMap Text.lowercaseChar = s.toList.flatMap fun c => [c] := by
    apply List.flatMap_congr
    intro c there
    rcases spelled.mem there with rfl | rfl | digit
    · rfl
    · rfl
    · exact lowercaseChar_of_isDigit digit
  rw [Text.lowercase, kept, List.flatMap_singleton', String.ofList_toList]

/-- Words are no numbers. -/
theorem not_word_of_spells (spelled : Spells s.toList n) : s ∉ assents ∧ s ∉ denials := by
  have words : (assents ++ denials).all (hasLetter ·.toList) := by decide
  have word {w : String} (there : w ∈ assents ++ denials) : s ≠ w := by
    rintro rfl
    exact spelled.ne_of_hasLetter (List.all_eq_true.mp words s there) rfl
  constructor
  · intro assent
    exact word (List.mem_append_left _ assent) rfl
  · intro denial
    exact word (List.mem_append_right _ denial) rfl

/-- Only a number without a minus sign is read. -/
theorem natOf?_of_spells (spelled : Spells s.toList n) (found : natOf? s = some m) : m = n := by
  unfold natOf? at found
  dsimp only at found
  generalize s.toList = cs at found spelled
  cases spelled with
  | minus digits =>
    rw [if_neg (by simp)] at found
    cases found
  | plus digits =>
    rw [if_pos ⟨digits.1, digits.all⟩] at found
    exact congrArg _ (Option.some.inj found).symm
  | bare digits =>
    have bare := digits.head?_ne (c := '+') (by decide)
    split at found
    · exact absurd rfl bare
    · rw [if_pos ⟨digits.1, digits.all⟩] at found
      exact congrArg _ (Option.some.inj found).symm

/-- A number, or a text that spells it. -/
inductive Names (n : Int) : Scalar → Prop
  | number : Names n (.int n)
  | numeral {s : String} (spelled : Spells s.toList n) : Names n (.text s)

variable {x : Scalar} {e root : Entry} {settings : Settings}

theorem fits_clamp (n : Int) : clamp n < Word.count 64 := by
  have positive : 0 < Word.count 64 := by decide
  unfold clamp
  omega

/-- What is read as a natural number has 64 bits. -/
theorem fits_asNat (read : asNat name e = .ok m) : m < Word.count 64 := by
  have least : 1 < Word.count 64 := by decide
  cases e with
  | list origin items | table origin members => cases read
  | scalar origin x =>
    cases x with
    | null => cases read
    | bool b =>
      cases read
      have := b.toNat_lt
      omega
    | int n =>
      by_cases fits : Word.Fits 64 n
      · rw [asNat, if_pos fits] at read
        cases read
        obtain ⟨natural, small⟩ := fits
        omega
      · rw [asNat, if_neg fits] at read
        cases read
    | float x =>
      cases read
      exact fits_clamp _
    | infinite negative =>
      cases read
      cases negative with
      | false => decide
      | true => decide
    | notANumber =>
      cases read
      decide
    | text s =>
      simp only [asNat] at read
      split at read
      · cases read
        exact least
      · split at read
        · cases read
          omega
        · split at read
          · split at read
            · next small =>
              cases read
              exact small
            · cases read
          · cases read

theorem asNat_of_names (names : Names n x) (read : asNat name (.scalar origin x) = .ok m) :
    m = n := by
  cases names with
  | number =>
    by_cases fits : Word.Fits 64 n
    · rw [asNat, if_pos fits] at read
      cases read
      exact Int.toNat_of_nonneg fits.1
    · rw [asNat, if_neg fits] at read
      cases read
  | numeral spelled =>
    obtain ⟨assent, denial⟩ := not_word_of_spells spelled
    simp only [asNat, lowercase_of_spells spelled, if_neg assent, if_neg denial] at read
    split at read
    · next m' found =>
      split at read
      · cases read
        exact natOf?_of_spells spelled found
      · cases read
    · cases read

theorem asPort_eq_ok_iff {p : UInt16} :
    asPort name e = .ok p ↔ asNat name e = .ok p.toNat := by
  rw [asPort, bind_eq_ok_iff]
  constructor
  · rintro ⟨m, read, ends⟩
    by_cases small : m < Word.count 16
    · rw [if_pos small] at ends
      cases ends
      rw [read, UInt16.toNat_ofNat_of_lt' small]
    · rw [if_neg small] at ends
      cases ends
  · intro read
    have small : p.toNat < Word.count 16 := p.toNat_lt
    refine ⟨p.toNat, read, ?_⟩
    rw [if_pos small, UInt16.ofNat_toNat]
    rfl

/-- The settings that are numbers. -/
inductive Measure where
  | port
  | drainTimeout
  deriving DecidableEq

namespace Measure

def key : Measure → String
  | port => "port"
  | drainTimeout => "drain_timeout_ms"

def of (s : Settings) : Measure → Nat
  | port => s.port.toNat
  | drainTimeout => s.drainTimeoutMs.toNat

/-- A number that is set is a natural number that was read. -/
theorem asNat_of_ofEntry (measure : Measure) (loaded : ofEntry root = .ok settings)
    (held : root.get? measure.key = some e) :
    asNat measure.key e = .ok (measure.of settings) := by
  have reads := Field.ofEntry_eq_ok_iff.mp loaded
  cases measure with
  | port =>
    have reads := reads .port
    change Field.port.reading (root.get? "port") = _ at reads
    rw [show root.get? "port" = some e from held] at reads
    exact asPort_eq_ok_iff.mp reads
  | drainTimeout =>
    have reads := reads .drainTimeout
    change Field.drainTimeout.reading (root.get? "drain_timeout_ms") = _ at reads
    rw [show root.get? "drain_timeout_ms" = some e from held] at reads
    obtain ⟨m, read, ends⟩ := map_eq_ok_iff.mp reads
    change _ = Except.ok settings.drainTimeoutMs.toNat
    change UInt64.ofNat m = settings.drainTimeoutMs at ends
    rw [← ends, UInt64.toNat_ofNat_of_lt' (fits_asNat read)]
    exact read

end Measure

end Settings

namespace CommandLine

variable {s : String} {n : Int}

theorem integer_eq_ok_iff : integer s = .ok n ↔ Spells s.toList n := by
  rw [integer, spells_iff, run_iff]
  by_cases empty : s = ""
  · subst empty
    simp [sign]
  · rw [if_neg empty]
    dsimp only
    by_cases digits : (sign s.toList).2 = [] ∨ (sign s.toList).2.any (!·.isDigit)
    · rw [if_pos digits]
      constructor
      · rintro ⟨⟩
      · rintro ⟨run, -⟩
        exact absurd digits run
    · rw [if_neg digits]
      constructor
      · rintro ⟨⟩
        exact ⟨digits, rfl⟩
      · rintro ⟨-, rfl⟩
        rfl

/-- A port is what its text spells. -/
theorem spells_of_port {p : UInt16} (read : port s = .ok p) : Spells s.toList p.toNat := by
  obtain ⟨n, spelled, ends⟩ := bind_eq_ok_iff.mp read
  have spelled := integer_eq_ok_iff.mp spelled
  split at ends
  · cases ends
  · split at ends
    · cases ends
    · split at ends
      · cases ends
      · next fits =>
        obtain ⟨natural, small⟩ := not_not.mp fits
        cases ends
        have small : n.toNat < 2 ^ 16 := by
          change n < (2 ^ 16 : Nat) at small
          omega
        rwa [UInt16.toNat_ofNat_of_lt' small, Int.toNat_of_nonneg natural]

/-- A number of 64 bits is what its text spells. -/
theorem spells_of_word {w : UInt64} (read : word s = .ok w) : Spells s.toList w.toNat := by
  obtain ⟨n, spelled, ends⟩ := bind_eq_ok_iff.mp read
  have spelled := integer_eq_ok_iff.mp spelled
  split at ends
  · cases ends
  · next unsigned =>
    split at ends
    · cases ends
    · next small =>
      cases ends
      have natural : 0 ≤ n := by
        generalize s.toList = cs at spelled unsigned
        cases spelled with
        | minus digits => exact absurd rfl unsigned
        | plus digits => exact Int.natCast_nonneg _
        | bare digits => exact Int.natCast_nonneg _
      have small : n.toNat < 2 ^ 64 := by
        change ¬ ((2 ^ 64 : Nat) ≤ n) at small
        omega
      rwa [UInt64.toNat_ofNat_of_lt' small, Int.toNat_of_nonneg natural]

end CommandLine

end HotSwap

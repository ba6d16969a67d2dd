import HotSwap.Proofs.Json.Singletons
import HotSwap.Proofs.Settings.Objects

/-!
# Numbers in JSON as settings

A reader of JSON gathers the digits of a number as long as 64 bits hold them. What does not have 63
bits and a sign is a fraction in the settings, whatever kind of number the reader makes of it.
-/

namespace HotSwap

namespace Json

variable {ds : Bytes} {m : Nat}

/-- The digits that are gathered make 64 bits, and nearly fill them if others are left. -/
theorem Scan.gather_wide (digits : ∀ b ∈ ds, Bytes.isDigit b) (fits : m < Word.count 64) :
    (gather m ds).1.1 < Word.count 64 ∧ ((gather m ds).2 ≠ [] → 2 ^ 60 ≤ (gather m ds).1.1) ∧
      ((gather m ds).2 = [] →
        (gather m ds).1.1 = ds.foldl (fun n b => 10 * n + Bytes.digit b) m) := by
  induction ds generalizing m with
  | nil => exact ⟨fits, absurd rfl, fun _ => rfl⟩
  | cons b ds inductionHypothesis =>
    obtain ⟨digit, others⟩ := List.forall_mem_cons.mp digits
    by_cases more : 10 * m + Bytes.digit b < Word.count 64
    · rw [gather, if_pos ⟨digit, more⟩]
      exact inductionHypothesis others more
    · rw [gather, if_neg fun taken => more taken.2]
      have small := digit_lt digit
      have full : ¬ 10 * m + Bytes.digit b < 2 ^ 64 := more
      have nearly : 2 ^ 60 ≤ m := by omega
      exact ⟨fits, fun _ => nearly, fun none => absurd none (List.cons_ne_nil b ds)⟩

variable {n : Int}

/-- What a reader makes of a whole number with more than 64 bits. -/
theorem keeps_of_scaled? {negative : Bool} {power : Nat} {number : Number}
    (wide : ¬ Word.FitsSigned 63 n) (sign : negative = decide (n < 0))
    (great : Word.count 64 ≤ n.natAbs) (least : 2 ^ 60 ≤ m) (fits : m < Word.count 64)
    (found : Numeral.scaled? negative m power = some number) :
    Keeps n (Scalar.ofShortNumber number) := by
  obtain ⟨x, scaled, rfl⟩ := Option.map_eq_some_iff.mp found
  obtain ⟨starts, sign'⟩ := Binary64.atLeast_ofNat negative least fits
  obtain ⟨grown, sign''⟩ := Binary64.atLeast_scale? starts power scaled
  refine .fraction wide (sign''.trans (sign'.trans sign)) grown ?_
  intro small
  exact absurd small (Nat.not_lt.mpr great)

theorem wholeNumber_of_fits (fits : Word.FitsSigned 63 n) :
    Scan.wholeNumber (n < 0) n.natAbs = .int n := by
  obtain ⟨least, -⟩ := fits
  unfold Scan.wholeNumber
  by_cases negative : n < 0
  · have same : (-(n.natAbs : Nat) : Int) = n := by omega
    rw [decide_eq_true negative, if_neg (by decide), if_neg (by omega), same]
  · have same : ((n.natAbs : Nat) : Int) = n := by omega
    rw [decide_eq_false negative, if_pos (by decide), same]

theorem ofShortNumber_of_wide (wide : ¬ Word.FitsSigned 63 n) :
    Scalar.ofShortNumber (Scan.wholeNumber (n < 0) n.natAbs) =
      .float (.ofNat (n < 0) n.natAbs) := by
  unfold Scan.wholeNumber
  by_cases negative : n < 0
  · have much : Word.count 63 < n.natAbs := by
      rw [Word.FitsSigned] at wide
      omega
    rw [decide_eq_true negative, if_neg (by decide), if_pos (.inr much)]
    rfl
  · have same : ((n.natAbs : Nat) : Int) = n := by omega
    rw [decide_eq_false negative, if_pos (by decide), same, Scalar.ofShortNumber, if_neg wide,
      decide_eq_false negative]

/-- What becomes of a whole number that a reader takes. -/
theorem keeps_number? {number : Number}
    (known : (Numeral.ofNat (n < 0) n.natAbs).number? = some number) :
    Keeps n (Scalar.ofShortNumber number) := by
  by_cases fits : Word.FitsSigned 63 n
  · have small := small_of_word (.inl fits)
    cases known.symm.trans (Numeral.number?_ofNat (n < 0) small)
    rw [wholeNumber_of_fits fits, Scalar.ofShortNumber, if_pos fits]
    exact .whole fits
  · have great := great_of_wide fits
    by_cases small : n.natAbs < Word.count 64
    · cases known.symm.trans (Numeral.number?_ofNat (n < 0) small)
      rw [ofShortNumber_of_wide fits]
      obtain ⟨least, sign⟩ := Binary64.atLeast_ofNat (j := 60) (n < 0) (by omega) small
      exact .fraction fits sign least fun _ => rfl
    · obtain ⟨digits, value, -⟩ := digits_repr n.natAbs
      obtain ⟨bounded, nearly, all⟩ := Scan.gather_wide digits.2 (m := 0) (by decide)
      have left : (Scan.gather 0 (Bytes.ofText n.natAbs.repr)).2 ≠ [] := by
        intro none
        have gathered : _ = digitsValue _ := all none
        rw [value] at gathered
        exact small (gathered ▸ bounded)
      have scaled : (Numeral.ofNat (n < 0) n.natAbs).number? = Numeral.scaled? (n < 0)
          (Scan.gather 0 (Bytes.ofText n.natAbs.repr)).1.1
          (Scan.gather 0 (Bytes.ofText n.natAbs.repr)).2.length := by
        have many := (List.length_pos_iff.mpr left).ne'
        simp [Numeral.number?, Numeral.behind?, Numeral.ofNat, Scan.gather, many]
      rw [scaled] at known
      exact keeps_of_scaled? fits rfl (Nat.not_lt.mp small) (nearly left) bounded known

theorem bytes_ofNat (n : Int) :
    (Numeral.ofNat (n < 0) n.natAbs).bytes = Bytes.ofText (toString n) := by
  cases n with
  | ofNat n =>
    rw [Numeral.bytes, Numeral.ofNat]
    simp only [Option.elim_none, List.append_nil]
    rfl
  | negSucc n =>
    change _ = Bytes.ofText ("-" ++ (n + 1).repr)
    rw [decide_eq_true (Int.negSucc_lt_zero n), Numeral.bytes, Numeral.ofNat, ofText_append]
    simp only [Option.elim_none, List.append_nil]
    rfl

theorem exists_singleton (measure : Settings.Measure) (n : Int) :
    ∃ gs, Glyph.text? gs = some measure.key ∧
      Bytes.ofText (measure.object n) = singleton gs (.ofNat (n < 0) n.natAbs) := by
  obtain ⟨gs, text, written⟩ := exists_key measure.key
  refine ⟨gs, text, ?_⟩
  have key : 34 :: (Bytes.ofText measure.key ++ [34]) = Glyph.quoted gs := by
    have quoted := written []
    rw [List.append_nil] at quoted
    rw [← quoted]
    cases measure with
    | port => decide +kernel
    | drainTimeout => decide +kernel
  have opening : Bytes.ofText "\x7b\"" = [123, 34] := by decide +kernel
  have middle : Bytes.ofText "\":" = [34, 58] := by decide +kernel
  have closing : Bytes.ofText "\x7d" = [125] := by decide +kernel
  simp only [singleton, bytes_ofNat, ← key, Settings.Measure.object, ofText_append, opening, middle,
    closing, List.cons_append, List.append_assoc, List.nil_append]

end Json

namespace Settings

/-- What JSON makes of an object with one number. -/
theorem readJson_object_iff (measure : Measure) (origin : Option String) (n : Int) {e : Entry} :
    readJson origin (measure.object n) = .ok e ↔
      ∃ m, (Json.Numeral.ofNat (n < 0) n.natAbs).number? = some m ∧
        e = Entry.single origin measure.key (.ofShortNumber m) := by
  obtain ⟨gs, text, bytes⟩ := Json.exists_singleton measure n
  have known {v : Json} := Json.read_singleton_iff (x := .ofNat (n < 0) n.natAbs) (v := v) text
  rw [readJson, bytes]
  constructor
  · intro found
    cases read : Json.read (Json.singleton gs (.ofNat (n < 0) n.natAbs)) with
    | error e =>
      rw [read] at found
      cases found
    | ok v =>
      obtain ⟨m, number, rfl⟩ := known.mp read
      rw [read] at found
      cases found
      exact ⟨m, number, rfl⟩
  · rintro ⟨m, number, rfl⟩
    rw [known.mpr ⟨m, number, rfl⟩]
    rfl

end Settings

end HotSwap

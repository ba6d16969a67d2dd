import HotSwap.Proofs.Json.Grammar
import HotSwap.Proofs.Json.Scanning

/-!
# Which numbers are read

A number is taken as far as it goes: it is read if what is there begins with a numeral that stands
for a number, and passed over if it begins with a numeral at all.
-/

namespace HotSwap.Json

variable {s ds rest rest' : Bytes} {b : UInt8} {n k : Nat} {negative : Bool} {scale : Int}
  {a : Number}

/-! ## Runs of digits -/

/-- A run of digits goes no further. -/
def NoDigit (s : Bytes) : Prop := ∀ b ∈ s.head?, ¬ Bytes.isDigit b

theorem exists_run (s : Bytes) :
    ∃ ds rest, s = ds ++ rest ∧ (∀ b ∈ ds, Bytes.isDigit b) ∧ NoDigit rest := by
  refine ⟨s.takeWhile Bytes.isDigit, s.dropWhile Bytes.isDigit,
    List.takeWhile_append_dropWhile.symm, List.all_eq_true.mp List.all_takeWhile, ?_⟩
  intro b first digit
  have stops := List.head?_dropWhile_not Bytes.isDigit s
  rw [Option.mem_def.mp first] at stops
  simp [digit] at stops

/-- Digits that start with a given one. -/
theorem exists_digits (digit : Bytes.isDigit b) (s : Bytes) :
    ∃ ds rest, s = ds ++ rest ∧ Digits (b :: ds) ∧ NoDigit rest := by
  obtain ⟨ds, rest, split, digits, stops⟩ := exists_run s
  exact ⟨ds, rest, split, ⟨List.cons_ne_nil _ _, List.forall_mem_cons.mpr ⟨digit, digits⟩⟩, stops⟩

namespace Scan

theorem yields_digitRun (digits : ∀ b ∈ ds, Bytes.isDigit b) (stops : NoDigit rest) :
    digitRun.Yields (ds ++ rest) ds.length rest := by
  have kept : rest.takeWhile Bytes.isDigit = [] ∧ rest.dropWhile Bytes.isDigit = rest := by
    cases rest with
    | nil => exact ⟨rfl, rfl⟩
    | cons b rest => simp [stops b rfl]
  refine yields_ofFunction_iff.mpr ⟨?_, ?_⟩
  · simp only [List.takeWhile_append_of_pos digits, kept.1, List.append_nil]
  · simp only [List.dropWhile_append_of_pos digits, kept.2]

theorem gather_append (stops : NoDigit rest) (n : Nat) :
    gather n (ds ++ rest) = ((gather n ds).1, (gather n ds).2 ++ rest) := by
  induction ds generalizing n with
  | nil =>
    cases rest with
    | nil => rfl
    | cons b rest => simp [gather, stops b rfl]
  | cons b ds inductionHypothesis =>
    rw [List.cons_append, gather, gather]
    split
    · rw [inductionHypothesis]
    · rfl

/-- What is not gathered is left, and what is gathered is counted. -/
theorem gather_suffix (n : Nat) (ds : Bytes) :
    (gather n ds).2 <:+ ds ∧ (gather n ds).1.2 + (gather n ds).2.length = ds.length := by
  induction ds generalizing n with
  | nil => exact ⟨List.suffix_rfl, rfl⟩
  | cons b ds inductionHypothesis =>
    rw [gather]
    split
    · obtain ⟨suffix, count⟩ := inductionHypothesis (10 * n + Bytes.digit b)
      refine ⟨suffix.trans (List.suffix_cons b ds), ?_⟩
      simp only [List.length_cons]
      omega
    · exact ⟨List.suffix_rfl, Nat.zero_add _⟩

/-- The digits that fit are gathered, and the others are run over. -/
theorem yields_significand {m taken : Nat} {left : Bytes}
    (gathered : gather n ds = ((m, taken), left)) (digits : ∀ b ∈ ds, Bytes.isDigit b)
    (stops : NoDigit rest) :
    (significand n).Yields (ds ++ rest) (m, taken) (left ++ rest) ∧
      digitRun.Yields (left ++ rest) left.length rest ∧ taken + left.length = ds.length := by
  have suffix := gather_suffix n ds
  rw [gathered] at suffix
  refine ⟨yields_ofFunction_iff.mpr ⟨?_, ?_⟩, ?_, suffix.2⟩
  · rw [gather_append stops, gathered]
  · rw [gather_append stops, gathered]
  · exact yields_digitRun (fun b there => digits b (suffix.1.subset there)) stops

theorem digit_lt (digit : Bytes.isDigit b) : Bytes.digit b < 10 := by
  simp only [Bytes.isDigit, Bool.and_eq_true, decide_eq_true_eq, UInt8.le_iff_toNat_le] at digit
  have := digit.2
  simp only [Bytes.digit]
  change b.toNat ≤ 57 at this
  omega

theorem gather_zero (digit : Bytes.isDigit b) (ds : Bytes) :
    (gather 0 (b :: ds)).1.1 = (gather (Bytes.digit b) ds).1.1 ∧
      (gather 0 (b :: ds)).2 = (gather (Bytes.digit b) ds).2 := by
  have fits : 10 * 0 + Bytes.digit b < Word.count 64 := by
    have := digit_lt digit
    have : 10 < Word.count 64 := by decide
    omega
  rw [gather, if_pos ⟨digit, fits⟩, Nat.mul_zero, Nat.zero_add]
  exact ⟨rfl, rfl⟩

/-! ## Exponents -/

theorem le_foldl_digits (n : Nat) (ds : Bytes) :
    n ≤ ds.foldl (fun n b => 10 * n + Bytes.digit b) n := by
  induction ds generalizing n with
  | nil => exact Nat.le_refl _
  | cons b ds inductionHypothesis =>
    have := inductionHypothesis (10 * n + Bytes.digit b)
    rw [List.foldl_cons]
    omega

/-- An exponent is taken to its last digit exactly if it has no more than 31 bits. -/
theorem power_append (digits : ∀ b ∈ ds, Bytes.isDigit b) (stops : NoDigit rest) (n : Nat) :
    (ds.foldl (fun n b => 10 * n + Bytes.digit b) n < Word.count 31 →
      power n (ds ++ rest) = (ds.foldl (fun n b => 10 * n + Bytes.digit b) n, rest)) ∧
    (n < Word.count 31 → Word.count 31 ≤ ds.foldl (fun n b => 10 * n + Bytes.digit b) n →
      ∃ m c later, power n (ds ++ rest) = (m, c :: later ++ rest) ∧ c :: later <:+ ds) := by
  induction ds generalizing n with
  | nil =>
    refine ⟨fun _ => ?_, fun small large => absurd small (Nat.not_lt.mpr large)⟩
    cases rest with
    | nil => rfl
    | cons b rest => simp [power, stops b rfl]
  | cons b ds inductionHypothesis =>
    have digit := digits b List.mem_cons_self
    have others : ∀ b ∈ ds, Bytes.isDigit b := fun b there => digits b (.tail _ there)
    have held := inductionHypothesis others (10 * n + Bytes.digit b)
    rw [List.cons_append, List.foldl_cons, power]
    constructor
    · intro small
      have := le_foldl_digits (10 * n + Bytes.digit b) ds
      rw [if_pos ⟨digit, by omega⟩]
      exact held.1 small
    · intro _ large
      split
      · next fits =>
        obtain ⟨m, c, later, taken, suffix⟩ := held.2 fits.2 large
        exact ⟨m, c, later, taken, suffix.trans (List.suffix_cons b ds)⟩
      · exact ⟨n, b, ds, rfl, List.suffix_rfl⟩

theorem peekDigit_bind_iff {β : Type} {f : Bool → Scan β} {c : β} :
    (peekDigit >>= f).Yields s c rest ↔ (f (s.head?.any Bytes.isDigit)).Yields s c rest := by
  have peeked : peekDigit.Yields s (s.head?.any Bytes.isDigit) s :=
    (yields_peek s).bind (.pure _ s)
  exact peeked.bind_iff

theorem any_of_noDigit (stops : NoDigit rest) : rest.head?.any Bytes.isDigit = false := by
  cases rest with
  | nil => rfl
  | cons b rest => simpa using stops b rfl

theorem yields_scaled_iff :
    (scaled negative n scale).Yields s a rest ↔
      Numeral.scaled? negative n scale = some a ∧ rest = s := by
  unfold scaled Numeral.scaled?
  cases (Binary64.ofNat negative n).scale? scale with
  | none => simp
  | some x => simp [eq_comm]

/-- The digits of an exponent behind its sign. -/
theorem yields_exponent_digits_iff {minus : Bool} (areDigits : Digits (b :: ds))
    (stops : NoDigit rest) :
    (exponentDigits (Bytes.digit b) >>= fun e => peekDigit >>= fun more =>
        if more = true then
          Scan.drop >>= fun _ =>
            if n ≠ 0 ∧ minus = false then Scan.fail .numberRange
            else digitRun >>= fun _ => Pure.pure (Number.float (.zero negative))
        else scaled negative n (if minus = true then scale - e else scale + e)).Yields
      (ds ++ rest) a rest' ↔
      Numeral.raised? negative n scale minus (digitsValue (b :: ds)) = some a ∧ rest' = rest := by
  have digit := areDigits.2 b List.mem_cons_self
  have others : ∀ b ∈ ds, Bytes.isDigit b := fun b there => areDigits.2 b (.tail _ there)
  have small : Bytes.digit b < Word.count 31 :=
    Nat.lt_of_lt_of_le (digit_lt digit) (by decide)
  have value : digitsValue (b :: ds) =
      ds.foldl (fun n b => 10 * n + Bytes.digit b) (Bytes.digit b) := by
    simp [digitsValue]
  have taken := power_append others stops (Bytes.digit b)
  rw [← value] at taken
  unfold Numeral.raised?
  by_cases fits : digitsValue (b :: ds) < Word.count 31
  · rw [if_pos fits]
    have read : (exponentDigits (Bytes.digit b)).Yields (ds ++ rest) (digitsValue (b :: ds)) rest :=
      yields_ofFunction_iff.mpr ⟨by rw [taken.1 fits], by rw [taken.1 fits]⟩
    rw [read.bind_iff, peekDigit_bind_iff, any_of_noDigit stops, if_neg Bool.false_ne_true,
      yields_scaled_iff]
  · rw [if_neg fits]
    obtain ⟨m, c, later, left, suffix⟩ := taken.2 small (Nat.le_of_not_lt fits)
    have read : (exponentDigits (Bytes.digit b)).Yields (ds ++ rest) m (c :: later ++ rest) :=
      yields_ofFunction_iff.mpr ⟨by rw [left], by rw [left]⟩
    have more : (c :: later ++ rest).head?.any Bytes.isDigit = true :=
      others c (suffix.subset List.mem_cons_self)
    rw [read.bind_iff, peekDigit_bind_iff, more, if_pos rfl, yields_drop_bind_iff]
    split
    · simp
    · have run := yields_digitRun (fun b there => others b (suffix.subset (.tail c there))) stops
      change (digitRun >>= _).Yields (later ++ rest) _ _ ↔ _
      rw [run.bind_iff]
      simp [eq_comm]

/-- What an exponent makes of a significand, read behind its mark. -/
theorem yields_exponent_iff (e : Exponent) (stops : NoDigit rest) :
    (exponent negative n scale).Yields (e.sign.toList ++ (e.digits ++ rest)) a rest' ↔
      Numeral.raised? negative n scale e.minus (digitsValue e.digits) = some a ∧ rest' = rest := by
  obtain ⟨mark, sign, digits, isMark, isSign, areDigits⟩ := e
  obtain ⟨b, ds, rfl⟩ := List.exists_cons_of_ne_nil areDigits.1
  have digit := areDigits.2 b List.mem_cons_self
  have unsigned : b ≠ 43 ∧ b ≠ 45 := by
    constructor <;> rintro rfl <;> cases digit
  rw [exponent, yields_peek_bind_iff]
  cases sign with
  | none =>
    split
    · next same => exact absurd (Option.some.inj same) unsigned.1
    · next same => exact absurd (Option.some.inj same) unsigned.2
    · rw [yields_pure_bind_iff, yields_next_bind_iff]
      change (if Bytes.isDigit b = true then _ else _ : Scan _).Yields (ds ++ rest) _ _ ↔ _
      rw [if_pos digit]
      exact yields_exponent_digits_iff areDigits stops
  | some sign =>
    rcases isSign sign rfl with rfl | rfl
    all_goals
      simp only [Option.toList_some, List.cons_append, List.nil_append, List.head?_cons]
      rw [yields_drop_bind_iff, yields_pure_bind_iff, yields_next_bind_iff]
      change (if Bytes.isDigit b = true then _ else _ : Scan _).Yields (ds ++ rest) _ _ ↔ _
      rw [if_pos digit]
      exact yields_exponent_digits_iff areDigits stops

/-! ## Whole numerals -/

/-- A numeral with this exponent goes no further. -/
def Stops (fraction : Option Bytes) (exponent : Option Exponent) (rest : Bytes) : Prop :=
  NoDigit rest ∧ (exponent = none → rest.head? ≠ some 101 ∧ rest.head? ≠ some 69 ∧
    (fraction = none → rest.head? ≠ some 46))

theorem noDigit_exponent {fraction : Option Bytes} {exponent : Option Exponent}
    (stops : Stops fraction exponent rest) :
    NoDigit (exponent.elim [] Exponent.bytes ++ rest) := by
  cases exponent with
  | none => exact stops.1
  | some e =>
    intro b first
    cases first
    rcases e.isMark with mark | mark <;> rw [mark] <;> decide

theorem yields_fraction_iff (areDigits : Digits ds) {exponent : Option Exponent}
    (stops : Stops (some ds) exponent rest) :
    (fraction negative n k).Yields (ds ++ (exponent.elim [] Exponent.bytes ++ rest)) a rest' ↔
      Numeral.behind? negative n k (some ds) exponent = some a ∧ rest' = rest := by
  rcases gathered : gather n ds with ⟨⟨m, taken⟩, left⟩
  obtain ⟨read, run, count⟩ := yields_significand gathered areDigits.2 (noDigit_exponent stops)
  have nonempty : ¬ (taken = 0 ∧ left.length = 0) := by
    have := List.length_pos_iff.mpr areDigits.1
    omega
  rw [fraction, read.bind_iff]
  simp only
  rw [run.bind_iff, if_neg nonempty, yields_peek_bind_iff]
  simp only [Numeral.behind?, Option.getD_some, gathered]
  cases exponent with
  | none =>
    obtain ⟨unmarked, unmarked', -⟩ := stops.2 rfl
    rw [Option.elim_none, List.nil_append]
    split
    · next same => exact absurd same unmarked
    · next same => exact absurd same unmarked'
    · rw [yields_scaled_iff]
      simp
  | some e =>
    obtain mark | mark := e.isMark
    all_goals
      simp only [Option.elim_some, Exponent.bytes, mark, List.cons_append, List.head?_cons,
        yields_drop_bind_iff, List.drop_succ_cons, List.drop_zero, List.append_assoc]
      exact yields_exponent_iff e stops.1

theorem yields_afterWhole_iff {fraction : Option Bytes} {exponent : Option Exponent}
    (areFraction : ∀ ds ∈ fraction, Digits ds) (stops : Stops fraction exponent rest) :
    (afterWhole negative n k).Yields
        (fraction.elim [] (46 :: ·) ++ (exponent.elim [] Exponent.bytes ++ rest)) a rest' ↔
      Numeral.behind? negative n k fraction exponent = some a ∧ rest' = rest := by
  rw [afterWhole, yields_peek_bind_iff]
  cases fraction with
  | some ds =>
    simp only [Option.elim_some, List.cons_append, List.head?_cons, yields_drop_bind_iff,
      List.drop_succ_cons, List.drop_zero]
    exact yields_fraction_iff (areFraction ds rfl) stops
  | none =>
    simp only [Option.elim_none, List.nil_append, Numeral.behind?, Option.getD_none, gather]
    cases exponent with
    | some e =>
      have none_taken : (k : Int) - (0 : Nat) = k := by omega
      obtain mark | mark := e.isMark
      all_goals
        simp only [Option.elim_some, Exponent.bytes, mark, List.cons_append, List.head?_cons,
          yields_drop_bind_iff, List.drop_succ_cons, List.drop_zero, List.append_assoc, none_taken]
        exact yields_exponent_iff e stops.1
    | none =>
      obtain ⟨unmarked, unmarked', unpointed⟩ := stops.2 rfl
      rw [Option.elim_none, List.nil_append]
      split
      · next same => exact absurd same (unpointed rfl)
      · next same => exact absurd same unmarked
      · next same => exact absurd same unmarked'
      · split
        · next fits => simp [fits, eq_comm]
        · next large => simp [large, yields_scaled_iff]

theorem noDigit_behind {fraction : Option Bytes} {exponent : Option Exponent}
    (stops : Stops fraction exponent rest) :
    NoDigit (fraction.elim [] (46 :: ·) ++ (exponent.elim [] Exponent.bytes ++ rest)) := by
  cases fraction with
  | none => exact noDigit_exponent stops
  | some ds =>
    rintro b ⟨⟩
    decide

theorem yields_unsigned_iff {fraction : Option Bytes} {exponent : Option Exponent}
    (areDigits : Digits ds) (noZero : ds.head? = some 48 → ds = [48])
    (areFraction : ∀ ds ∈ fraction, Digits ds) (stops : Stops fraction exponent rest) :
    (unsigned negative).Yields
        (ds ++ (fraction.elim [] (46 :: ·) ++ (exponent.elim [] Exponent.bytes ++ rest))) a rest' ↔
      Numeral.behind? negative (gather 0 ds).1.1 (gather 0 ds).2.length fraction exponent =
        some a ∧ rest' = rest := by
  obtain ⟨b, ds, rfl⟩ := List.exists_cons_of_ne_nil areDigits.1
  have digit := areDigits.2 b List.mem_cons_self
  have others : ∀ b ∈ ds, Bytes.isDigit b := fun b there => areDigits.2 b (.tail _ there)
  have ends := noDigit_behind stops
  rw [unsigned, yields_next_bind_iff]
  by_cases zero : b = 48
  · subst zero
    cases noZero rfl
    change (if (48 : UInt8) = 48 then _ else _ : Scan _).Yields ([] ++ _) _ _ ↔ _
    rw [if_pos rfl, List.nil_append, peekDigit_bind_iff, any_of_noDigit ends,
      if_neg Bool.false_ne_true]
    exact yields_afterWhole_iff areFraction stops
  · rcases gathered : gather (Bytes.digit b) ds with ⟨⟨m, taken⟩, left⟩
    obtain ⟨read, run, -⟩ := yields_significand gathered others ends
    obtain ⟨same, same'⟩ := gather_zero digit ds
    rw [same, same', gathered]
    change (if b = 48 then _ else _ : Scan _).Yields (ds ++ _) _ _ ↔ _
    rw [if_neg zero, if_pos digit, read.bind_iff]
    simp only
    rw [run.bind_iff]
    exact yields_afterWhole_iff areFraction stops

end Scan

namespace Numeral

variable (x : Numeral)

/-- The numeral goes no further. -/
def Ends (rest : Bytes) : Prop := Scan.Stops x.fraction x.exponent rest

theorem bytes_append (rest : Bytes) :
    x.bytes ++ rest = (if x.negative then [45] else []) ++ (x.whole ++
      (x.fraction.elim [] (46 :: ·) ++ (x.exponent.elim [] Exponent.bytes ++ rest))) := by
  simp only [bytes, List.append_assoc]

/-- Digits do not look like a sign. -/
theorem head?_whole_ne (rest : Bytes) : (x.whole ++ rest).head? ≠ some 45 := by
  obtain ⟨b, ds, whole⟩ := List.exists_cons_of_ne_nil x.areDigits.1
  have digit := x.areDigits.2 b (by rw [whole]; exact List.mem_cons_self)
  rw [whole]
  rintro ⟨⟩
  cases digit

theorem exists_bytes : ∃ c t, x.bytes = c :: t ∧ (c = 45 ∨ Bytes.isDigit c) := by
  obtain ⟨b, ds, whole⟩ := List.exists_cons_of_ne_nil x.areDigits.1
  have digit := x.areDigits.2 b (by rw [whole]; exact List.mem_cons_self)
  have split := x.bytes_append []
  rw [List.append_nil, whole] at split
  cases sign : x.negative with
  | true =>
    rw [sign] at split
    exact ⟨45, _, split, .inl rfl⟩
  | false =>
    rw [sign] at split
    exact ⟨b, _, split, .inr digit⟩

end Numeral

namespace Scan

/-- A numeral is read to its end. -/
theorem yields_number_bytes_iff (x : Numeral) (ends : x.Ends rest) :
    number.Yields (x.bytes ++ rest) a rest' ↔ x.number? = some a ∧ rest' = rest := by
  have read (negative : Bool) :=
    @yields_unsigned_iff x.whole rest rest' negative a x.fraction x.exponent x.areDigits x.noZero
      x.areFraction ends
  rw [Numeral.number?, number, yields_peek_bind_iff, x.bytes_append]
  cases x.negative with
  | true => exact yields_drop_bind_iff.trans (read true)
  | false =>
    simp only [Bool.false_eq_true, if_false, List.nil_append]
    split
    · next same => exact absurd same (x.head?_whole_ne _)
    · exact read false

/-! ## What begins with a numeral -/

/-- An exponent begins here, behind its mark. -/
def OpensExponent (s : Bytes) : Prop :=
  ∃ (sign : Option UInt8) (b : UInt8) (t : Bytes), (∀ c ∈ sign, c = 43 ∨ c = 45) ∧
    Bytes.isDigit b ∧ s = sign.toList ++ b :: t

/-- If a mark is here, an exponent begins. -/
def OpensMark (s : Bytes) : Prop :=
  ∀ mark t, s = mark :: t → mark = 101 ∨ mark = 69 → OpensExponent t

/-- If a point is here, a fraction begins, and an exponent behind it if there is a mark. -/
def OpensPoint (s : Bytes) : Prop :=
  ∀ t, s = 46 :: t → ∃ ds rest, t = ds ++ rest ∧ Digits ds ∧ NoDigit rest ∧ OpensMark rest

/-- What is behind the sign of a numeral. -/
def OpensUnsigned (s : Bytes) : Prop :=
  ∃ ds t, s = ds ++ t ∧ Digits ds ∧ (ds.head? = some 48 → ds = [48]) ∧ NoDigit t ∧
    OpensPoint t ∧ OpensMark t

def OpensNumeral (s : Bytes) : Prop :=
  ∃ (negative : Bool) (t : Bytes), s = (if negative then [45] else []) ++ t ∧ OpensUnsigned t

theorem OpensMark.exists_exponent (opens : OpensMark s) (stops : NoDigit s) :
    ∃ (exponent : Option Exponent) (rest : Bytes),
      s = exponent.elim [] Exponent.bytes ++ rest ∧ NoDigit rest ∧
        (exponent = none → rest = s ∧ rest.head? ≠ some 101 ∧ rest.head? ≠ some 69) := by
  cases s with
  | nil => exact ⟨none, [], rfl, stops, fun _ => ⟨rfl, nofun, nofun⟩⟩
  | cons mark t =>
    by_cases isMark : mark = 101 ∨ mark = 69
    · obtain ⟨sign, b, t', isSign, digit, rfl⟩ := opens mark t rfl isMark
      obtain ⟨ds, rest, rfl, areDigits, ends⟩ := exists_digits digit t'
      refine ⟨some ⟨mark, sign, b :: ds, isMark, isSign, areDigits⟩, rest, ?_, ends, nofun⟩
      simp [Exponent.bytes]
    · refine ⟨none, mark :: t, rfl, stops, fun _ => ⟨rfl, ?_, ?_⟩⟩
      · exact fun same => isMark (.inl (Option.some.inj same))
      · exact fun same => isMark (.inr (Option.some.inj same))

theorem OpensNumeral.exists_numeral (opens : OpensNumeral s) :
    ∃ (x : Numeral) (rest : Bytes), s = x.bytes ++ rest ∧ x.Ends rest := by
  obtain ⟨negative, _, rfl, ds, t, rfl, areDigits, noZero, ends, points, marks⟩ := opens
  by_cases pointed : ∃ t', t = 46 :: t'
  · obtain ⟨t', rfl⟩ := pointed
    obtain ⟨fs, rest, rfl, areFraction, ends', marks'⟩ := points t' rfl
    obtain ⟨exponent, rest, rfl, stops, unmarked⟩ := marks'.exists_exponent ends'
    refine ⟨⟨negative, ds, some fs, exponent, areDigits, noZero, ?_⟩, rest, ?_, stops,
      fun absent => ⟨(unmarked absent).2.1, (unmarked absent).2.2, nofun⟩⟩
    · rintro _ ⟨⟩
      exact areFraction
    · simp [Numeral.bytes]
  · obtain ⟨exponent, rest, rfl, stops, unmarked⟩ := marks.exists_exponent ends
    refine ⟨⟨negative, ds, none, exponent, areDigits, noZero, nofun⟩, rest, ?_, stops,
      fun absent => ⟨(unmarked absent).2.1, (unmarked absent).2.2, fun _ point => ?_⟩⟩
    · simp [Numeral.bytes]
    · obtain ⟨t', same⟩ := List.head?_eq_some_iff.mp point
      exact pointed ⟨t', (unmarked absent).1 ▸ same⟩

variable {α : Type} {c : α} {u : Unit}

/-- The scan takes nothing unless a digit is there. -/
def NeedsDigit (x : Scan α) : Prop :=
  ∀ s c rest, x.Yields s c rest → ∃ b t, s = b :: t ∧ Bytes.isDigit b

theorem needsDigit_next {f : Option UInt8 → Scan α}
    (needs : ∀ o s c rest, (f o).Yields s c rest → ∃ b, o = some b ∧ Bytes.isDigit b) :
    NeedsDigit (next >>= f) := by
  intro s c rest yields
  obtain ⟨b, first, digit⟩ := needs _ _ _ _ (yields_next_bind_iff.mp yields)
  obtain ⟨t, rfl⟩ := List.head?_eq_some_iff.mp first
  exact ⟨b, t, rfl, digit⟩

theorem opensExponent_of_needsDigit {x y z : Scan α} (plus : NeedsDigit x) (minus : NeedsDigit y)
    (unsigned : NeedsDigit z)
    (yields : (match s.head? with
      | some 43 => drop >>= fun _ => x
      | some 45 => drop >>= fun _ => y
      | _ => z).Yields s c rest) : OpensExponent s := by
  have signed (sign : UInt8) (isSign : sign = 43 ∨ sign = 45) {w : Scan α} (needs : NeedsDigit w)
      {t : Bytes} (later : (drop >>= fun _ => w).Yields (sign :: t) c rest) :
      OpensExponent (sign :: t) := by
    rw [yields_drop_bind_iff] at later
    obtain ⟨b, t', same, digit⟩ := needs _ _ _ later
    rw [List.drop_succ_cons, List.drop_zero] at same
    refine ⟨some sign, b, t', fun _ there => Option.some.inj there ▸ isSign, digit, ?_⟩
    rw [same]
    rfl
  split at yields
  · next sign =>
    obtain ⟨t, rfl⟩ := List.head?_eq_some_iff.mp sign
    exact signed 43 (.inl rfl) plus yields
  · next sign =>
    obtain ⟨t, rfl⟩ := List.head?_eq_some_iff.mp sign
    exact signed 45 (.inr rfl) minus yields
  · obtain ⟨b, t, rfl, digit⟩ := unsigned _ _ _ yields
    exact ⟨none, b, t, nofun, digit, rfl⟩

theorem Yields.opensExponent (yields : (exponent negative n scale).Yields s a rest) :
    OpensExponent s := by
  rw [exponent, yields_peek_bind_iff] at yields
  refine opensExponent_of_needsDigit ?_ ?_ ?_ yields
  all_goals
    intro s c rest yields
    rw [yields_pure_bind_iff] at yields
    refine needsDigit_next (fun o s c rest later => ?_) s c rest yields
    split at later
    · exact absurd later not_yields_fail
    · next b =>
      split at later
      · next digit => exact ⟨b, rfl, digit⟩
      · exact absurd later not_yields_fail

theorem Yields.opensExponent_pass (yields : passExponent.Yields s u rest) : OpensExponent s := by
  rw [passExponent, yields_peek_bind_iff] at yields
  refine opensExponent_of_needsDigit ?_ ?_ ?_ yields
  all_goals
    refine needsDigit_next fun o s c rest later => ?_
    split at later
    · next b =>
      split at later
      · next digit => exact ⟨b, rfl, digit⟩
      · exact absurd later not_yields_fail
    · exact absurd later not_yields_fail

theorem opensMark_of_match {x y z : Scan α}
    (opens : ∀ t c rest, x.Yields t c rest ∨ y.Yields t c rest → OpensExponent t)
    (yields : (match s.head? with
      | some 101 => drop >>= fun _ => x
      | some 69 => drop >>= fun _ => y
      | _ => z).Yields s c rest) : OpensMark s := by
  rintro mark t rfl (rfl | rfl)
  · exact opens _ _ _ (.inl (yields_drop_bind_iff.mp yields))
  · exact opens _ _ _ (.inr (yields_drop_bind_iff.mp yields))

theorem opens_of_match {w x y z : Scan α}
    (opens : ∀ t c rest, w.Yields t c rest →
      ∃ ds rest, t = ds ++ rest ∧ Digits ds ∧ NoDigit rest ∧ OpensMark rest)
    (opens' : ∀ t c rest, x.Yields t c rest ∨ y.Yields t c rest → OpensExponent t)
    (yields : (match s.head? with
      | some 46 => drop >>= fun _ => w
      | some 101 => drop >>= fun _ => x
      | some 69 => drop >>= fun _ => y
      | _ => z).Yields s c rest) : OpensPoint s ∧ OpensMark s := by
  constructor
  · rintro t rfl
    exact opens _ _ _ (yields_drop_bind_iff.mp yields)
  · rintro mark t rfl (rfl | rfl)
    · exact opens' _ _ _ (.inl (yields_drop_bind_iff.mp yields))
    · exact opens' _ _ _ (.inr (yields_drop_bind_iff.mp yields))

theorem Yields.opensFraction (yields : (fraction negative n k).Yields s a rest) :
    ∃ ds rest, s = ds ++ rest ∧ Digits ds ∧ NoDigit rest ∧ OpensMark rest := by
  obtain ⟨ds, later, rfl, digits, stops⟩ := exists_run s
  rcases gathered : gather n ds with ⟨⟨m, taken⟩, left⟩
  obtain ⟨read, run, count⟩ := yields_significand gathered digits stops
  rw [fraction, read.bind_iff] at yields
  simp only at yields
  rw [run.bind_iff] at yields
  split at yields
  · rw [yields_peek_bind_iff] at yields
    split at yields
    · exact absurd yields not_yields_fail
    · exact absurd yields not_yields_failNext
  · next nonempty =>
    rw [yields_peek_bind_iff] at yields
    refine ⟨ds, later, rfl, ⟨?_, digits⟩, stops, opensMark_of_match ?_ yields⟩
    · rintro rfl
      simp only [List.length_nil] at count
      omega
    · rintro t c rest (exponent | exponent) <;> exact exponent.opensExponent

theorem Yields.opensFraction_pass (yields : passFraction.Yields s u rest) :
    ∃ ds rest, s = ds ++ rest ∧ Digits ds ∧ NoDigit rest ∧ OpensMark rest := by
  obtain ⟨ds, later, rfl, digits, stops⟩ := exists_run s
  rw [passFraction, (yields_digitRun digits stops).bind_iff] at yields
  split at yields
  · exact absurd yields not_yields_failNext
  · next nonempty =>
    rw [yields_peek_bind_iff] at yields
    refine ⟨ds, later, rfl, ⟨?_, digits⟩, stops, opensMark_of_match ?_ yields⟩
    · rintro rfl
      exact nonempty rfl
    · rintro t c rest (exponent | exponent) <;> exact exponent.opensExponent_pass

theorem Yields.opens_afterWhole (yields : (afterWhole negative n k).Yields s a rest) :
    OpensPoint s ∧ OpensMark s := by
  rw [afterWhole, yields_peek_bind_iff] at yields
  refine opens_of_match (fun _ _ _ fraction => fraction.opensFraction) ?_ yields
  rintro t c rest (exponent | exponent) <;> exact exponent.opensExponent

/-- Passes over what may follow the digits of a whole number. -/
def passAfterWhole : Scan Unit := do
  match ← peek with
  | some 46 => drop; passFraction
  | some 101 | some 69 => drop; passExponent
  | _ => pure ()

theorem Yields.opens_passAfterWhole (yields : passAfterWhole.Yields s u rest) :
    OpensPoint s ∧ OpensMark s := by
  rw [passAfterWhole, yields_peek_bind_iff] at yields
  refine opens_of_match (fun _ _ _ fraction => fraction.opensFraction_pass) ?_ yields
  rintro t c rest (exponent | exponent) <;> exact exponent.opensExponent_pass

/-- Passes over a number behind its sign. -/
def passUnsigned : Scan Unit := do
  match ← next with
  | none => fail .badNumber
  | some b =>
    if b = 48 then
      if ← peekDigit then failNext .badNumber else passAfterWhole
    else if Bytes.isDigit b then
      let _ ← digitRun
      passAfterWhole
    else fail .badNumber

theorem passNumber_eq :
    passNumber = peek >>= fun o =>
      if o = some 45 then drop >>= fun _ => passUnsigned else passUnsigned :=
  rfl

theorem opensUnsigned_zero {t : Bytes} (stops : t.head?.any Bytes.isDigit = false)
    (point : OpensPoint t) (mark : OpensMark t) : OpensUnsigned (48 :: t) := by
  refine ⟨[48], t, rfl, by decide, fun _ => rfl, ?_, point, mark⟩
  intro b first digit
  rw [Option.mem_def.mp first] at stops
  simp [digit] at stops

theorem opensUnsigned_digits {t : Bytes} (nonzero : b ≠ 48) (digits : Digits (b :: ds))
    (stops : NoDigit t) (opens : OpensPoint t ∧ OpensMark t) : OpensUnsigned (b :: (ds ++ t)) :=
  ⟨b :: ds, t, rfl, digits, fun zero => absurd (Option.some.inj zero) nonzero, stops, opens⟩

theorem Yields.opensUnsigned (yields : (unsigned negative).Yields s a rest) : OpensUnsigned s := by
  rw [unsigned, yields_next_bind_iff] at yields
  cases s with
  | nil => exact absurd yields not_yields_fail
  | cons b s =>
    simp only [List.head?_cons, List.drop_succ_cons, List.drop_zero] at yields
    split at yields
    · next zero =>
      subst zero
      rw [peekDigit_bind_iff] at yields
      split at yields
      · exact absurd yields not_yields_failNext
      · next stops =>
        obtain ⟨point, mark⟩ := yields.opens_afterWhole
        exact opensUnsigned_zero (Bool.not_eq_true _ ▸ stops) point mark
    · next nonzero =>
      split at yields
      · next digit =>
        obtain ⟨ds, later, rfl, digits, stops⟩ := exists_digits digit s
        rcases gathered : gather (Bytes.digit b) ds with ⟨⟨m, taken⟩, left⟩
        have others : ∀ b ∈ ds, Bytes.isDigit b := fun b there => digits.2 b (.tail _ there)
        obtain ⟨read, run, -⟩ := yields_significand gathered others stops
        rw [read.bind_iff] at yields
        simp only at yields
        rw [run.bind_iff] at yields
        exact opensUnsigned_digits nonzero digits stops yields.opens_afterWhole
      · exact absurd yields not_yields_fail

theorem Yields.opensUnsigned_pass (yields : passUnsigned.Yields s u rest) : OpensUnsigned s := by
  rw [passUnsigned, yields_next_bind_iff] at yields
  cases s with
  | nil => exact absurd yields not_yields_fail
  | cons b s =>
    simp only [List.head?_cons, List.drop_succ_cons, List.drop_zero] at yields
    split at yields
    · next zero =>
      subst zero
      rw [peekDigit_bind_iff] at yields
      split at yields
      · exact absurd yields not_yields_failNext
      · next stops =>
        obtain ⟨point, mark⟩ := yields.opens_passAfterWhole
        exact opensUnsigned_zero (Bool.not_eq_true _ ▸ stops) point mark
    · next nonzero =>
      split at yields
      · next digit =>
        obtain ⟨ds, later, rfl, digits, stops⟩ := exists_digits digit s
        have others : ∀ b ∈ ds, Bytes.isDigit b := fun b there => digits.2 b (.tail _ there)
        rw [(yields_digitRun others stops).bind_iff] at yields
        exact opensUnsigned_digits nonzero digits stops yields.opens_passAfterWhole
      · exact absurd yields not_yields_fail

/-- A number is read exactly if a numeral that stands for it comes first. -/
theorem yields_number_iff :
    number.Yields s a rest ↔
      ∃ x : Numeral, s = x.bytes ++ rest ∧ x.Ends rest ∧ x.number? = some a := by
  constructor
  · intro yields
    have read := yields
    have opens : OpensNumeral s := by
      rw [number, yields_peek_bind_iff] at read
      split at read
      · next sign =>
        obtain ⟨t, rfl⟩ := List.head?_eq_some_iff.mp sign
        exact ⟨true, t, rfl, (yields_drop_bind_iff.mp read).opensUnsigned⟩
      · exact ⟨false, s, rfl, read.opensUnsigned⟩
    obtain ⟨x, later, rfl, ends⟩ := opens.exists_numeral
    obtain ⟨stands, rfl⟩ := (yields_number_bytes_iff x ends).mp yields
    exact ⟨x, rfl, ends, stands⟩
  · rintro ⟨x, rfl, ends, stands⟩
    exact (yields_number_bytes_iff x ends).mpr ⟨stands, rfl⟩

/-! ## Passing over numerals -/

theorem yields_passExponent (e : Exponent) (stops : NoDigit rest) :
    passExponent.Yields (e.sign.toList ++ (e.digits ++ rest)) () rest := by
  obtain ⟨mark, sign, digits, isMark, isSign, areDigits⟩ := e
  obtain ⟨b, ds, rfl⟩ := List.exists_cons_of_ne_nil areDigits.1
  have digit := areDigits.2 b List.mem_cons_self
  have unsigned : b ≠ 43 ∧ b ≠ 45 := by
    constructor <;> rintro rfl <;> cases digit
  have others : ∀ b ∈ ds, Bytes.isDigit b := fun b there => areDigits.2 b (.tail _ there)
  have run := yields_digitRun others stops
  rw [passExponent, yields_peek_bind_iff]
  simp only
  cases sign with
  | none =>
    split
    · next same => exact absurd (Option.some.inj same) unsigned.1
    · next same => exact absurd (Option.some.inj same) unsigned.2
    · rw [yields_next_bind_iff]
      change (if Bytes.isDigit b = true then _ else _ : Scan _).Yields (ds ++ rest) _ _
      rw [if_pos digit]
      exact run.bind (.pure () rest)
  | some sign =>
    rcases isSign sign rfl with rfl | rfl
    all_goals
      simp only [Option.toList_some, List.cons_append, List.nil_append, List.head?_cons]
      rw [yields_drop_bind_iff, yields_next_bind_iff]
      change (if Bytes.isDigit b = true then _ else _ : Scan _).Yields (ds ++ rest) _ _
      rw [if_pos digit]
      exact run.bind (.pure () rest)

theorem yields_passFraction (areDigits : Digits ds) {exponent : Option Exponent}
    (stops : Stops (some ds) exponent rest) :
    passFraction.Yields (ds ++ (exponent.elim [] Exponent.bytes ++ rest)) () rest := by
  have nonempty : ds.length ≠ 0 := Nat.ne_of_gt (List.length_pos_iff.mpr areDigits.1)
  have run := yields_digitRun areDigits.2 (noDigit_exponent stops)
  rw [passFraction, run.bind_iff, if_neg nonempty, yields_peek_bind_iff]
  cases exponent with
  | none =>
    obtain ⟨unmarked, unmarked', -⟩ := stops.2 rfl
    change Scan.Yields (match rest.head? with | some 101 => _ | some 69 => _ | x => _) rest _ _
    split
    · next same => exact absurd same unmarked
    · next same => exact absurd same unmarked'
    · exact .pure () rest
  | some e =>
    have tail := yields_passExponent e stops.1
    obtain mark | mark := e.isMark
    all_goals
      simp only [Option.elim_some, Exponent.bytes, mark, List.cons_append, List.head?_cons,
        yields_drop_bind_iff, List.drop_succ_cons, List.drop_zero, List.append_assoc]
      exact tail

theorem yields_passAfterWhole {fraction : Option Bytes} {exponent : Option Exponent}
    (areFraction : ∀ ds ∈ fraction, Digits ds) (stops : Stops fraction exponent rest) :
    passAfterWhole.Yields
      (fraction.elim [] (46 :: ·) ++ (exponent.elim [] Exponent.bytes ++ rest)) () rest := by
  rw [passAfterWhole, yields_peek_bind_iff]
  cases fraction with
  | some ds =>
    simp only [Option.elim_some, List.cons_append, List.head?_cons, yields_drop_bind_iff,
      List.drop_succ_cons, List.drop_zero]
    exact yields_passFraction (areFraction ds rfl) stops
  | none =>
    simp only [Option.elim_none, List.nil_append]
    cases exponent with
    | some e =>
      have tail := yields_passExponent e stops.1
      obtain mark | mark := e.isMark
      all_goals
        simp only [Option.elim_some, Exponent.bytes, mark, List.cons_append, List.head?_cons,
          yields_drop_bind_iff, List.drop_succ_cons, List.drop_zero, List.append_assoc]
        exact tail
    | none =>
      obtain ⟨unmarked, unmarked', unpointed⟩ := stops.2 rfl
      change Scan.Yields (match rest.head? with
        | some 46 => _ | some 101 => _ | some 69 => _ | x => _) rest _ _
      split
      · next same => exact absurd same (unpointed rfl)
      · next same => exact absurd same unmarked
      · next same => exact absurd same unmarked'
      · exact .pure () rest

theorem yields_passUnsigned (x : Numeral) (ends : x.Ends rest) :
    passUnsigned.Yields (x.whole ++ (x.fraction.elim [] (46 :: ·) ++
      (x.exponent.elim [] Exponent.bytes ++ rest))) () rest := by
  obtain ⟨negative, whole, fraction, exponent, areDigits, noZero, areFraction⟩ := x
  obtain ⟨b, ds, rfl⟩ := List.exists_cons_of_ne_nil areDigits.1
  have digit := areDigits.2 b List.mem_cons_self
  have stops := noDigit_behind ends
  rw [passUnsigned, yields_next_bind_iff]
  by_cases zero : b = 48
  · subst zero
    cases noZero rfl
    change (if (48 : UInt8) = 48 then _ else _ : Scan _).Yields ([] ++ _) _ _
    rw [if_pos rfl, List.nil_append, peekDigit_bind_iff, any_of_noDigit stops,
      if_neg Bool.false_ne_true]
    exact yields_passAfterWhole areFraction ends
  · have others : ∀ b ∈ ds, Bytes.isDigit b := fun b there => areDigits.2 b (.tail _ there)
    change (if b = 48 then _ else _ : Scan _).Yields (ds ++ _) _ _
    rw [if_neg zero, if_pos digit]
    exact (yields_digitRun others stops).bind (yields_passAfterWhole areFraction ends)

theorem yields_passNumber_bytes (x : Numeral) (ends : x.Ends rest) :
    passNumber.Yields (x.bytes ++ rest) () rest := by
  have passed := yields_passUnsigned x ends
  rw [passNumber_eq, yields_peek_bind_iff, x.bytes_append]
  cases x.negative with
  | true => exact yields_drop_bind_iff.mpr passed
  | false =>
    have unsigned : (x.whole ++ (x.fraction.elim [] (46 :: ·) ++
        (x.exponent.elim [] Exponent.bytes ++ rest))).head? ≠ some 45 := x.head?_whole_ne _
    simp only [Bool.false_eq_true, if_false, List.nil_append, if_neg unsigned]
    exact passed

theorem yields_passNumber_iff :
    passNumber.Yields s u rest ↔ ∃ x : Numeral, s = x.bytes ++ rest ∧ x.Ends rest := by
  constructor
  · intro yields
    have passed := yields
    have opens : OpensNumeral s := by
      rw [passNumber_eq, yields_peek_bind_iff] at passed
      split at passed
      · next sign =>
        obtain ⟨t, rfl⟩ := List.head?_eq_some_iff.mp sign
        exact ⟨true, t, rfl, (yields_drop_bind_iff.mp passed).opensUnsigned_pass⟩
      · exact ⟨false, s, rfl, passed.opensUnsigned_pass⟩
    obtain ⟨x, later, rfl, ends⟩ := opens.exists_numeral
    obtain ⟨-, rfl⟩ := (yields_passNumber_bytes x ends).unique yields
    exact ⟨x, rfl, ends⟩
  · rintro ⟨x, rfl, ends⟩
    exact yields_passNumber_bytes x ends

end Scan

end HotSwap.Json

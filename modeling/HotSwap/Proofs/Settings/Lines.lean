import HotSwap.Proofs.Settings.WholeNumbers

/-!
# Numbers on a line of their own

A line that gives a key the digits of a number makes a table of that key. In TOML the key holds the
number, and a number that does not have 63 bits and a sign is refused; under sections it holds the
digits as they stand.
-/

namespace HotSwap

open Digits

/-- A table of one scalar. -/
def Entry.single (origin : Option String) (key : String) (x : Scalar) : Entry :=
  .table origin [(key, .scalar origin x)]

namespace Toml

variable {cs ds word rest : List Char} {n : Int} {c : Char} {k width : Nat}
  {t : Scalar × List Char}

theorem mem_of_startsWith (starts : startsWith cs word) (there : c ∈ word) : c ∈ cs := by
  obtain ⟨rest, split⟩ := List.isPrefixOf_iff_prefix.mp starts
  rw [← split]
  exact List.mem_append_left rest there

/-- Where a number is spelled no word with a letter in it is. -/
theorem not_startsWith (word : List Char) (plain : ∀ c ∈ cs, c = '-' ∨ c = '+' ∨ c.isDigit)
    (there : c ∈ word) (letter : ¬ (c = '-' ∨ c = '+' ∨ c.isDigit)) :
    startsWith cs word = false := by
  apply Bool.eq_false_iff.mpr
  intro starts
  exact letter (plain c (mem_of_startsWith starts there))

/-- Behind the first digits of a number there are only digits. -/
theorem digits?_of_spells (spelled : Spells cs n)
    (found : digits? (width + 1) cs = some (k, rest)) (there : c ∈ rest) : c.isDigit := by
  have first : (cs.take (width + 1)).all Char.isDigit ∧ cs.drop (width + 1) = rest := by
    unfold digits? at found
    dsimp only at found
    split at found
    · next digits =>
      cases found
      exact ⟨digits.2, rfl⟩
    · cases found
  obtain ⟨digits, rfl⟩ := first
  cases spelled with
  | minus run | plus run =>
    rw [List.take_succ_cons, List.all_cons] at digits
    cases digits
  | bare run => exact run.2 c (List.mem_of_mem_drop there)

/-- A number is no date and no time. -/
theorem read?_of_spells (spelled : Spells cs n) : Moment.read? cs = none := by
  have date : date? cs = none := by
    unfold date?
    split
    · next year rest found =>
      have := digits?_of_spells spelled found List.mem_cons_self
      cases this
    · rfl
  have clock : clock? "time" cs = none := by
    unfold clock?
    split
    · next hour rest found =>
      have := digits?_of_spells spelled found List.mem_cons_self
      cases this
    · rfl
  rw [Moment.read?, date, clock]
  rfl

theorem moreDigits_self (digits : ∀ d ∈ ds, d.isDigit) : moreDigits Char.isDigit ds = (ds, []) := by
  induction ds with
  | nil => rfl
  | cons d ds inductionHypothesis =>
    obtain ⟨digit, others⟩ := List.forall_mem_cons.mp digits
    unfold moreDigits
    split
    · next same =>
      cases same
      exact absurd digit (by decide)
    · next same =>
      cases same
      rw [if_pos digit, inductionHypothesis others]
    · next same => cases same

/-- The digits that a number is written with are taken to the last one. -/
theorem wholeDigits_toDigits (n : Nat) :
    wholeDigits (Nat.toDigits 10 n) = some (Nat.toDigits 10 n, []) := by
  have zero := toDigits_of_head? n
  obtain ⟨front, digits⟩ := run_toDigits n
  unfold wholeDigits
  split
  · next rest split =>
    obtain rfl := zero (by rw [split]; rfl)
    cases show ['0'] = '0' :: rest from split
    rfl
  · cases written : Nat.toDigits 10 n with
    | nil => exact absurd written front
    | cons d ds =>
      rw [written] at digits
      obtain ⟨digit, others⟩ := List.forall_mem_cons.mp digits
      rw [underscored, if_pos digit, moreDigits_self others]

theorem floatTail_nil (negative : Bool) (ds : List Char) : floatTail negative ds [] = none := rfl

/-- A number that has 63 bits and a sign is read from what it is written with. -/
theorem number_toString (n : Int) :
    number (toString n).toList =
      if n < -(Word.count 63 : Int) then
        fail "number too small to fit in target type" (toString n).toList
      else if (Word.count 63 : Int) ≤ n then fail tooLarge (toString n).toList
      else .ok (.int n, []) := by
  have spelled := spells_toString n
  have plain := fun c there => spelled.mem (c := c) there
  have digits : ∀ c ∈ Nat.toDigits 10 n.natAbs, c = '-' ∨ c = '+' ∨ c.isDigit := by
    intro c there
    exact .inr (.inr ((run_toDigits n.natAbs).2 c there))
  have infinite :=
    not_startsWith (c := 'f') ['i', 'n', 'f'] digits (by decide) (by decide)
  have nan := not_startsWith (c := 'n') ['n', 'a', 'n'] digits (by decide) (by decide)
  have hex := not_startsWith (c := 'x') ['0', 'x'] plain (by decide) (by decide)
  have octal := not_startsWith (c := 'o') ['0', 'o'] plain (by decide) (by decide)
  have binary := not_startsWith (c := 'b') ['0', 'b'] plain (by decide) (by decide)
  rw [number, read?_of_spells spelled]
  simp only [sign_toString, infinite, nan, hex, octal, binary, Bool.false_eq_true, if_false,
    wholeDigits_toDigits, floatTail_nil, signedValue_toString]

theorem value_toString (origin : Option String) (n : Int) (depth : Nat) :
    value origin (depth + 1) (toString n).toList =
      (number (toString n).toList).map fun t => (.scalar origin t.1, t.2) := by
  have spelled := spells_toString n
  cases written : (toString n).toList with
  | nil =>
    rw [written] at spelled
    exact absurd rfl spelled.ne_nil
  | cons c cs =>
    rw [written] at spelled
    have other {d : Char} : ¬ (d = '-' ∨ d = '+' ∨ d.isDigit) → c ≠ d :=
      spelled.ne List.mem_cons_self
    have unquoted : ¬ (c = '"' ∨ c = '\'') := not_or.mpr ⟨other (by decide), other (by decide)⟩
    have signed : c = '+' ∨ c = '-' ∨ c.isDigit := or_left_comm.mp (spelled.mem List.mem_cons_self)
    rw [value, if_neg unquoted, if_neg (other (by decide)), if_neg (other (by decide)),
      if_pos signed]

theorem key_line (measure : Settings.Measure) (cs : List Char) :
    key (measure.key.toList ++ '=' :: cs).length.succ (measure.key.toList ++ '=' :: cs) =
      .ok ([measure.key], '=' :: cs) := by
  cases measure with
  | port => rfl
  | drainTimeout => rfl

theorem skipBlank_of_spells (spelled : Spells cs n) : skipBlank cs = cs := by
  cases cs with
  | nil => rfl
  | cons c cs =>
    have space : c ≠ ' ' := spelled.ne List.mem_cons_self (by decide)
    have tab : c ≠ '\t' := spelled.ne List.mem_cons_self (by decide)
    rw [skipBlank, List.dropWhile_cons_of_neg]
    simp [isBlank, space, tab]

theorem toList_line (measure : Settings.Measure) (n : Int) :
    (measure.key ++ "=" ++ toString n).toList =
      measure.key.toList ++ '=' :: (toString n).toList := by
  rw [String.toList_append, String.toList_append, List.append_assoc]
  rfl

theorem eq_of_number (read : number (toString n).toList = .ok t) : t = (.int n, []) := by
  rw [number_toString] at read
  split at read
  · cases read
  · split at read
    · cases read
    · exact (Except.ok.inj read).symm

/-- The line is read as a key and what it holds. -/
theorem lines_line (measure : Settings.Measure) (origin : Option String) (doc : Document)
    (cs : List Char) (length : Nat) :
    lines origin (length + 1) doc (measure.key.toList ++ '=' :: cs) =
      (pair origin doc (measure.key.toList ++ '=' :: cs)).bind fun t =>
        lines origin length t.1 t.2 := by
  cases measure with
  | port => rfl
  | drainTimeout => rfl

theorem pair_line (measure : Settings.Measure) (origin : Option String) (n : Int) :
    pair origin ⟨.table origin [], [], []⟩ (measure.key.toList ++ '=' :: (toString n).toList) =
      (number (toString n).toList).map fun _ =>
        (⟨Entry.single origin measure.key (.int n), [], []⟩, []) := by
  have valued : value origin (toString n).toList.length.succ (skipBlank (toString n).toList) =
      (number (toString n).toList).map fun t => (.scalar origin t.1, t.2) := by
    rw [skipBlank_of_spells (spells_toString n)]
    exact value_toString origin n _
  rw [pair, key_line]
  change Except.bind (value _ _ _) _ = _
  rw [valued]
  cases read : number (toString n).toList with
  | error f => rfl
  | ok t =>
    cases eq_of_number read
    rfl

theorem lines_nil (origin : Option String) (length : Nat) (doc : Document) :
    lines origin length doc [] = .ok doc := by
  cases length with
  | zero => rfl
  | succ length => rfl

/-- A document of one line is read if its number is. -/
theorem read_line (measure : Settings.Measure) (origin : Option String) (n : Int) {e : Entry}
    (read : read origin (measure.key ++ "=" ++ toString n) = .ok e) :
    e = Entry.single origin measure.key (.int n) := by
  have unmarked : (measure.key.toList ++ '=' :: (toString n).toList).head? ≠ some '\ufeff' := by
    cases measure with
    | port =>
      change some 'p' ≠ _
      decide
    | drainTimeout =>
      change some 'd' ≠ _
      decide
  rw [Toml.read, toList_line] at read
  simp only [if_neg unmarked, lines_line, pair_line] at read
  generalize number (toString n).toList = result at read
  cases result with
  | error f => cases read
  | ok t =>
    simp only [Except.map, Except.bind, lines_nil] at read
    exact (Except.ok.inj read).symm

end Toml

namespace Yaml

variable {s : List Char} {n : Int} {c : Char}

/-- No blank, no end of a line and no start of a comment. -/
def Quiet (c : Char) : Prop := isBlank c = false ∧ c ≠ '\n' ∧ c ≠ '#'

instance (c : Char) : Decidable (Quiet c) := inferInstanceAs (Decidable (_ ∧ _))

theorem quiet_of_spells (spelled : Spells s n) (there : c ∈ s) : Quiet c := by
  have other {d : Char} : ¬ (d = '-' ∨ d = '+' ∨ d.isDigit) → c ≠ d := spelled.ne there
  have blank : isBlank c = false := by
    simp only [isBlank, Bool.or_eq_false_iff, beq_eq_false_iff_ne]
    exact ⟨⟨other (by decide), other (by decide)⟩, other (by decide)⟩
  exact ⟨blank, other (by decide), other (by decide)⟩

theorem quiet_key (measure : Settings.Measure) (there : c ∈ measure.key.toList) : Quiet c := by
  have quiet : measure.key.toList.all (Quiet ·) := by
    cases measure with
    | port => decide
    | drainTimeout => decide
  exact of_decide_eq_true (List.all_eq_true.mp quiet c there)

theorem dropWhile_quiet (quiet : ∀ c ∈ s, Quiet c) : s.dropWhile isBlank = s := by
  cases s with
  | nil => rfl
  | cons c s =>
    have shown := (quiet c List.mem_cons_self).1
    rw [List.dropWhile_cons_of_neg]
    rw [shown]
    exact Bool.false_ne_true

theorem trim_quiet (quiet : ∀ c ∈ s, Quiet c) : trim s = s := by
  have backwards : ∀ c ∈ s.reverse, Quiet c := fun c there => quiet c (List.mem_reverse.mp there)
  rw [trim, dropWhile_quiet quiet, trimEnd, dropWhile_quiet backwards, List.reverse_reverse]

theorem splitLines_quiet (quiet : ∀ c ∈ s, Quiet c) : splitLines s = [s] := by
  induction s with
  | nil => rfl
  | cons c s inductionHypothesis =>
    obtain ⟨here, others⟩ := List.forall_mem_cons.mp quiet
    unfold splitLines
    split
    · next same => cases same
    · next same =>
      cases same
      exact absurd rfl here.2.1
    · next same =>
      cases same
      rw [inductionHypothesis others]

end Yaml

namespace Relaxed

open Yaml

theorem unquote_of_head? {written : List Char} (unquoted : written.head? ≠ some '"') :
    unquote written = written := by
  unfold unquote
  split
  · exact absurd rfl unquoted
  · rfl

theorem sectionLine_line (measure : Settings.Measure) (origin : Option String) (root : Entry)
    {cs : List Char} (quiet : ∀ c ∈ measure.key.toList ++ '=' :: cs, Quiet c)
    (unquoted : cs.head? ≠ some '"') :
    sectionLine origin ⟨root, none⟩ (measure.key.toList ++ '=' :: cs) =
      ⟨root.change measure.key fun _ => .scalar origin (.text (String.ofList cs)), none⟩ := by
  have value : unquote (trim cs) = cs := by
    rw [trim_quiet fun c there => quiet c (List.mem_append_right _ (List.mem_cons_of_mem _ there)),
      unquote_of_head? unquoted]
  have sections := congrArg (fun value => Sections.mk
    (root.change measure.key fun _ => .scalar origin (.text (String.ofList value))) none) value
  rw [sectionLine, trim_quiet quiet]
  cases measure with
  | port => exact sections
  | drainTimeout => exact sections

/-- A line without a section gives a key its digits. -/
theorem readSections_line (measure : Settings.Measure) (origin : Option String) (n : Int) :
    readSections origin (measure.key ++ "=" ++ toString n) =
      .ok (Entry.single origin measure.key (.text (toString n))) := by
  have spelled := spells_toString n
  have quiet : ∀ c ∈ measure.key.toList ++ '=' :: (toString n).toList, Quiet c := by
    intro c there
    rcases List.mem_append.mp there with key | value
    · exact quiet_key measure key
    · rcases List.mem_cons.mp value with rfl | digits
      · decide
      · exact quiet_of_spells spelled digits
  have unquoted : (toString n).toList.head? ≠ some '"' := by
    intro first
    exact spelled.ne (List.mem_of_head? first) (by decide) rfl
  rw [readSections, Toml.toList_line, splitLines_quiet quiet]
  dsimp only [List.foldl]
  rw [sectionLine_line measure origin _ quiet unquoted, String.ofList_toList]
  rfl

end Relaxed

end HotSwap

import HotSwap.Proofs.Settings.Lines
import HotSwap.Proofs.Settings.Unquoted

/-!
# Numbers between braces

An object with one member is read alike by YAML and the relaxed notations: what is between the key
and the last brace is taken for what it is without quotes.
-/

namespace HotSwap

open Digits

variable {n : Int}

/-- A table with one scalar, if that is not refused. -/
theorem entry_single (origin : Option String) (key : String) (x : Except String Scalar) :
    (Node.table [(key, .scalar x)]).entry origin = x.map (Entry.single origin key) := by
  cases x with
  | error e => rfl
  | ok x => rfl

namespace Yaml

variable {word : List Char}

/-- A word between quotes is taken up to the second one. -/
theorem quotedText_word (plain : ∀ c ∈ word, c ≠ '\\' ∧ c ≠ '"') (t : List Char) :
    quotedText '"' (word ++ '"' :: ':' :: t) = some (word, ':' :: t) := by
  induction word with
  | nil =>
    rw [List.nil_append, quotedText]
    rfl
  | cons c word inductionHypothesis =>
    obtain ⟨⟨unescaped, inside⟩, others⟩ := List.forall_mem_cons.mp plain
    have rest := inductionHypothesis others
    have letter : ¬ (c = '\\' ∧ '"' = '"') := fun both => unescaped both.1
    cases word with
    | nil =>
      rw [List.nil_append] at rest
      rw [List.cons_append, List.nil_append, quotedText, if_neg letter, if_pos inside, rest]
      rfl
    | cons d word =>
      rw [List.cons_append, List.cons_append, quotedText, if_neg letter, if_pos inside,
        ← List.cons_append, rest]
      rfl

theorem quotedText_key (measure : Settings.Measure) (t : List Char) :
    quotedText '"' (measure.key.toList ++ '"' :: ':' :: t) =
      some (measure.key.toList, ':' :: t) := by
  have plain : measure.key.toList.all fun c => c ≠ '\\' ∧ c ≠ '"' := by
    cases measure with
    | port => decide
    | drainTimeout => decide
  apply quotedText_word
  intro c there
  exact of_decide_eq_true (List.all_eq_true.mp plain c there)

end Yaml

/-- The object that gives a key a number. -/
def Settings.Measure.object (measure : Settings.Measure) (n : Int) : String :=
  "\x7b\"" ++ measure.key ++ "\":" ++ toString n ++ "\x7d"

theorem toList_object (measure : Settings.Measure) (n : Int) :
    (measure.object n).toList =
      '\x7b' :: '"' :: (measure.key.toList ++ '"' :: ':' :: ((toString n).toList ++ ['\x7d'])) := by
  simp only [Settings.Measure.object, String.toList_append, List.append_assoc]
  rfl

namespace Relaxed

namespace Dialect

variable {d : Dialect} {s cs rest word : List Char} {c : Char}

theorem skip_shown (blank : c ∉ d.blanks) (slash : c ≠ '/') (s : List Char) (length : Nat) :
    d.skip length (c :: s) = c :: s := by
  cases length with
  | zero => rfl
  | succ length =>
    have kept : (c :: s).dropWhile (· ∈ d.blanks) = c :: s :=
      List.dropWhile_cons_of_neg (by simpa using blank)
    rw [skip, kept]
    split
    · next same =>
      cases same
      exact absurd rfl slash
    · next same =>
      cases same
      exact absurd rfl slash
    · rfl

/-- Neither blanks nor comments are where the text of an object goes on. -/
theorem skip_mark (mark : c = '"' ∨ c = ':' ∨ c = '\x7b' ∨ c = '\x7d') (s : List Char)
    (length : Nat) : d.skip length (c :: s) = c :: s := by
  apply skip_shown
  · cases d with
    | ron => rcases mark with rfl | rfl | rfl | rfl <;> decide
    | json5 => rcases mark with rfl | rfl | rfl | rfl <;> decide
  · rcases mark with rfl | rfl | rfl | rfl <;> decide

theorem skip_of_spells (spelled : Spells cs n) (rest : List Char) (length : Nat) :
    d.skip length (cs ++ rest) = cs ++ rest := by
  cases cs with
  | nil => exact absurd rfl spelled.ne_nil
  | cons c cs =>
    have blanks : d.blanks.all fun b => !(b == '-' || b == '+' || b.isDigit) := by
      cases d with
      | ron => rfl
      | json5 => rfl
    apply skip_shown
    · intro blank
      have shown := List.all_eq_true.mp blanks c blank
      rcases spelled.mem List.mem_cons_self with rfl | rfl | digit
      · cases shown
      · cases shown
      · rw [digit, Bool.or_true] at shown
        cases shown
    · exact spelled.ne List.mem_cons_self (by decide)

/-- A word between quotes is taken up to the second one. -/
theorem quoted?_word (plain : ∀ c ∈ word, c ≠ '\\' ∧ c ≠ '"' ∧ c ∉ d.unquoted) (t : List Char)
    {length : Nat} (enough : word.length < length) :
    d.quoted? '"' length (word ++ '"' :: t) = some (word, t) := by
  induction word generalizing length with
  | nil =>
    obtain ⟨length, rfl⟩ := Nat.exists_eq_add_one.mpr enough
    rw [List.nil_append, quoted?, if_pos rfl]
  | cons c word inductionHypothesis =>
    obtain ⟨⟨unescaped, inside, shown⟩, others⟩ := List.forall_mem_cons.mp plain
    obtain ⟨length, rfl⟩ := Nat.exists_eq_add_one.mpr (Nat.zero_lt_of_lt enough)
    rw [List.cons_append, quoted?, if_neg inside, if_neg unescaped, if_neg shown,
      inductionHypothesis others (Nat.lt_of_succ_lt_succ enough)]
    rfl

theorem text?_key (d : Dialect) (measure : Settings.Measure) (t : List Char) :
    d.text? ('"' :: (measure.key.toList ++ '"' :: t)) = some (measure.key.toList, t) := by
  have plain : measure.key.toList.all fun c => c ≠ '\\' ∧ c ≠ '"' ∧ c ∉ d.unquoted := by
    cases d with
    | ron =>
      cases measure with
      | port => decide
      | drainTimeout => decide
    | json5 =>
      cases measure with
      | port => decide
      | drainTimeout => decide
  rw [text?]
  apply quoted?_word
  · intro c there
    exact of_decide_eq_true (List.all_eq_true.mp plain c there)
  · rw [List.length_append]
    omega

theorem key?_key (d : Dialect) (measure : Settings.Measure) (t : List Char) :
    d.key? '\x7d' ('"' :: (measure.key.toList ++ '"' :: t)) = some (measure.key.toList, t) := by
  cases d with
  | ron => rw [key?, if_neg (by decide), text?_key]
  | json5 => rw [key?, text?_key, Option.some_or]

/-- No text starts with a sign or a digit. -/
theorem text?_of_spells (d : Dialect) (spelled : Spells cs n) (rest : List Char) :
    d.text? (cs ++ rest) = none := by
  cases cs with
  | nil => exact absurd rfl spelled.ne_nil
  | cons c cs =>
    have other {d : Char} : ¬ (d = '-' ∨ d = '+' ∨ d.isDigit) → c ≠ d :=
      spelled.ne List.mem_cons_self
    rw [List.cons_append]
    unfold text?
    split
    · next same =>
      cases same
      exact absurd rfl (other (by decide))
    · next same =>
      cases same
      exact absurd rfl (other (by decide))
    · next same =>
      cases same
      exact absurd rfl (other (by decide))
    · next same =>
      cases same
      exact absurd rfl (other (by decide))
    · rfl

theorem inWord_of_spells (d : Dialect) (spelled : Spells cs n) (there : c ∈ cs) : d.inWord c := by
  rw [inWord, inName, Bool.or_eq_true, Bool.or_eq_true]
  rcases spelled.mem there with rfl | rfl | digit
  · exact .inr (by decide)
  · exact .inr (by decide)
  · exact .inl (.inr digit)

theorem not_inWord_brace (d : Dialect) : d.inWord '\x7d' ≠ true := by
  cases d with
  | ron => decide
  | json5 => decide

end Dialect

open Dialect

variable {d : Dialect} {s cs rest : List Char} {c : Char}

/-- A number is taken up to the brace behind it. -/
theorem value_number (d : Dialect) (spelled : Spells cs n) (rest : List Char) (depth : Nat) :
    value d (depth + 1) (cs ++ '\x7d' :: rest) =
      (d.word? cs).map fun x => (.scalar x, '\x7d' :: rest) := by
  have word : (cs ++ '\x7d' :: rest).takeWhile d.inWord = cs := by
    rw [List.takeWhile_append_of_pos fun c there => d.inWord_of_spells spelled there]
    rw [List.takeWhile_cons_of_neg d.not_inWord_brace, List.append_nil]
  have behind : (cs ++ '\x7d' :: rest).drop cs.length = '\x7d' :: rest := List.drop_left
  have text := d.text?_of_spells spelled ('\x7d' :: rest)
  have brace := skip_mark (d := d) (c := '\x7d') (by simp) rest ('\x7d' :: rest).length
  rw [value, skip_of_spells spelled]
  cases cs with
  | nil => exact absurd rfl spelled.ne_nil
  | cons c cs =>
    have other {d : Char} : ¬ (d = '-' ∨ d = '+' ∨ d.isDigit) → c ≠ d :=
      spelled.ne List.mem_cons_self
    rw [List.cons_append] at word behind text ⊢
    split
    · next same =>
      cases same
      exact absurd rfl (other (by decide))
    · next same =>
      cases same
      exact absurd rfl (other (by decide))
    · rw [text]
      dsimp only
      rw [word, behind, brace]
      cases d with
      | ron => rfl
      | json5 => rfl

theorem pairs_object (d : Dialect) (measure : Settings.Measure) (spelled : Spells cs n)
    (depth : Nat) :
    pairs d '\x7d' (depth + 2)
        ('"' :: (measure.key.toList ++ '"' :: ':' :: (cs ++ ['\x7d']))) =
      (d.word? cs).map fun x => ([(measure.key, .scalar x)], []) := by
  have opens : ¬ ('"' :: (measure.key.toList ++ '"' :: ':' :: (cs ++ ['\x7d']))).head? =
      some '\x7d' := by
    rintro ⟨⟩
  rw [pairs, skip_mark (by simp)]
  dsimp only
  rw [if_neg opens, d.key?_key]
  dsimp only
  rw [skip_mark (by simp)]
  split
  · next same =>
    cases same
    rw [value_number d spelled]
    cases d.word? cs with
    | none => rfl
    | some x =>
      rw [Option.map_some]
      dsimp only
      rw [skip_mark (by simp), String.ofList_toList]
      rfl
  · next colon => exact (colon _ rfl).elim

theorem value_object (d : Dialect) (measure : Settings.Measure) (spelled : Spells cs n)
    (depth : Nat) :
    value d (depth + 3)
        ('\x7b' :: '"' :: (measure.key.toList ++ '"' :: ':' :: (cs ++ ['\x7d']))) =
      (d.word? cs).map fun x => (.table [(measure.key, .scalar x)], []) := by
  rw [value, skip_mark (by simp)]
  split
  · next same => cases same
  · next same =>
    cases same
    rw [pairs_object d measure spelled, Option.map_map]
    rfl
  · next brace => exact (brace _ rfl).elim

/-- A relaxed object holds its number, or is refused. -/
theorem read_object (d : Dialect) (measure : Settings.Measure) (origin : Option String) (n : Int) :
    read d origin (measure.object n) =
      match d.word? (toString n).toList with
      | none => .error "invalid document"
      | some x => x.map (Entry.single origin measure.key) := by
  have long : 3 ≤ 2 * (measure.object n).toList.length + 2 := by
    rw [toList_object, List.length_cons]
    omega
  obtain ⟨depth, enough⟩ := Nat.exists_eq_add_of_le' long
  rw [read]
  rw [enough, toList_object, value_object d measure (spells_toString n)]
  cases d.word? (toString n).toList with
  | none => rfl
  | some x =>
    rw [Option.map_some]
    dsimp only
    have done : d.skip 0 [] = [] := rfl
    rw [List.length_nil, if_pos done]
    exact entry_single origin measure.key x

end Relaxed

namespace Yaml

variable {s cs : List Char} {n : Int} {c : Char}

theorem quiet_object (measure : Settings.Measure) (spelled : Spells cs n)
    (there : c ∈ '\x7b' :: '"' :: (measure.key.toList ++ '"' :: ':' :: (cs ++ ['\x7d']))) :
    Quiet c := by
  have marks : Quiet '\x7b' ∧ Quiet '"' ∧ Quiet ':' ∧ Quiet '\x7d' := by decide
  simp only [List.mem_cons, List.mem_append, List.not_mem_nil, or_false] at there
  rcases there with rfl | rfl | key | rfl | rfl | value | rfl
  · exact marks.1
  · exact marks.2.1
  · exact quiet_key measure key
  · exact marks.2.1
  · exact marks.2.2.1
  · exact quiet_of_spells spelled value
  · exact marks.2.2.2

/-- Without a comment nothing is left out. -/
theorem uncommented_quiet (quiet : ∀ c ∈ s, Quiet c) (quote : Option Char) (before : Char) :
    uncommented quote before s = s := by
  induction s generalizing quote before with
  | nil => rw [uncommented]
  | cons c s inductionHypothesis =>
    obtain ⟨here, others⟩ := List.forall_mem_cons.mp quiet
    cases quote with
    | none =>
      rw [uncommented, if_neg fun comment => here.2.2 comment.1, inductionHypothesis others]
    | some q => rw [uncommented, inductionHypothesis others]

theorem lineOf_quiet (quiet : ∀ c ∈ s, Quiet c) : lineOf s = ⟨0, s⟩ := by
  have indent : s.takeWhile (· = ' ') = [] := by
    cases s with
    | nil => rfl
    | cons c s =>
      have shown : c ≠ ' ' := by
        rintro rfl
        exact absurd (quiet ' ' List.mem_cons_self) (by decide)
      rw [List.takeWhile_cons_of_neg]
      simpa using shown
  rw [lineOf, indent, List.length_nil, List.drop_zero, uncommented_quiet quiet, trim_quiet quiet]

/-- A plain number ends at the brace behind it. -/
theorem flowPlain_number (plain : ∀ c ∈ cs, c = '-' ∨ c = '+' ∨ c.isDigit) (rest : List Char) :
    flowPlain (cs ++ '\x7d' :: rest) = (cs, '\x7d' :: rest) := by
  induction cs with
  | nil =>
    rw [List.nil_append, flowPlain]
    · rfl
    · rintro _ _ ⟨⟩
  | cons c cs inductionHypothesis =>
    obtain ⟨here, others⟩ := List.forall_mem_cons.mp plain
    have other {d : Char} (mark : ¬ (d = '-' ∨ d = '+' ∨ d.isDigit)) : c ≠ d := by
      rintro rfl
      exact mark here
    have inside : isFlowMark c = false := by
      simp only [isFlowMark, List.mem_cons, List.not_mem_nil, or_false, decide_eq_false_iff_not,
        not_or]
      exact ⟨other (by decide), other (by decide), other (by decide), other (by decide),
        other (by decide)⟩
    rw [List.cons_append, flowPlain]
    · rw [inside, if_neg Bool.false_ne_true, inductionHypothesis others]
    · rintro _ _ rfl
      exact absurd rfl (other (by decide))

theorem flow_number (spelled : Spells cs n) (rest : List Char) (depth : Nat) :
    flow (depth + 1) (cs ++ '\x7d' :: rest) = some (.scalar (plain cs), '\x7d' :: rest) := by
  have quiet : ∀ c ∈ cs, Quiet c := fun c there => quiet_of_spells spelled there
  have taken := flowPlain_number (fun c there => spelled.mem there) rest
  cases cs with
  | nil => exact absurd rfl spelled.ne_nil
  | cons c cs =>
    have other {d : Char} : ¬ (d = '-' ∨ d = '+' ∨ d.isDigit) → c ≠ d :=
      spelled.ne List.mem_cons_self
    have shown : isBlank c ≠ true := by
      rw [(quiet c List.mem_cons_self).1]
      exact Bool.false_ne_true
    rw [List.cons_append] at taken ⊢
    rw [flow, List.dropWhile_cons_of_neg shown]
    split
    · next same =>
      cases same
      exact absurd rfl (other (by decide))
    · next same =>
      cases same
      exact absurd rfl (other (by decide))
    · next same =>
      cases same
      exact absurd rfl (other (by decide))
    · next same =>
      cases same
      exact absurd rfl (other (by decide))
    · rw [taken]
      dsimp only
      rw [trim_quiet quiet]

theorem keyText_key (measure : Settings.Measure) (t : List Char) :
    keyText ('"' :: (measure.key.toList ++ '"' :: ':' :: t)) = some (measure.key, ':' :: t) := by
  change (quotedText '"' _).map (fun t => (String.ofList t.1, t.2)) = _
  rw [quotedText_key, Option.map_some, String.ofList_toList]

theorem flowPairs_object (measure : Settings.Measure) (spelled : Spells cs n) (depth : Nat) :
    flowPairs (depth + 2) ('"' :: (measure.key.toList ++ '"' :: ':' :: (cs ++ ['\x7d']))) =
      some ([(measure.key, .scalar (plain cs))], []) := by
  rw [flowPairs, List.dropWhile_cons_of_neg (by decide)]
  split
  · next same => cases same
  · rw [keyText_key]
    dsimp only
    rw [List.dropWhile_cons_of_neg (by decide)]
    split
    · next same =>
      cases same
      rw [flow_number spelled]
      rfl
    · next colon => exact (colon _ rfl).elim

theorem flow_object (measure : Settings.Measure) (spelled : Spells cs n) (depth : Nat) :
    flow (depth + 3)
        ('\x7b' :: '"' :: (measure.key.toList ++ '"' :: ':' :: (cs ++ ['\x7d']))) =
      some (.table [(measure.key, .scalar (plain cs))], []) := by
  rw [flow, List.dropWhile_cons_of_neg (by decide)]
  split
  · next same => cases same
  · next same =>
    cases same
    rw [flowPairs_object measure spelled]
    rfl
  · next same => cases same
  · next same => cases same
  · next brace _ _ => exact (brace _ rfl).elim

/-- The one line of a flow mapping. -/
theorem linesOf_object (measure : Settings.Measure) (n : Int) :
    linesOf (measure.object n) = [⟨0, (measure.object n).toList⟩] := by
  have quiet : ∀ c ∈ (measure.object n).toList, Quiet c := by
    intro c there
    rw [toList_object] at there
    exact quiet_object measure (spells_toString n) there
  rw [linesOf, splitLines_quiet quiet, List.map_singleton, lineOf_quiet quiet]
  apply List.filter_cons_of_pos
  rw [toList_object]
  rfl

theorem block_inline {v : Node} (known : inline ('\x7b' :: s) = some v) (depth : Nat) :
    block (depth + 1) [⟨0, '\x7b' :: s⟩] = some (v, []) := by
  rw [block]
  split
  · next same => cases same
  · next same => cases same
  · rw [known, if_neg (by simp)]
    rfl

/-- A flow mapping holds its number. -/
theorem read_object (measure : Settings.Measure) (origin : Option String) (n : Int) :
    read origin (measure.object n) =
      (plain (toString n).toList).map (Entry.single origin measure.key) := by
  have object : inline ('\x7b' :: '"' ::
        (measure.key.toList ++ '"' :: ':' :: ((toString n).toList ++ ['\x7d']))) =
      some (.table [(measure.key, .scalar (plain (toString n).toList))]) := by
    unfold inline
    rw [List.length_cons, List.length_cons, flow_object measure (spells_toString n)]
    rfl
  rw [read, linesOf_object, toList_object]
  dsimp only
  rw [block_inline object]
  exact entry_single origin measure.key _

end Yaml

end HotSwap

import HotSwap.Json.Printer
import HotSwap.Json.Reader

/-!
# What a scan takes

What a scan takes off the front of an input, and what it leaves, follows from what its parts do one
after the other.
-/

namespace HotSwap.Json

namespace Scan

variable {α β : Type} {x : Scan α} {f : α → Scan β} {s rest tail : Bytes} {a : α} {b : β}

/-- The scan takes `a` off the front of `s` and leaves `rest`. -/
def Yields (x : Scan α) (s : Bytes) (a : α) (rest : Bytes) : Prop :=
  ∃ le, x s = .ok ⟨a, rest, le⟩

namespace Yields

theorem pure (a : α) (s : Bytes) : (Pure.pure a : Scan α).Yields s a s := ⟨Nat.le_refl _, rfl⟩

theorem not_error {e : Fault} (failed : x s = .error e) : ¬ x.Yields s a rest := by
  rintro ⟨le, taken⟩
  cases failed.symm.trans taken

theorem bind (first : x.Yields s a rest) (second : (f a).Yields rest b tail) :
    (x >>= f).Yields s b tail := by
  obtain ⟨le, taken⟩ := first
  obtain ⟨le', taken'⟩ := second
  refine ⟨Nat.le_trans le' le, ?_⟩
  simp only [Bind.bind, taken, taken']

theorem drop (c : UInt8) (s : Bytes) : Scan.drop.Yields (c :: s) () s := ⟨by simp, rfl⟩

theorem ofPartial {f : Bytes → Except Fault (α × Bytes)}
    {h : ∀ s a r, f s = .ok (a, r) → r.length ≤ s.length} (taken : f s = .ok (a, rest)) :
    (Scan.ofPartial f h).Yields s a rest := by
  refine ⟨h s a rest taken, ?_⟩
  unfold Scan.ofPartial
  split
  · next failed => cases failed.symm.trans taken
  · next same =>
    cases same.symm.trans taken
    rfl

end Yields

/-! What a scan yields, read off its parts. -/

@[simp] theorem yields_pure_iff {a' : α} :
    (Pure.pure a : Scan α).Yields s a' rest ↔ a' = a ∧ rest = s := by
  constructor
  · rintro ⟨le, taken⟩
    cases taken
    exact ⟨rfl, rfl⟩
  · rintro ⟨rfl, rfl⟩
    exact .pure a' rest

theorem yields_bind_iff :
    (x >>= f).Yields s b tail ↔ ∃ a rest, x.Yields s a rest ∧ (f a).Yields rest b tail := by
  constructor
  · rintro ⟨le, taken⟩
    simp only [Bind.bind] at taken
    split at taken
    · cases taken
    · next t first =>
      split at taken
      · cases taken
      · next u second =>
        cases taken
        exact ⟨t.value, t.rest, ⟨t.le, first⟩, u.le, second⟩
  · rintro ⟨a, rest, first, second⟩
    exact first.bind second

@[simp] theorem not_yields_fail {cause : Cause} : ¬ (fail cause : Scan α).Yields s a rest :=
  Yields.not_error rfl

@[simp] theorem not_yields_failNext {cause : Cause} :
    ¬ (failNext cause : Scan α).Yields s a rest :=
  Yields.not_error rfl

@[simp] theorem not_yields_reject {cause : Cause} : ¬ (reject cause : Scan α).Yields s a rest :=
  Yields.not_error rfl

theorem yields_ofFunction_iff {g : Bytes → α × Bytes} {h : ∀ s, (g s).2.length ≤ s.length} :
    (ofFunction g h).Yields s a rest ↔ a = (g s).1 ∧ rest = (g s).2 := by
  constructor
  · rintro ⟨le, taken⟩
    cases taken
    exact ⟨rfl, rfl⟩
  · rintro ⟨rfl, rfl⟩
    exact ⟨h s, rfl⟩

theorem yields_ofPartial_iff {g : Bytes → Except Fault (α × Bytes)}
    {h : ∀ s a r, g s = .ok (a, r) → r.length ≤ s.length} :
    (Scan.ofPartial g h).Yields s a rest ↔ g s = .ok (a, rest) := by
  refine ⟨fun ⟨le, taken⟩ => ?_, .ofPartial⟩
  unfold Scan.ofPartial at taken
  split at taken
  · cases taken
  · next same =>
    cases taken
    exact same

/-- What a scan takes is determined. -/
theorem Yields.unique {a' : α} {rest' : Bytes} (yields : x.Yields s a rest)
    (yields' : x.Yields s a' rest') : a' = a ∧ rest' = rest := by
  obtain ⟨le, taken⟩ := yields
  obtain ⟨le', taken'⟩ := yields'
  cases taken.symm.trans taken'
  exact ⟨rfl, rfl⟩

theorem Yields.iff {a' : α} {rest' : Bytes} (yields : x.Yields s a rest) :
    x.Yields s a' rest' ↔ a' = a ∧ rest' = rest :=
  ⟨yields.unique, fun ⟨same, same'⟩ => same ▸ same' ▸ yields⟩

/-- What follows goes on from what a scan leaves. -/
theorem Yields.bind_iff (first : x.Yields s a rest) :
    (x >>= f).Yields s b tail ↔ (f a).Yields rest b tail := by
  rw [yields_bind_iff]
  constructor
  · rintro ⟨a', rest', first', second⟩
    obtain ⟨rfl, rfl⟩ := first.unique first'
    exact second
  · exact fun second => ⟨a, rest, first, second⟩

@[simp] theorem yields_pure_bind_iff :
    ((Pure.pure a : Scan α) >>= f).Yields s b tail ↔ (f a).Yields s b tail :=
  (Yields.pure a s).bind_iff

theorem yields_drop (s : Bytes) : Scan.drop.Yields s () (s.drop 1) := ⟨by simp, rfl⟩

theorem yields_peek (s : Bytes) : peek.Yields s s.head? s := ⟨Nat.le_refl _, rfl⟩

theorem yields_next (s : Bytes) : next.Yields s s.head? (s.drop 1) := ⟨by simp, rfl⟩

/-- Looking goes to the next byte that is not blank. -/
theorem yields_look (s : Bytes) : look.Yields s (skipBlank s).head? (skipBlank s) :=
  ⟨length_skipBlank_le s, rfl⟩

@[simp] theorem yields_drop_bind_iff {f : Unit → Scan β} :
    (Scan.drop >>= f).Yields s b tail ↔ (f ()).Yields (s.drop 1) b tail :=
  (yields_drop s).bind_iff

@[simp] theorem yields_peek_bind_iff {f : Option UInt8 → Scan β} :
    (peek >>= f).Yields s b tail ↔ (f s.head?).Yields s b tail :=
  (yields_peek s).bind_iff

@[simp] theorem yields_next_bind_iff {f : Option UInt8 → Scan β} :
    (next >>= f).Yields s b tail ↔ (f s.head?).Yields (s.drop 1) b tail :=
  (yields_next s).bind_iff

theorem yields_look_bind_iff {f : Option UInt8 → Scan β} :
    (look >>= f).Yields s b tail ↔ (f (skipBlank s).head?).Yields (skipBlank s) b tail :=
  (yields_look s).bind_iff

theorem yields_word_iff {w : Bytes} {u : Unit} : (word w).Yields s u rest ↔ s = w ++ rest := by
  induction w generalizing s with
  | nil =>
    rw [word, yields_pure_iff, List.nil_append]
    exact ⟨fun same => same.2.symm, fun same => ⟨rfl, same.symm⟩⟩
  | cons b w inductionHypothesis =>
    rw [word, yields_next_bind_iff]
    cases s with
    | nil => simp
    | cons c s =>
      by_cases same : c = b
      · simp [same, inductionHypothesis]
      · simp [same]

end Scan

/-! Text between quotes. -/

namespace Literal

variable {read rest tail c : Bytes} {b : UInt8}

theorem content_escaped (stands : escape rest = .ok (c, tail)) :
    content read (92 :: rest) = content (c.reverse ++ read) tail := by
  rw [content]
  simp only [show ¬ (92 : UInt8) = 34 by decide, if_false, if_true]
  split
  · next failed => cases failed.symm.trans stands
  · next same =>
    cases same.symm.trans stands
    rfl

theorem content_letter {l : UInt8} (stands : letter? l = some b) :
    content read (92 :: l :: rest) = content (b :: read) rest := by
  have escaped : escape (l :: rest) = .ok ([b], rest) := by simp only [escape, stands]
  exact content_escaped escaped

theorem content_plain (unquoted : b ≠ 34) (unescaped : b ≠ 92) (shown : ¬ b < 32) :
    content read (b :: rest) = content (b :: read) rest := by
  rw [content, if_neg unquoted, if_neg unescaped, if_neg shown]

theorem hexDigit?_hexByte : ∀ n < 16, Bytes.hexDigit? (hexByte n) = some n := by decide

theorem ofText_control : ∀ n < 32, Bytes.ofText (Char.ofNat n).toString = [n.toUInt8] := by
  decide +kernel

/-- A control character is read back from the number that its escape spells. -/
theorem escape_control (control : b < 32) (rest : Bytes) :
    escape (117 :: 48 :: 48 :: hexByte (b.toNat / 16) :: hexByte (b.toNat % 16) :: rest) =
      .ok ([b], rest) := by
  have small : b.toNat < 32 := UInt8.lt_iff_toNat_lt.mp control
  have first := hexDigit?_hexByte (b.toNat / 16) (by omega)
  have second := hexDigit?_hexByte (b.toNat % 16) (by omega)
  have number : ((0 * 16 + 0) * 16 + b.toNat / 16) * 16 + b.toNat % 16 = b.toNat := by omega
  have spelled : hexFour (48 :: 48 :: hexByte (b.toNat / 16) :: hexByte (b.toNat % 16) :: rest) =
      .ok (b.toNat, rest) := by
    simp only [hexFour, show Bytes.hexDigit? 48 = some 0 from rfl, first, second, number]
  have untrailing : ¬ IsTrail b.toNat := fun trails => by
    have := trails.1
    omega
  have unleading : ¬ IsLead b.toNat := fun leads => by
    have := leads.1
    omega
  have same : b.toNat.toUInt8 = b := UInt8.ofNat_toNat
  simp only [escape, show letter? 117 = none from rfl, codePoint, spelled, if_neg untrailing,
    if_neg unleading, if_true, ofText_control _ small, same]

/-- What is written for a byte of text is read back as the byte. -/
theorem content_escapeByte (read : Bytes) (b : UInt8) (rest : Bytes) :
    content read (escapeByte b ++ rest) = content (b :: read) rest := by
  unfold escapeByte
  -- the quote, the backslash and five control characters have a letter of their own
  iterate 7
    split
    · next same =>
      subst same
      exact content_letter rfl
  split
  · next control => exact content_escaped (escape_control control rest)
  · next unquoted unescaped _ _ _ _ _ shown => exact content_plain unquoted unescaped shown

theorem content_written (bs read tail : Bytes) :
    content read (bs.foldr (fun b r => escapeByte b ++ r) (34 :: tail)) =
      spelled (bs.reverse ++ read) tail := by
  induction bs generalizing read with
  | nil => rw [List.foldr_nil, content, if_pos rfl, List.reverse_nil, List.nil_append]
  | cons b bs inductionHypothesis =>
    rw [List.foldr_cons, content_escapeByte, inductionHypothesis, List.reverse_cons,
      List.append_assoc, List.singleton_append]

end Literal

theorem text?_ofText (s : String) : Bytes.text? (Bytes.ofText s) = some s :=
  dif_pos s.isValidUTF8

namespace Scan

/-- What is written of a text behind its opening quote is read back as the text. -/
theorem yields_text (s : String) (tail : Bytes) :
    text.Yields ((Bytes.ofText s).foldr (fun b r => escapeByte b ++ r) (34 :: tail)) s tail := by
  refine .ofPartial ?_
  rw [Literal.literal, Literal.content_written, List.append_nil, Literal.spelled,
    List.reverse_reverse, text?_ofText]

end Scan

end HotSwap.Json

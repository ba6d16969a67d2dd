import HotSwap.Proofs.Json.Grammar
import HotSwap.Proofs.Json.Scanning

/-!
# Which texts are read

Text behind its opening quote is read if it is spelled by glyphs that stand for a text, and passed
over if it is spelled by glyphs at all.
-/

namespace HotSwap.Json

open Glyph

namespace Literal

variable {s rest tail c : Bytes} {n : Nat} {b : UInt8} {t : String}

/-- The number that four hexadecimal digits spell is read digit by digit. -/
theorem hexFour_eq_ok_iff :
    hexFour s = .ok (n, rest) ↔ ∃ digits, codeUnit? digits = some n ∧ s = digits ++ rest := by
  constructor
  · intro read
    unfold hexFour at read
    split at read
    · next a b c d rest =>
      split at read
      · next w x y z first second third fourth =>
        cases read
        refine ⟨[a, b, c, d], ?_, rfl⟩
        simp [codeUnit?, List.foldlM, first, second, third, fourth]
        omega
      · cases read
    · cases read
  · rintro ⟨digits, spells, rfl⟩
    unfold codeUnit? at spells
    split at spells
    · next four =>
      obtain ⟨a, b, c, d, rfl⟩ : ∃ a b c d, digits = [a, b, c, d] := by
        match digits, four with
        | [a, b, c, d], _ => exact ⟨a, b, c, d, rfl⟩
      simp only [List.foldlM, Option.bind_eq_bind, Option.bind_eq_some_iff,
        Option.map_eq_some_iff, Option.pure_def, Option.some.injEq] at spells
      obtain ⟨_, ⟨w, first, rfl⟩, _, ⟨x, second, rfl⟩, _, ⟨y, third, rfl⟩, _, ⟨z, fourth, rfl⟩,
        rfl⟩ := spells
      simp only [hexFour, List.cons_append, List.nil_append, first, second, third, fourth]
      congr 2
      omega
    · cases spells

variable {digits digits' : Bytes} {m : Nat} {gs : List Glyph}

/-- A code unit that is no surrogate is a character. -/
theorem decoded?_unit {spells : codeUnit? digits = some n} (untrailing : ¬ IsTrail n)
    (unleading : ¬ IsLead n) :
    decoded? (.code digits n spells :: gs) =
      (decoded? gs).map (Bytes.ofText (Char.ofNat n).toString ++ ·) := by
  rw [decoded?.eq_def]
  simp only [if_neg untrailing, if_neg unleading]

theorem decoded?_pair {spells : codeUnit? digits = some n} {spells' : codeUnit? digits' = some m}
    (untrailing : ¬ IsTrail n) (leads : IsLead n) (trails : IsTrail m) :
    decoded? (.code digits n spells :: .code digits' m spells' :: gs) =
      (decoded? gs).map (Bytes.ofText (paired n m).toString ++ ·) := by
  rw [decoded?, if_neg untrailing, if_pos leads, if_pos trails]

theorem codePoint_unit (spells : codeUnit? digits = some n) (untrailing : ¬ IsTrail n)
    (unleading : ¬ IsLead n) (rest : Bytes) :
    codePoint (digits ++ rest) = .ok (Char.ofNat n, rest) := by
  simp only [codePoint, hexFour_eq_ok_iff.mpr ⟨digits, spells, rfl⟩, if_neg untrailing,
    if_neg unleading]

theorem codePoint_pair (spells : codeUnit? digits = some n) (spells' : codeUnit? digits' = some m)
    (untrailing : ¬ IsTrail n) (leads : IsLead n) (trails : IsTrail m) (rest : Bytes) :
    codePoint (digits ++ 92 :: 117 :: (digits' ++ rest)) = .ok (paired n m, rest) := by
  simp only [codePoint, hexFour_eq_ok_iff.mpr ⟨digits, spells, rfl⟩, if_neg untrailing,
    if_pos leads, trail, hexFour_eq_ok_iff.mpr ⟨digits', spells', rfl⟩, if_pos trails, paired]

theorem escape_code {char : Char} (read : codePoint s = .ok (char, rest)) :
    escape (117 :: s) = .ok (Bytes.ofText char.toString, rest) := by
  simp only [escape, show letter? 117 = none from rfl, if_true, read]

/-- The glyphs stand for the bytes, whatever follows them. -/
def Stands (gs : List Glyph) (c : Bytes) : Prop :=
  ∀ later bs, decoded? later = some bs → decoded? (gs ++ later) = some (c ++ bs)

/-- A code point is one escape, or two that are a pair of surrogates. -/
theorem glyphs_of_codePoint {char : Char} (read : codePoint s = .ok (char, rest)) :
    ∃ gs, 92 :: 117 :: s = spell gs ++ rest ∧ Stands gs (Bytes.ofText char.toString) := by
  unfold codePoint at read
  split at read
  · cases read
  · next n mid first =>
    obtain ⟨digits, spells, rfl⟩ := hexFour_eq_ok_iff.mp first
    split at read
    · cases read
    · next untrailing =>
      split at read
      · next leads =>
        unfold trail at read
        split at read
        case h_3 =>
          split at read
          · cases read
          · next m mid' second =>
            obtain ⟨digits', spells', rfl⟩ := hexFour_eq_ok_iff.mp second
            split at read
            · next trails =>
              simp only [Except.ok.injEq, Prod.mk.injEq] at read
              obtain ⟨rfl, rfl⟩ := read
              refine ⟨[.code digits n spells, .code digits' m spells'], ?_, ?_⟩
              · simp [spell, Glyph.bytes]
              · intro later bs known
                exact (decoded?_pair untrailing leads trails).trans (congrArg (Option.map _) known)
            · cases read
        all_goals cases read
      · next unleading =>
        cases read
        refine ⟨[.code digits n spells], by simp [spell, Glyph.bytes], fun later bs known => ?_⟩
        exact (decoded?_unit untrailing unleading).trans (congrArg (Option.map _) known)

/-- An escape behind its backslash is a letter or a code point. -/
theorem glyphs_of_escape (stands : escape s = .ok (c, rest)) :
    ∃ gs, 92 :: s = spell gs ++ rest ∧ Stands gs c := by
  unfold escape at stands
  split at stands
  · cases stands
  · next l s =>
    split at stands
    · next b isLetter =>
      cases stands
      exact ⟨[.letter l b isLetter], rfl, fun later bs known => by simp [decoded?, known]⟩
    · split at stands
      · next code =>
        subst code
        split at stands
        · cases stands
        · next char rest' read =>
          cases stands
          exact glyphs_of_codePoint read
      · cases stands

theorem glyphs_of_content {read : Bytes} (known : content read s = .ok (t, rest)) :
    ∃ gs bs, s = spell gs ++ 34 :: rest ∧ decoded? gs = some bs ∧
      Bytes.text? (read.reverse ++ bs) = some t := by
  fun_induction content read s with
  | case2 =>
    unfold spelled at known
    split at known
    · next text =>
      cases known
      exact ⟨[], [], rfl, rfl, by rw [List.append_nil]; exact text⟩
    · cases known
  | case4 read s c s' escaped _ inductionHypothesis =>
    obtain ⟨gs, bs, rfl, decoded, text⟩ := inductionHypothesis known
    obtain ⟨first, split, stands⟩ := glyphs_of_escape escaped
    refine ⟨first ++ gs, c ++ bs, ?_, stands gs bs decoded, by simpa using text⟩
    rw [split, spell, spell, spell, List.flatMap_append, List.append_assoc]
  | case6 read b s unquoted unescaped shown inductionHypothesis =>
    obtain ⟨gs, bs, rfl, decoded, text⟩ := inductionHypothesis known
    refine ⟨.plain b shown unquoted unescaped :: gs, b :: bs, rfl, by simp [decoded?, decoded], ?_⟩
    simpa using text
  | _ => simp [fault] at known

theorem content_glyphs {bs : Bytes} (decoded : decoded? gs = some bs) (read rest : Bytes) :
    content read (spell gs ++ 34 :: rest) = spelled (bs.reverse ++ read) rest := by
  fun_induction decoded? gs generalizing bs read with
  | case1 =>
    cases decoded
    rw [spell, List.flatMap_nil, List.nil_append, content, if_pos rfl, List.reverse_nil,
      List.nil_append]
  | case2 b shown unquoted unescaped gs inductionHypothesis =>
    obtain ⟨bs, later, rfl⟩ := Option.map_eq_some_iff.mp decoded
    change content read (b :: (spell gs ++ 34 :: rest)) = _
    rw [content_plain unquoted unescaped shown, inductionHypothesis later, List.reverse_cons,
      List.append_assoc, List.singleton_append]
  | case3 l b stands gs inductionHypothesis =>
    obtain ⟨bs, later, rfl⟩ := Option.map_eq_some_iff.mp decoded
    change content read (92 :: l :: (spell gs ++ 34 :: rest)) = _
    rw [content_letter stands, inductionHypothesis later, List.reverse_cons,
      List.append_assoc, List.singleton_append]
  | case5 digits n spells untrailing leads digits' m spells' gs trails inductionHypothesis =>
    obtain ⟨bs, later, rfl⟩ := Option.map_eq_some_iff.mp decoded
    have pair := codePoint_pair spells spells' untrailing leads trails (spell gs ++ 34 :: rest)
    have spelling : spell (.code digits n spells :: .code digits' m spells' :: gs) ++ 34 :: rest =
        92 :: 117 :: (digits ++ 92 :: 117 :: (digits' ++ (spell gs ++ 34 :: rest))) := by
      simp [spell, Glyph.bytes]
    rw [spelling, content_escaped (escape_code pair), inductionHypothesis later,
      List.reverse_append, List.append_assoc]
  | case8 digits n spells gs untrailing unleading inductionHypothesis =>
    obtain ⟨bs, later, rfl⟩ := Option.map_eq_some_iff.mp decoded
    have alone := codePoint_unit spells untrailing unleading (spell gs ++ 34 :: rest)
    have spelling : spell (.code digits n spells :: gs) ++ 34 :: rest =
        92 :: 117 :: (digits ++ (spell gs ++ 34 :: rest)) := by
      simp [spell, Glyph.bytes]
    rw [spelling, content_escaped (escape_code alone), inductionHypothesis later,
      List.reverse_append, List.append_assoc]
  | _ => cases decoded

theorem literal_eq_ok_iff :
    literal s = .ok (t, rest) ↔ ∃ gs, s = spell gs ++ 34 :: rest ∧ text? gs = some t := by
  have unplaced : literal s = .ok (t, rest) ↔ content [] s = .ok (t, rest) := by
    unfold literal
    split <;> simp_all
  rw [unplaced]
  constructor
  · intro read
    obtain ⟨gs, bs, split, decoded, text⟩ := glyphs_of_content read
    exact ⟨gs, split, Option.bind_eq_some_iff.mpr ⟨bs, decoded, text⟩⟩
  · rintro ⟨gs, rfl, text⟩
    obtain ⟨bs, decoded, text⟩ := Option.bind_eq_some_iff.mp text
    rw [content_glyphs decoded, List.append_nil, spelled, List.reverse_reverse, text]

theorem passContent_eq_ok_iff :
    passContent s = .ok rest ↔ ∃ gs, s = spell gs ++ 34 :: rest := by
  constructor
  · intro passed
    fun_induction passContent s with
    | case2 s =>
      cases passed
      exact ⟨[], rfl⟩
    | case4 l s isLetter _ inductionHypothesis =>
      obtain ⟨gs, rfl⟩ := inductionHypothesis passed
      obtain ⟨b, stands⟩ := Option.isSome_iff_exists.mp isLetter
      exact ⟨.letter l b stands :: gs, rfl⟩
    | case6 s n mid read _ _ inductionHypothesis =>
      obtain ⟨gs, rfl⟩ := inductionHypothesis passed
      obtain ⟨digits, spells, rfl⟩ := hexFour_eq_ok_iff.mp read
      exact ⟨.code digits n spells :: gs, by simp [spell, Glyph.bytes]⟩
    | case9 b s unquoted unescaped shown inductionHypothesis =>
      obtain ⟨gs, rfl⟩ := inductionHypothesis passed
      exact ⟨.plain b shown unquoted unescaped :: gs, rfl⟩
    | _ => simp [fault] at passed
  · rintro ⟨gs, rfl⟩
    induction gs with
    | nil => rw [spell, List.flatMap_nil, List.nil_append, passContent.eq_def]; rfl
    | cons g gs inductionHypothesis =>
      cases g with
      | plain b shown unquoted unescaped =>
        change passContent (b :: (spell gs ++ 34 :: rest)) = _
        rw [passContent.eq_def]
        simp only [if_neg unquoted, if_neg unescaped, if_neg shown, inductionHypothesis]
      | letter l b stands =>
        change passContent (92 :: l :: (spell gs ++ 34 :: rest)) = _
        rw [passContent.eq_def]
        simp [stands, inductionHypothesis]
      | code digits n spells =>
        have spelling : spell (.code digits n spells :: gs) ++ 34 :: rest =
            92 :: 117 :: (digits ++ (spell gs ++ 34 :: rest)) := by
          simp [spell, Glyph.bytes]
        have read : hexFour (digits ++ (spell gs ++ 34 :: rest)) = .ok (n, _) :=
          hexFour_eq_ok_iff.mpr ⟨digits, spells, rfl⟩
        rw [spelling, passContent.eq_def]
        simp only [show ¬ (92 : UInt8) = 34 by decide, if_false, if_true,
          show letter? 117 = none from rfl, Option.isSome_none, Bool.false_eq_true]
        split
        · next failed => cases failed.symm.trans read
        · next same =>
          cases same.symm.trans read
          exact inductionHypothesis

end Literal

namespace Scan

variable {s rest : Bytes}

theorem yields_text_iff {t : String} :
    text.Yields s t rest ↔ ∃ gs, s = spell gs ++ 34 :: rest ∧ text? gs = some t :=
  yields_ofPartial_iff.trans Literal.literal_eq_ok_iff

theorem yields_key_iff {t : String} :
    key.Yields s t rest ↔ ∃ gs, s.drop 1 = spell gs ++ 34 :: rest ∧ text? gs = some t := by
  rw [key, yields_drop_bind_iff, yields_text_iff]

theorem yields_passText_iff {u : Unit} :
    passText.Yields s u rest ↔ ∃ gs, s = spell gs ++ 34 :: rest := by
  refine yields_ofPartial_iff.trans (Iff.trans ?_ Literal.passContent_eq_ok_iff)
  cases Literal.passContent s <;> simp [Except.map]

/-- What is written of a text are glyphs that stand for it. -/
theorem exists_glyphs (t : String) (tail : Bytes) :
    ∃ gs, writeText t tail = Glyph.quoted gs ++ tail ∧ text? gs = some t := by
  obtain ⟨gs, split, stands⟩ := yields_text_iff.mp (yields_text t tail)
  exact ⟨gs, by rw [writeText, split, Glyph.quoted]; simp, stands⟩

end Scan

end HotSwap.Json

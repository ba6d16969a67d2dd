import HotSwap.Json.Scan

/-!
# Text between quotes

Text is read up to its closing quote. An escape stands for one character; a character beyond the
first plane may be written as two escapes, a leading and a trailing surrogate.
-/

namespace HotSwap.Json

namespace Literal

def IsTrail (n : Nat) : Prop := 0xDC00 ≤ n ∧ n < 0xE000

def IsLead (n : Nat) : Prop := 0xD800 ≤ n ∧ n < 0xDC00

instance (n : Nat) : Decidable (IsTrail n) := inferInstanceAs (Decidable (_ ∧ _))

instance (n : Nat) : Decidable (IsLead n) := inferInstanceAs (Decidable (_ ∧ _))

def fault {α : Type} (c : Cause) (rest : Bytes) : Except Fault α := .error ⟨c, rest, true⟩

/-- The number that four hexadecimal digits spell. -/
def hexFour : Bytes → Except Fault (Nat × Bytes)
  | a :: b :: c :: d :: rest =>
    match Bytes.hexDigit? a, Bytes.hexDigit? b, Bytes.hexDigit? c, Bytes.hexDigit? d with
    | some w, some x, some y, some z => .ok (((w * 16 + x) * 16 + y) * 16 + z, rest)
    | _, _, _, _ => fault .badEscape rest
  | _ => fault .unfinishedText []

/-- The trailing surrogate that has to follow a leading one. -/
def trail (lead : Nat) : Bytes → Except Fault (Char × Bytes)
  | [] => fault .unfinishedText []
  | 92 :: [] => fault .unfinishedText []
  | 92 :: 117 :: rest =>
    match hexFour rest with
    | .error e => .error e
    | .ok (n, rest) =>
      if IsTrail n then .ok (Char.ofNat (0x10000 + (lead - 0xD800) * 0x400 + (n - 0xDC00)), rest)
      else fault .strayTrail rest
  | 92 :: _ :: rest => fault .strayLead rest
  | _ :: rest => fault .strayLead rest

def codePoint (s : Bytes) : Except Fault (Char × Bytes) :=
  match hexFour s with
  | .error e => .error e
  | .ok (n, rest) =>
    if IsTrail n then fault .strayTrail rest
    else if IsLead n then trail n rest
    else .ok (Char.ofNat n, rest)

/-- The byte that a one-letter escape stands for. -/
def letter? (b : UInt8) : Option UInt8 :=
  if b = 34 ∨ b = 92 ∨ b = 47 then some b
  else if b = 98 then some 8
  else if b = 102 then some 12
  else if b = 110 then some 10
  else if b = 114 then some 13
  else if b = 116 then some 9
  else none

/-- What an escape stands for, read behind its backslash. -/
def escape : Bytes → Except Fault (Bytes × Bytes)
  | [] => fault .unfinishedText []
  | b :: rest =>
    match letter? b with
    | some c => .ok ([c], rest)
    | none =>
      if b = 117 then
        match codePoint rest with
        | .error e => .error e
        | .ok (c, rest) => .ok (Bytes.ofText c.toString, rest)
      else fault .badEscape rest

theorem length_hexFour {s rest : Bytes} {n : Nat} (h : hexFour s = .ok (n, rest)) :
    rest.length ≤ s.length := by
  unfold hexFour at h
  split at h
  · split at h <;> simp_all [fault]
    omega
  · simp [fault] at h

theorem length_trail {lead : Nat} {s rest : Bytes} {c : Char} (h : trail lead s = .ok (c, rest)) :
    rest.length ≤ s.length := by
  unfold trail at h
  split at h
  case h_3 =>
    split at h
    · simp at h
    · rename_i hx
      have := length_hexFour hx
      split at h <;> simp_all [fault]
      omega
  all_goals simp [fault] at h

theorem length_codePoint {s rest : Bytes} {c : Char} (h : codePoint s = .ok (c, rest)) :
    rest.length ≤ s.length := by
  unfold codePoint at h
  split at h
  · simp at h
  · rename_i hx
    have := length_hexFour hx
    split at h
    · simp [fault] at h
    · split at h
      · exact Nat.le_trans (length_trail h) this
      · simp_all

theorem length_escape {s rest : Bytes} {c : Bytes} (h : escape s = .ok (c, rest)) :
    rest.length ≤ s.length := by
  unfold escape at h
  split at h
  · simp [fault] at h
  · split at h
    · simp_all
    · split at h
      · split at h
        · simp at h
        · rename_i hx
          have := length_codePoint hx
          simp_all
          omega
      · simp [fault] at h

/-- The text of the bytes read, the last one first. -/
def spelled (read rest : Bytes) : Except Fault (String × Bytes) :=
  match Bytes.text? read.reverse with
  | some t => .ok (t, rest)
  | none => fault .badText rest

theorem length_spelled {read s rest : Bytes} {t : String} (h : spelled read s = .ok (t, rest)) :
    rest = s := by
  unfold spelled at h
  split at h <;> simp_all [fault]

/-- The text up to the closing quote, behind the bytes already `read` (the last one first). -/
def content (read : Bytes) (s : Bytes) : Except Fault (String × Bytes) :=
  match s with
  | [] => fault .unfinishedText []
  | b :: rest =>
    if b = 34 then spelled read rest
    else if b = 92 then
      match _h : escape rest with
      | .error e => .error e
      | .ok (c, rest') => content (c.reverse ++ read) rest'
    else if b < 32 then fault .controlCharacter rest
    else content (b :: read) rest
termination_by s.length
decreasing_by
  · have := length_escape _h
    simp
    omega
  · simp

theorem length_content (read s : Bytes) (t : String) (rest : Bytes)
    (h : content read s = .ok (t, rest)) : rest.length ≤ s.length := by
  fun_induction content read s with
  | case2 =>
    have := length_spelled h
    simp_all
  | case4 =>
    rename_i ih
    have := length_escape (by assumption)
    have := ih h
    simp
    omega
  | case6 =>
    rename_i ih
    have := ih h
    simp
    omega
  | _ => simp [fault] at h

/-- A fault of the bytes is placed behind the first that belongs to no character. -/
def placed (s : Bytes) (f : Fault) : Fault :=
  if f.cause = .badText then { f with rest := Bytes.behindFault s.length s } else f

def literal (s : Bytes) : Except Fault (String × Bytes) :=
  match content [] s with
  | .ok t => .ok t
  | .error f => .error (placed s f)

theorem length_literal (s : Bytes) (t : String) (rest : Bytes) (h : literal s = .ok (t, rest)) :
    rest.length ≤ s.length := by
  unfold literal at h
  split at h
  · rename_i hc
    exact length_content [] s t rest (hc.trans h)
  · cases h

/-- Passes over text up to the closing quote; only the shape of its escapes is checked. -/
def passContent (s : Bytes) : Except Fault Bytes :=
  match s with
  | [] => fault .unfinishedText []
  | b :: rest =>
    if b = 34 then .ok rest
    else if b = 92 then
      match rest with
      | [] => fault .unfinishedText []
      | c :: rest =>
        if (letter? c).isSome then passContent rest
        else if c = 117 then
          match _h : hexFour rest with
          | .error e => .error e
          | .ok (_, rest') => passContent rest'
        else fault .badEscape rest
    else if b < 32 then fault .controlCharacter (b :: rest)
    else passContent rest
termination_by s.length
decreasing_by
  · simp only [List.length_cons]
    omega
  · have := length_hexFour _h
    simp only [List.length_cons]
    omega
  · simp

theorem length_passContent (s rest : Bytes) (h : passContent s = .ok rest) :
    rest.length ≤ s.length := by
  fun_induction passContent s with
  | case2 => simp_all
  | case4 =>
    rename_i ih
    have := ih h
    simp
    omega
  | case6 =>
    rename_i ih
    have := length_hexFour (by assumption)
    have := ih h
    simp
    omega
  | case9 =>
    rename_i ih
    have := ih h
    simp
    omega
  | _ => simp [fault] at h

end Literal

namespace Scan

/-- Text, read behind its opening quote. -/
def text : Scan String := ofPartial Literal.literal Literal.length_literal

def passText : Scan Unit :=
  ofPartial (fun s => (Literal.passContent s).map fun rest => ((), rest)) <| by
    intro s a r h
    cases hp : Literal.passContent s with
    | error e => simp [hp, Except.map] at h
    | ok rest =>
      simp [hp, Except.map] at h
      exact h ▸ Literal.length_passContent s rest hp

end Scan

end HotSwap.Json

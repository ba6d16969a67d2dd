import HotSwap.Json.Bracket
import HotSwap.Json.Numeral

/-!
# Passing over a value

A value that nobody asked for is only checked for its form. Open containers are kept on a stack, so
they may be nested without limit.
-/

namespace HotSwap.Json

namespace Pass

/-- What is due next. -/
inductive Due where
  /-- A value ended: a comma or the end of its container. -/
  | next
  | value
  /-- A container was opened: its end or its first item. -/
  | first
  | key
  deriving DecidableEq

def Due.rank : Due → Nat
  | next => 0
  | value => 1
  | key => 1
  | first => 2

/-- A value without items, of which the first byte `b` is there. -/
def scalar (b : UInt8) : Scan Unit :=
  if b = 110 then do
    Scan.drop
    Scan.word [117, 108, 108]
  else if b = 116 then do
    Scan.drop
    Scan.word [114, 117, 101]
  else if b = 102 then do
    Scan.drop
    Scan.word [97, 108, 115, 101]
  else if b = 45 ∨ Bytes.isDigit b then Scan.passNumber
  else if b = 34 then do
    Scan.drop
    Scan.passText
  else Scan.failNext .expectedValue

def itemDue : Bracket → Due
  | .list => .value
  | .object => .key

def open? (b : UInt8) : Option Bracket :=
  if b = 91 then some .list else if b = 123 then some .object else none

theorem length_of_skipBlank {s rest : Bytes} {b : UInt8} (h : Scan.skipBlank s = b :: rest) :
    rest.length < s.length := by
  have := Scan.length_skipBlank_le s
  simp [h] at this
  omega

/-- The rest of the input behind what is due and behind all open containers. -/
def run (due : Due) (stack : List Bracket) (s : Bytes) : Except Fault Bytes :=
  match due, stack with
  | .next, [] => .ok s
  | .next, k :: outer =>
    match _h : Scan.skipBlank s with
    | [] => .error ⟨k.unfinished, [], true⟩
    | b :: rest =>
      if b = 44 then run (itemDue k) (k :: outer) rest
      else if b = k.close then run .next outer rest
      else .error ⟨k.expectedEnd, rest, true⟩
  | .first, [] => .ok s
  | .first, k :: outer =>
    match _h : Scan.skipBlank s with
    | [] => .error ⟨k.unfinished, [], true⟩
    | b :: rest =>
      if b = k.close then run .next outer rest
      else run (itemDue k) (k :: outer) (b :: rest)
  | .key, stack =>
    match _h : Scan.skipBlank s with
    | [] => .error ⟨.unfinishedObject, [], true⟩
    | b :: rest =>
      if b = 34 then
        match (do Scan.passText; Scan.colon : Scan Unit) rest with
        | .error e => .error e
        | .ok t => run .value stack t.rest
      else .error ⟨.keyNotText, rest, true⟩
  | .value, stack =>
    match _h : Scan.skipBlank s with
    | [] => .error ⟨.unfinishedValue, [], true⟩
    | b :: rest =>
      match open? b with
      | some k => run .first (k :: stack) rest
      | none =>
        match scalar b (b :: rest) with
        | .error e => .error e
        | .ok t => run .next stack t.rest
termination_by (s.length, due.rank)
decreasing_by
  all_goals
    have hl := Scan.length_skipBlank_le s
    rw [_h] at hl
    simp only [List.length_cons] at hl
  · exact Prod.Lex.left _ _ (by omega)
  · exact Prod.Lex.left _ _ (by omega)
  · exact Prod.Lex.left _ _ (by omega)
  · rcases Nat.lt_or_eq_of_le hl with h | h
    · exact Prod.Lex.left _ _ (by simpa using h)
    · simp only [List.length_cons, h]
      exact Prod.Lex.right _ (by cases k <;> decide)
  · have := t.le
    exact Prod.Lex.left _ _ (by omega)
  · exact Prod.Lex.left _ _ (by omega)
  · have := t.le
    simp only [List.length_cons] at this
    rcases Nat.lt_or_eq_of_le (Nat.le_trans this hl) with h | h
    · exact Prod.Lex.left _ _ h
    · rw [h]
      exact Prod.Lex.right _ (by decide)

theorem length_run {due : Due} {stack : List Bracket} {s rest : Bytes}
    (h : run due stack s = .ok rest) : rest.length ≤ s.length := by
  fun_induction run due stack s
  case case1 | case6 =>
    cases h
    exact Nat.le_refl _
  case case12 =>
    rename_i t _ _ _
    have := t.le
    have := length_of_skipBlank ‹Scan.skipBlank _ = _›
    have := ‹run _ _ _ = Except.ok rest → _› h
    omega
  case case17 =>
    rename_i t _ _
    have := t.le
    have := length_of_skipBlank ‹Scan.skipBlank _ = _›
    have := ‹run _ _ _ = Except.ok rest → _› h
    simp only [List.length_cons] at *
    omega
  case case9 =>
    have := length_of_skipBlank ‹Scan.skipBlank _ = _›
    have := ‹run _ _ _ = Except.ok rest → _› h
    simp only [List.length_cons] at *
    omega
  case case3 | case4 | case8 | case15 =>
    have := length_of_skipBlank ‹Scan.skipBlank _ = _›
    have := ‹run _ _ _ = Except.ok rest → _› h
    omega
  all_goals simp at h

end Pass

/-- Passes over a value. -/
def Scan.pass : Scan Unit :=
  ofPartial (fun s => (Pass.run .value [] s).map fun rest => ((), rest)) <| by
    intro s a r h
    cases hp : Pass.run .value [] s with
    | error e => simp [hp, Except.map] at h
    | ok rest =>
      simp [hp, Except.map] at h
      exact h ▸ Pass.length_run hp

end HotSwap.Json

import HotSwap.Json.Literal

/-!
# Containers

The items of a list and the members of an object are set apart by commas. A fault of meaning found
inside is placed where the container is left.
-/

namespace HotSwap.Json

inductive Bracket where
  | list
  | object
  deriving DecidableEq

namespace Bracket

def close : Bracket → UInt8
  | list => 93
  | object => 125

def unfinished : Bracket → Cause
  | list => .unfinishedList
  | object => .unfinishedObject

def expectedEnd : Bracket → Cause
  | list => .expectedListEnd
  | object => .expectedObjectEnd

/-- Why a byte cannot start an item. -/
def refusal? (k : Bracket) (b : UInt8) : Option Cause :=
  if b = k.close then some .trailingComma
  else if k = object ∧ b ≠ 34 then some .keyNotText
  else none

/-- The input from the next item on, if there is one; a first item needs no comma. -/
def item? (k : Bracket) (first : Bool) (s : Bytes) : Except Fault (Option Bytes) :=
  match Scan.skipBlank s with
  | [] => .error ⟨k.unfinished, [], true⟩
  | b :: rest =>
    if b = k.close then .ok none
    else if first then
      match k.refusal? b with
      | some c => .error ⟨c, rest, true⟩
      | none => .ok (some (b :: rest))
    else if b = 44 then
      match Scan.skipBlank rest with
      | [] => .error ⟨.unfinishedValue, [], true⟩
      | c :: rest =>
        match k.refusal? c with
        | some cause => .error ⟨cause, rest, true⟩
        | none => .ok (some (c :: rest))
    else .error ⟨k.expectedEnd, rest, true⟩

theorem length_item? {k : Bracket} {first : Bool} {s rest : Bytes}
    (h : k.item? first s = .ok (some rest)) :
    rest.length ≤ s.length ∧ (first = false → rest.length < s.length) := by
  have hs := Scan.length_skipBlank_le s
  unfold item? at h
  split at h
  · simp at h
  · rename_i b r hb
    rw [hb] at hs
    simp at hs
    split at h
    · simp at h
    · split at h
      · split at h
        · simp at h
        · simp_all
          subst h
          simpa using hs
      · split at h
        · have hr := Scan.length_skipBlank_le r
          split at h
          · simp at h
          · rename_i c q hc
            rw [hc] at hr
            simp at hr
            split at h
            · simp at h
            · simp_all
              subst h
              simp
              omega
        · simp at h

/-- The input from the next item on if one follows, and the same input if none does. -/
def advance (k : Bracket) (first : Bool) (s : Bytes) : Except Fault (Bool × Bytes) :=
  match k.item? first s with
  | .error e => .error e
  | .ok none => .ok (false, s)
  | .ok (some rest) => .ok (true, rest)

theorem length_advance {k : Bracket} {first : Bool} {s : Bytes} {b : Bool} {rest : Bytes}
    (h : k.advance first s = .ok (b, rest)) : rest.length ≤ s.length := by
  unfold advance at h
  split at h
  · cases h
  · cases h
    exact Nat.le_refl _
  · rename_i hi
    cases h
    exact (length_item? hi).1

/-- Whether an item follows; if so the input goes on with it. -/
def next (k : Bracket) (first : Bool) : Scan Bool :=
  Scan.ofPartial (k.advance first) fun _ _ _ h => length_advance h

/-- Takes a step for every further item. -/
def further {σ : Type} (k : Bracket) (step : σ → Scan σ) (st : σ) (s : Bytes) :
    Except Fault (σ × Bytes) :=
  match _h : k.item? false s with
  | .error e => .error e
  | .ok none => .ok (st, s)
  | .ok (some rest) =>
    match step st rest with
    | .error e => .error e
    | .ok t => further k step t.value t.rest
termination_by s.length
decreasing_by
  have := (length_item? _h).2 rfl
  have := t.le
  omega

theorem length_further {σ : Type} (k : Bracket) (step : σ → Scan σ) (st : σ) (s : Bytes) (a : σ)
    (rest : Bytes) (h : further k step st s = .ok (a, rest)) : rest.length ≤ s.length := by
  fun_induction further k step st s with
  | case1 => simp at h
  | case2 => simp_all
  | case3 => simp at h
  | case4 =>
    rename_i t _ ih
    have := (length_item? (by assumption)).1
    have := t.le
    have := ih h
    omega

/-- Takes a step for every item. -/
def fold {σ : Type} (k : Bracket) (step : σ → Scan σ) (start : σ) : Scan σ := do
  if ← k.next true then
    let st ← step start
    Scan.ofPartial (k.further step st) (length_further k step st)
  else pure start

/-- The closing bracket. -/
def leave (k : Bracket) : Scan Unit := do
  match ← Scan.look with
  | none => Scan.fail k.unfinished
  | some b =>
    if b = k.close then Scan.drop
    else if b = 44 then
      if k = .list then
        Scan.drop
        if (← Scan.look) = some k.close then Scan.failNext .trailingComma
        else Scan.failNext .trailingCharacters
      else Scan.failNext .trailingComma
    else Scan.failNext .trailingCharacters

/-- The place of a fault of meaning: behind the closing bracket, if that is next. -/
def left (k : Bracket) (s : Bytes) : Bytes :=
  match Scan.skipBlank s with
  | [] => []
  | b :: rest =>
    if b = k.close then rest
    else if b = 44 ∧ k = .list then Scan.skipBlank rest
    else b :: rest

def placing {α : Type} (k : Bracket) (x : Scan α) : Scan α := fun s =>
  match x s with
  | .error e => .error (if e.placed then e else ⟨e.cause, k.left e.rest, true⟩)
  | .ok t => .ok t

/-- A whole container, of which the opening bracket is there; nothing is `inside` at the limit. -/
def around {α : Type} (k : Bracket) (inside : Option (Scan α)) : Scan α :=
  match inside with
  | none => Scan.failNext .tooDeep
  | some x => do
    Scan.drop
    let a ← k.placing x
    k.leave
    pure a

end Bracket

namespace Scan

def colon : Scan Unit := do
  match ← look with
  | some 58 => drop
  | some _ => failNext .expectedColon
  | none => failNext .unfinishedObject

/-- The key of a member, of which the opening quote is there. -/
def key : Scan String := do
  drop
  text

end Scan

end HotSwap.Json

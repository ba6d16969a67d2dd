import HotSwap.Json.Fault

/-!
# Scanning

A scan takes a part, possibly empty, off the front of the input. What it leaves is never longer
than what it was given, so a loop that takes a comma before each further item ends.
-/

namespace HotSwap.Json

structure Taken (α : Type) (s : Bytes) where
  value : α
  rest : Bytes
  le : rest.length ≤ s.length

def Scan (α : Type) := (s : Bytes) → Except Fault (Taken α s)

namespace Scan

variable {α β : Type}

instance : Monad Scan where
  pure a := fun s => .ok ⟨a, s, Nat.le_refl _⟩
  bind x f := fun s =>
    match x s with
    | .error e => .error e
    | .ok t =>
      match f t.value t.rest with
      | .error e => .error e
      | .ok u => .ok ⟨u.value, u.rest, Nat.le_trans u.le t.le⟩

/-- A fault here. -/
def fail (c : Cause) : Scan α := fun s => .error ⟨c, s, true⟩

/-- A fault of the byte that comes next. -/
def failNext (c : Cause) : Scan α := fun s => .error ⟨c, s.drop 1, true⟩

/-- A fault of meaning, to be placed by what encloses it. -/
def reject (c : Cause) : Scan α := fun s => .error ⟨c, s, false⟩

def peek : Scan (Option UInt8) := fun s => .ok ⟨s.head?, s, Nat.le_refl _⟩

def drop : Scan Unit := fun s => .ok ⟨(), s.drop 1, by simp⟩

/-- Takes the next byte, if there is one. -/
def next : Scan (Option UInt8) := fun s => .ok ⟨s.head?, s.drop 1, by simp⟩

def isBlank (b : UInt8) : Bool := b == 32 || b == 10 || b == 9 || b == 13

def skipBlank (s : Bytes) : Bytes := s.dropWhile isBlank

theorem length_dropWhile_le (p : UInt8 → Bool) (s : Bytes) :
    (s.dropWhile p).length ≤ s.length := (List.dropWhile_sublist p).length_le

theorem length_skipBlank_le (s : Bytes) : (skipBlank s).length ≤ s.length :=
  length_dropWhile_le _ _

def blank : Scan Unit := fun s => .ok ⟨(), skipBlank s, length_skipBlank_le s⟩

/-- The next byte that is not blank, left in place. -/
def look : Scan (Option UInt8) := do blank; peek

/-- A scan given as a function on the input. -/
def ofFunction (f : Bytes → α × Bytes) (h : ∀ s, (f s).2.length ≤ s.length) : Scan α :=
  fun s => .ok ⟨(f s).1, (f s).2, h s⟩

/-- A scan given as a function that may fail. -/
def ofPartial (f : Bytes → Except Fault (α × Bytes))
    (h : ∀ s a r, f s = .ok (a, r) → r.length ≤ s.length) : Scan α :=
  fun s =>
    match hs : f s with
    | .error e => .error e
    | .ok (a, r) => .ok ⟨a, r, h s a r hs⟩

/-- Faults of meaning get their place here. -/
def place (x : Scan α) : Scan α := fun s =>
  match x s with
  | .error e => .error { e with placed := true }
  | .ok t => .ok t

/-- The bytes of a word, one by one. -/
def word : Bytes → Scan Unit
  | [] => pure ()
  | b :: rest => do
    match ← next with
    | none => fail .unfinishedValue
    | some c => if c = b then word rest else fail .expectedWord

def digitRun : Scan Nat :=
  ofFunction (fun s => ((s.takeWhile Bytes.isDigit).length, s.dropWhile Bytes.isDigit))
    (length_dropWhile_le _)

end Scan

end HotSwap.Json

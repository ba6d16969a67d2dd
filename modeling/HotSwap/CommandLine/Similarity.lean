/-!
# Similar words

Two words are the more alike, the more letters they share at about the same place and the fewer of
these are out of order. The measure is a fraction between zero and one.
-/

namespace HotSwap.CommandLine

/-- A fraction; a denominator of zero stands for no likeness at all. -/
structure Likeness where
  numerator : Nat
  denominator : Nat
  deriving DecidableEq, Repr

namespace Likeness

def none : Likeness := ⟨0, 1⟩

def Exceeds (a b : Likeness) : Prop := b.numerator * a.denominator < a.numerator * b.denominator

instance (a b : Likeness) : Decidable (a.Exceeds b) := inferInstanceAs (Decidable (_ < _))

end Likeness

/-- How far apart shared letters may be. -/
def window (a b : List Char) : Nat := max a.length b.length / 2 - 1

/-- Where in `b` the letter at `i` is found first, among places not used yet. -/
def place? (b : List Char) (used : List Nat) (reach i : Nat) (c : Char) : Option Nat :=
  (List.range b.length).find? fun j => i ≤ j + reach ∧ j ≤ i + reach ∧ j ∉ used ∧ b[j]? = some c

/-- The pairs of places of shared letters, the last one first. -/
def shared (a b : List Char) : List (Nat × Nat) :=
  a.zipIdx.foldl (fun pairs (c, i) =>
    match place? b (pairs.map (·.2)) (window a b) i c with
    | some j => (i, j) :: pairs
    | none => pairs) []

/-- How many shared letters differ from those at the same rank in the other word. -/
def disorder (a b : List Char) (pairs : List (Nat × Nat)) : Nat :=
  let left := (pairs.map (·.1)).mergeSort.map (a[·]?)
  let right := (pairs.map (·.2)).mergeSort.map (b[·]?)
  ((left.zip right).filter fun p => p.1 ≠ p.2).length

def likeness (s t : String) : Likeness :=
  let a := s.toList
  let b := t.toList
  let pairs := shared a b
  let m := pairs.length
  if m = 0 then .none
  else
    let (p, q) := (a.length, b.length)
    ⟨m * m * q + m * m * p + (m - disorder a b pairs / 2) * p * q, 3 * p * q * m⟩

/-- Beyond this a word is proposed in place of another. -/
def threshold : Likeness := ⟨7, 10⟩

/-- The word among those known that is most like `s`, if any is alike; the last of several. -/
def mostLike? (s : String) (known : List String) : Option String :=
  (known.foldl (fun (best : Option (String × Likeness)) t =>
    let l := likeness s t
    if ¬ l.Exceeds threshold then best
    else
      match best with
      | some (_, k) => if k.Exceeds l then best else some (t, l)
      | none => some (t, l)) none).map (·.1)

end HotSwap.CommandLine

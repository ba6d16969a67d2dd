import HotSwap.Decimal.Binary64

/-!
# The fewest digits that identify a number

Every number stands for the interval of reals that round to it. Its decimal text is the point of
the coarsest decimal grid in that interval, the nearest of the two if the grid has two.
-/

namespace HotSwap

/-- The number `digits * 10 ^ scale`. -/
structure Decimal where
  digits : Nat
  scale : Int
  deriving DecidableEq, Repr

namespace Decimal

/-- Zeros at the end of the digits count as scale. -/
def strip (d : Decimal) : Decimal :=
  if h : d.digits ≠ 0 ∧ d.digits % 10 = 0 then strip ⟨d.digits / 10, d.scale + 1⟩ else d
termination_by d.digits
decreasing_by omega

end Decimal

namespace Binary64

/-- A magnitude and the ends of its rounding interval, in quarters of the last place. -/
structure Neighbourhood where
  low : Nat
  value : Nat
  high : Nat
  unit : Nat × Nat
  closed : Bool

def neighbourhood (p : Nat) : Neighbourhood :=
  let m := significand p
  let e := exponent p - 2
  { low := if p % leading = 0 ∧ 2 * leading ≤ p then 4 * m - 1 else 4 * m - 2
    value := 4 * m
    high := 4 * m + 2
    unit := if 0 ≤ e then (Nat.pow 2 e.toNat, 1) else (1, Nat.pow 2 (-e).toNat)
    closed := m % 2 = 0 }

/-- The power `10 ^ k` as a quotient. -/
def power (k : Int) : Nat × Nat :=
  if 0 ≤ k then (Nat.pow 10 k.toNat, 1) else (1, Nat.pow 10 (-k).toNat)

/-- Both sides of the comparison of `quarters` with `c * 10 ^ g`, over one denominator. -/
def compared (n : Neighbourhood) (quarters c : Nat) (g : Int) : Nat × Nat :=
  (quarters * n.unit.1 * (power g).2, c * (power g).1 * n.unit.2)

def reads (n : Neighbourhood) (c : Nat) (g : Int) : Bool :=
  let l := compared n n.low c g
  let h := compared n n.high c g
  if n.closed then l.1 ≤ l.2 && h.2 ≤ h.1 else l.1 < l.2 && h.2 < h.1

/-- The least `k` with the value below `10 ^ k`, searched around its estimate. -/
def decimalLength (n : Neighbourhood) : Int :=
  let bits : Int := (n.value * n.unit.1).log2 - n.unit.2.log2
  let guess : Int := bits * 30103 / 100000
  let below (k : Int) : Bool := let c := compared n n.value 1 k; c.1 < c.2
  ([guess - 1, guess, guess + 1].find? below).getD (guess + 2)

/-- The point of the grid `10 ^ g` nearest to the value among those that read back. -/
def onGrid (n : Neighbourhood) (g : Int) : Option Nat :=
  let s := compared n n.value 1 g
  let c := s.1 / s.2
  match reads n c g, reads n (c + 1) g with
  | true, true =>
    let r := s.1 % s.2
    some (if 2 * r < s.2 then c else if s.2 < 2 * r then c + 1 else c + c % 2)
  | true, false => some c
  | false, true => some (c + 1)
  | false, false => none

def shortest (p : Nat) : Decimal :=
  if p = 0 then ⟨0, 0⟩
  else
    let n := neighbourhood p
    let k := decimalLength n
    let grids := (List.range 18).map fun i => k - (i + 1 : Nat)
    match grids.findSome? fun g => (onGrid n g).map fun c => (⟨c, g⟩ : Decimal) with
    | some d => d.strip
    | none => ⟨significand p, exponent p⟩

end Binary64

end HotSwap

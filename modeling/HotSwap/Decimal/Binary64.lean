/-!
# Finite binary floating-point numbers

A number is a sign and a magnitude pattern: the exponent field followed by the 52 fraction bits.
Magnitudes are ordered as their patterns are, and arithmetic rounds an exact quotient of naturals
to the nearest magnitude, a tie to the even pattern.
-/

namespace HotSwap

namespace Binary64

/-- The bit in front of the fraction, which is not part of the pattern. -/
def leading : Nat := Nat.pow 2 52

/-- The least pattern that stands for no finite magnitude. -/
def overflow : Nat := 2047 * leading

def significand (p : Nat) : Nat := if p < leading then p else leading + p % leading

def exponent (p : Nat) : Int := if p < leading then -1074 else (p / leading : Nat) - 1075

/-- The magnitude of a pattern as a quotient. -/
def quotient (p : Nat) : Nat × Nat :=
  let e := exponent p
  if 0 ≤ e then (significand p * Nat.pow 2 e.toNat, 1) else (significand p, Nat.pow 2 (-e).toNat)

/-- A quotient rounded to the nearest natural, a tie to the even one. -/
def roundEven (num den : Nat) : Nat :=
  let q := num / den
  let r := num % den
  if 2 * r < den then q else if den < 2 * r then q + 1 else q + q % 2

/-- The binary exponent of a positive quotient: `2 ^ k ≤ num / den < 2 ^ (k + 1)`. -/
def binaryExponent (num den : Nat) : Int :=
  let k : Int := (num.log2 : Int) - den.log2
  if 0 ≤ k then (if num < den * Nat.pow 2 k.toNat then k - 1 else k)
  else (if num * Nat.pow 2 (-k).toNat < den then k - 1 else k)

/-- The pattern nearest to `num / den`; it may lie at or above `overflow`. -/
def nearest (num den : Nat) : Nat :=
  if num = 0 then 0
  else
    let e := max (binaryExponent num den - 52) (-1074)
    let m := if 0 ≤ e then roundEven num (den * Nat.pow 2 e.toNat)
      else roundEven (num * Nat.pow 2 (-e).toNat) den
    (e + 1074).toNat * leading + m

end Binary64

structure Binary64 where
  negative : Bool
  magnitude : Nat
  finite : magnitude < Binary64.overflow
  deriving DecidableEq

namespace Binary64

def ofQuotient? (negative : Bool) (num den : Nat) : Option Binary64 :=
  if h : nearest num den < overflow then some ⟨negative, nearest num den, h⟩ else none

def zero (negative : Bool) : Binary64 := ⟨negative, 0, by decide⟩

/-- The number nearest to `digits * 10 ^ scale`, unless that is too great. -/
def ofDecimal? (negative : Bool) (digits : Nat) (scale : Int) : Option Binary64 :=
  if 0 ≤ scale then ofQuotient? negative (digits * Nat.pow 10 scale.toNat) 1
  else ofQuotient? negative digits (Nat.pow 10 (-scale).toNat)

def times? (x y : Binary64) : Option Binary64 :=
  let a := quotient x.magnitude
  let b := quotient y.magnitude
  ofQuotient? (x.negative != y.negative) (a.1 * b.1) (a.2 * b.2)

/-- The quotient by a number other than zero. -/
def over? (x y : Binary64) : Option Binary64 :=
  let a := quotient x.magnitude
  let b := quotient y.magnitude
  ofQuotient? (x.negative != y.negative) (a.1 * b.2) (a.2 * b.1)

def IsZero (x : Binary64) : Prop := x.magnitude = 0

instance (x : Binary64) : Decidable x.IsZero := inferInstanceAs (Decidable (x.magnitude = 0))

/-- The nearest integer, a half away from zero. -/
def round (x : Binary64) : Int :=
  let q := quotient x.magnitude
  let n : Nat := (2 * q.1 + q.2) / (2 * q.2)
  if x.negative then -(n : Int) else n

end Binary64

end HotSwap

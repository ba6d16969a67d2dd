import HotSwap.Decimal.Shortest

/-!
# How a decimal is written

The choice of the digits is one thing, their layout another: where the positional form ends, whether
a whole number keeps its point, and how an exponent is marked.
-/

namespace HotSwap

namespace Decimal

structure Layout where
  /-- Exponents of the first digit that are written positionally; every one, if absent. -/
  positional : Option (Int × Int)
  /-- A whole number is written with a point and a zero. -/
  wholePoint : Bool

def digitText (d : Decimal) : String := toString d.digits

/-- The exponent of the first digit. -/
def order (d : Decimal) : Int := d.digitText.length - 1 + d.scale

def zeros (n : Int) : String := String.ofList (List.replicate n.toNat '0')

def positionalText (l : Layout) (d : Decimal) : String :=
  let t := d.digitText
  if 0 ≤ d.scale then t ++ zeros d.scale ++ (if l.wholePoint then ".0" else "")
  else
    let whole := t.length + d.scale
    if 0 < whole then
      String.ofList (t.toList.take whole.toNat) ++ "." ++ String.ofList (t.toList.drop whole.toNat)
    else "0." ++ zeros (-whole) ++ t

def exponentText (d : Decimal) : String :=
  let t := d.digitText.toList
  let mantissa := match t with
    | [] => ""
    | [c] => c.toString
    | c :: cs => c.toString ++ "." ++ String.ofList cs
  let e := d.order
  mantissa ++ (if 0 ≤ e then "e+" else "e-") ++ toString e.natAbs

def render (l : Layout) (d : Decimal) : String :=
  match l.positional with
  | none => d.positionalText l
  | some (lo, hi) =>
    if d.digits = 0 ∨ lo ≤ d.order ∧ d.order ≤ hi then d.positionalText l else d.exponentText

end Decimal

namespace Binary64

def render (l : Decimal.Layout) (x : Binary64) : String :=
  (if x.negative then "-" else "") ++ (shortest x.magnitude).render l

end Binary64

end HotSwap

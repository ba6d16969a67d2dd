import HotSwap.Decimal.Digits
import HotSwap.Settings.Entry
import HotSwap.Text.Bytes

/-!
# Numbers without quotes

Notations differ in the words that they take for numbers. What digits, a point and an exponent stand
for is the same in all of them.
-/

namespace HotSwap.Written

def natIn (base : Nat) (cs : List Char) : Nat :=
  cs.foldl (fun n c => base * n + (Bytes.hexDigit? c.toUInt8).getD 0) 0

def isIn (base : Nat) (c : Char) : Bool :=
  c.toNat < 128 && ((Bytes.hexDigit? c.toUInt8).any (· < base))

/-- The number that digits behind a sign or none spell, if it has 63 bits and a sign. -/
def wordOf? (base : Nat) (s : List Char) : Option Int :=
  let (negative, digits) := Digits.sign s
  if digits ≠ [] ∧ digits.all (isIn base) then
    let n : Int := if negative then -(natIn base digits : Int) else natIn base digits
    if Word.FitsSigned 63 n then some n else none
  else none

/-- A number with digits before or behind a point, and maybe with an exponent. -/
structure Decimal where
  negative : Bool
  whole : List Char
  parts : List Char
  exponent : Int

def exponent? : List Char → Option Int
  | [] => some 0
  | mark :: s =>
    let (negative, digits) := Digits.sign s
    if (mark = 'e' ∨ mark = 'E') ∧ digits ≠ [] ∧ digits.all Char.isDigit then
      some (Digits.signedValue negative digits)
    else none

def decimal? (s : List Char) : Option Decimal :=
  let (negative, rest) := Digits.sign s
  let whole := rest.takeWhile Char.isDigit
  let rest := rest.dropWhile Char.isDigit
  let (parts, rest) := match rest with
    | '.' :: more => (more.takeWhile Char.isDigit, more.dropWhile Char.isDigit)
    | _ => ([], rest)
  if whole = [] ∧ parts = [] then none
  else (exponent? rest).map fun e => ⟨negative, whole, parts, e⟩

/-- The nearest fraction. A number that is too great for one is infinite. -/
def Decimal.scalar (d : Decimal) : Scalar :=
  let n := Digits.value (d.whole ++ d.parts)
  -- an exponent further from zero changes nothing, and takes long
  let most : Int := 400 + d.whole.length + d.parts.length
  let e := if n = 0 then 0 else max (-most) (min most d.exponent)
  match Binary64.ofDecimal? d.negative n (e - d.parts.length) with
  | some x => .float x
  | none => .infinite d.negative

/-- A fraction, among which are the infinities and what is no number by their names. -/
def fraction? (s : List Char) : Option Scalar :=
  let (negative, rest) := Digits.sign s
  let name := rest.map Char.toLower
  if name = "inf".toList ∨ name = "infinity".toList then some (.infinite negative)
  else if name = "nan".toList then some .notANumber
  else (decimal? s).map Decimal.scalar

end HotSwap.Written

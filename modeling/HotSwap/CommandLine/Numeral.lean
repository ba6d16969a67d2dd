import HotSwap.Decimal.Digits
import HotSwap.Decimal.Word

/-!
# Whole numbers as they are typed

A number is a run of digits behind a sign or none, within some bounds.
-/

namespace HotSwap.CommandLine

inductive NumeralFault where
  | empty
  | notDigits
  | tooLarge
  | tooSmall
  /-- It is a number, but none of those allowed. -/
  | outside (n : Int) (least most : Nat)
  deriving DecidableEq, Repr

namespace NumeralFault

def message : NumeralFault → String
  | empty => "cannot parse integer from empty string"
  | notDigits => "invalid digit found in string"
  | tooLarge => "number too large to fit in target type"
  | tooSmall => "number too small to fit in target type"
  | outside n least most =>
    toString n ++ " is not in " ++ toString least ++ "..=" ++ toString most

end NumeralFault

def integer (s : String) : Except NumeralFault Int :=
  if s = "" then .error .empty
  else
    let (negative, digits) := Digits.sign s.toList
    if digits = [] ∨ digits.any (!·.isDigit) then .error .notDigits
    else .ok (Digits.signedValue negative digits)

/-- A port, read as a number of 64 bits with a sign. -/
def port (s : String) : Except NumeralFault UInt16 := do
  let n ← integer s
  if (Word.count 63 : Int) ≤ n then throw .tooLarge
  else if n < -(Word.count 63 : Int) then throw .tooSmall
  else if ¬ Word.Fits 16 n then throw (.outside n 0 65535)
  else return UInt16.ofNat n.toNat

/-- A number of 64 bits; a minus sign is no part of it. -/
def word (s : String) : Except NumeralFault UInt64 := do
  let n ← integer s
  if s.toList.head? = some '-' then throw .notDigits
  else if (Word.count 64 : Int) ≤ n then throw .tooLarge
  else return UInt64.ofNat n.toNat

end HotSwap.CommandLine

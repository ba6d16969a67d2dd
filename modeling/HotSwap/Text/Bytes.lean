/-!
# Bytes and the text they carry

Wire formats are read and written as lists of bytes. Text is their UTF-8 form.
-/

namespace HotSwap

abbrev Bytes := List UInt8

namespace Bytes

/-- The text that the bytes spell in UTF-8, if they are well formed. -/
def text? (b : Bytes) : Option String := String.fromUTF8? ⟨b.toArray⟩

def ofText (s : String) : Bytes := s.toUTF8.data.toList

/-- How many bytes the first character takes, if there is one. -/
def charLength? (b : Bytes) : Option Nat :=
  [1, 2, 3, 4].find? fun n => n ≤ b.length ∧ (text? (b.take n)).isSome

/-- What follows the first of the next `n` characters that is none, without its first byte. -/
def behindFault : Nat → Bytes → Bytes
  | 0, b => b
  | n + 1, b =>
    match charLength? b with
    | some length => behindFault n (b.drop length)
    | none => b.drop 1

/-- The bytes of an ASCII character. -/
def ofChar (c : Char) : UInt8 := c.toUInt8

/-- A decimal digit. -/
def isDigit (b : UInt8) : Bool := 48 ≤ b && b ≤ 57

def digit (b : UInt8) : Nat := b.toNat - 48

/-- The value of a hexadecimal digit of either case. -/
def hexDigit? (b : UInt8) : Option Nat :=
  if isDigit b then some (digit b)
  else if 97 ≤ b && b ≤ 102 then some (b.toNat - 87)
  else if 65 ≤ b && b ≤ 70 then some (b.toNat - 55)
  else none

/-- The number that hexadecimal digits spell; zero, if there are none. -/
def hexText? (cs : List Char) : Option Nat :=
  cs.foldlM (fun n c => if c.toNat < 128 then (hexDigit? (ofChar c)).map (16 * n + ·) else none) 0

end Bytes

end HotSwap

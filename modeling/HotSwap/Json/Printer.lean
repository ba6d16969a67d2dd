import HotSwap.Json.Value
import HotSwap.Text.Bytes

/-!
# Writing JSON

The written form has no blanks. Text escapes the quote, the backslash and the control characters,
and nothing else, so that a byte of text is written without regard to its neighbours.
-/

namespace HotSwap

namespace Json

def hexByte (n : Nat) : UInt8 := (if n < 10 then 48 + n else 87 + n).toUInt8

/-- The written form of one byte of text. -/
def escapeByte (b : UInt8) : Bytes :=
  if b = 34 then [92, 34]
  else if b = 92 then [92, 92]
  else if b = 8 then [92, 98]
  else if b = 9 then [92, 116]
  else if b = 10 then [92, 110]
  else if b = 12 then [92, 102]
  else if b = 13 then [92, 114]
  else if b < 32 then [92, 117, 48, 48, hexByte (b.toNat / 16), hexByte (b.toNat % 16)]
  else [b]

def writeText (s : String) (tail : Bytes) : Bytes :=
  34 :: (Bytes.ofText s).foldr (fun b r => escapeByte b ++ r) (34 :: tail)

mutual

/-- The written form of a value, in front of `tail`. -/
def write : Json → Bytes → Bytes
  | null, tail => 110 :: 117 :: 108 :: 108 :: tail
  | bool true, tail => 116 :: 114 :: 117 :: 101 :: tail
  | bool false, tail => 102 :: 97 :: 108 :: 115 :: 101 :: tail
  | number n, tail => Bytes.ofText n.render ++ tail
  | text s, tail => writeText s tail
  | list [], tail => 91 :: 93 :: tail
  | list (v :: rest), tail => 91 :: write v (writeItems rest (93 :: tail))
  | object [], tail => 123 :: 125 :: tail
  | object ((k, v) :: rest), tail =>
    123 :: writeText k (58 :: write v (writeMembers rest (125 :: tail)))

def writeItems : List Json → Bytes → Bytes
  | [], tail => tail
  | v :: rest, tail => 44 :: write v (writeItems rest tail)

def writeMembers : List (String × Json) → Bytes → Bytes
  | [], tail => tail
  | (k, v) :: rest, tail => 44 :: writeText k (58 :: write v (writeMembers rest tail))

end

def bytes (v : Json) : Bytes := v.write []

def render (v : Json) : String := (Bytes.text? v.bytes).getD ""

end Json

end HotSwap

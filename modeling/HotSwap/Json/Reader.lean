import HotSwap.Json.Bracket
import HotSwap.Json.Numeral

/-!
# Reading JSON

A reader is told how many containers may still be opened. A value is read into a `Json`; scalars
may also be asked for by their type.
-/

namespace HotSwap.Json

/-- A scan that may open as many containers within each other as it is told. -/
abbrev Reader (α : Type) := Nat → Scan α

namespace Scan

/-- The rest of `null` behind its first letter. -/
def nullTail : Scan Unit := word [117, 108, 108]

def trueTail : Scan Unit := word [114, 117, 101]

def falseTail : Scan Unit := word [97, 108, 115, 101]

def items (value : Scan Json) : Scan Json := do
  let read ← Bracket.list.fold (fun read => do return (← value) :: read) []
  return .list read.reverse

def member (value : Scan Json) (members : Members) : Scan Members := do
  let k ← key
  colon
  return putMember k (← value) members

def members (value : Scan Json) : Scan Members := Bracket.object.fold (member value) []

/-- A value, whose items are read by `inner`, if there may be any. -/
def valueOver (inner : Option (Scan Json)) : Scan Json := do
  match ← look with
  | none => failNext .unfinishedValue
  | some b =>
    if b = 110 then do
      drop
      nullTail
      return .null
    else if b = 116 then do
      drop
      trueTail
      return .bool true
    else if b = 102 then do
      drop
      falseTail
      return .bool false
    else if b = 45 ∨ Bytes.isDigit b then return .number (← number)
    else if b = 34 then do
      drop
      return .text (← text)
    else if b = 91 then Bracket.list.around (inner.map items)
    else if b = 123 then
      Bracket.object.around (inner.map fun value => do return .object (← members value))
    else failNext .expectedValue

end Scan

namespace Reader

def value : Reader Json
  | 0 => Scan.valueOver none
  | depth + 1 => Scan.valueOver (some (value depth))

/-- A container read by `inside`. -/
def around {α : Type} (k : Bracket) (inside : Reader α) : Reader α
  | 0 => k.around none
  | depth + 1 => k.around (some (inside depth))

/-- A fault: something stands where `expected` is due. A scalar is read first. -/
def mismatch {α : Type} (expected : String) : Scan α := do
  match ← Scan.look with
  | none => Scan.failNext .unfinishedValue
  | some b =>
    let found ← do
      if b = 110 then do
        Scan.drop
        Scan.nullTail
        pure Found.null
      else if b = 116 then do
        Scan.drop
        Scan.trueTail
        pure (.bool true)
      else if b = 102 then do
        Scan.drop
        Scan.falseTail
        pure (.bool false)
      else if b = 45 ∨ Bytes.isDigit b then pure (.number (← Scan.number))
      else if b = 34 then do
        Scan.drop
        pure (.text (← Scan.text))
      else if b = 91 then pure .list
      else if b = 123 then pure .object
      else Scan.failNext .expectedValue
    Scan.fail (.wrongType found expected)

def text (expected : String) : Scan String := do
  match ← Scan.look with
  | some 34 => Scan.key
  | _ => mismatch expected

def bool : Scan Bool := do
  match ← Scan.look with
  | some 116 => Scan.drop; Scan.trueTail; return true
  | some 102 => Scan.drop; Scan.falseTail; return false
  | _ => mismatch "a boolean"

def unit : Scan Unit := do
  match ← Scan.look with
  | some 110 => Scan.drop; Scan.nullTail
  | _ => mismatch "unit"

/-- A whole number below `bound`, a type of that `name`. -/
def natBelow (bound : Nat) (name : String) : Scan Nat := do
  match ← Scan.look with
  | some b =>
    if b = 45 ∨ Bytes.isDigit b then
      match ← Scan.number with
      | .int n =>
        if 0 ≤ n ∧ n < bound then return n.toNat
        else Scan.fail (.wrongValue (.number (.int n)) name)
      | .float x => Scan.fail (.wrongType (.number (.float x)) name)
    else mismatch name
  | none => mismatch name

def option {α : Type} (x : Reader α) : Reader (Option α) := fun depth => do
  match ← Scan.look with
  | some 110 =>
    Scan.drop
    Scan.nullTail
    return none
  | _ => return some (← x depth)

/-- A list whose items are read by `item`. -/
def list {α : Type} (item : Reader α) : Reader (List α) := fun depth => do
  match ← Scan.look with
  | some 91 =>
    around .list (fun depth => do
      let read ← Bracket.list.fold (fun read => do return (← item depth) :: read) []
      return read.reverse) depth
  | _ => mismatch "a sequence"

/-- An object as its members. -/
def members : Reader Members := fun depth => do
  match ← Scan.look with
  | some 123 => around .object (fun depth => Scan.members (value depth)) depth
  | _ => mismatch "a map"

/-- How many containers may stand within each other. -/
def depthLimit : Nat := 127

/-- Reads a whole input. -/
def read {α : Type} (x : Reader α) (input : Bytes) : Except ReadError α :=
  let whole : Scan α := do
    let a ← x depthLimit
    match ← Scan.look with
    | none => pure a
    | some _ => Scan.failNext .trailingCharacters
  match whole input with
  | .error e => .error (.ofFault input e)
  | .ok t => .ok t.value

end Reader

/-- The value that an input spells. -/
def read (input : Bytes) : Except ReadError Json := Reader.value.read input

def ofText? (s : String) : Option Json := (read (Bytes.ofText s)).toOption

end HotSwap.Json

import HotSwap.Decimal.Layout
import HotSwap.Decimal.Word

/-!
# JSON values

Whole numbers and binary fractions are kept apart. An object lists its members; the values that a
reader makes list them in ascending order of their keys, each key once.
-/

namespace HotSwap

inductive Number where
  | int (n : Int)
  | float (x : Binary64)
  deriving DecidableEq

inductive Json where
  | null
  | bool (b : Bool)
  | number (n : Number)
  | text (s : String)
  | list (items : List Json)
  | object (members : List (String × Json))

namespace Number

/-- A whole number that has 64 bits, signed if it is negative. -/
def Fits (n : Int) : Prop := Word.FitsSigned 63 n ∨ Word.Fits 64 n

instance (n : Int) : Decidable (Fits n) := inferInstanceAs (Decidable (_ ∨ _))

/-- Fractions keep their point, and have an exponent outside the middle range. -/
def layout : Decimal.Layout := ⟨some (-5, 15), true⟩

def render : Number → String
  | int n => toString n
  | float x => x.render layout

end Number

/-- Members by key: inserting keeps ascending keys ascending, and a later value wins. -/
def putMember {α : Type} (key : String) (value : α) : List (String × α) → List (String × α)
  | [] => [(key, value)]
  | (k, v) :: rest =>
    if key = k then (key, value) :: rest
    else if key < k then (key, value) :: (k, v) :: rest
    else (k, v) :: putMember key value rest

def getMember? {α : Type} (key : String) (members : List (String × α)) : Option α :=
  members.lookup key

namespace Json

abbrev Members := List (String × Json)

instance : Inhabited Json := ⟨null⟩

def int (n : Int) : Json := number (.int n)

def nat (n : Nat) : Json := int n

def ofOption (f : α → Json) : Option α → Json
  | none => null
  | some a => f a

def member? (key : String) : Json → Option Json
  | object members => getMember? key members
  | _ => none

mutual

/-- The same value with the members of every object in ascending order of their keys. -/
def sorted : Json → Json
  | list items => list (sortedItems items)
  | object members => object (sortedMembers members)
  | v => v

def sortedItems : List Json → List Json
  | [] => []
  | v :: rest => sorted v :: sortedItems rest

def sortedMembers : List (String × Json) → List (String × Json)
  | [] => []
  | (k, v) :: rest =>
    let others := sortedMembers rest
    if (getMember? k others).isSome then others else putMember k (sorted v) others

end

end Json

end HotSwap

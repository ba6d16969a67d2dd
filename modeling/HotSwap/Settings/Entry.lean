import HotSwap.Decimal.Word
import HotSwap.Json.Numeral
import HotSwap.Json.Value
import HotSwap.Text.Lowercase
import HotSwap.Text.Quoted

/-!
# Entries of a configuration

An entry is a scalar, a list or a table. It remembers the source it came from; a list or a table
that was made to hold other entries has none. Keys are compared in lower case.
-/

namespace HotSwap

inductive Scalar where
  | null
  | bool (b : Bool)
  | int (n : Int)
  | float (x : Binary64)
  | infinite (negative : Bool)
  | notANumber
  | text (s : String)
  deriving DecidableEq

inductive Entry where
  | scalar (origin : Option String) (s : Scalar)
  | list (origin : Option String) (items : List Entry)
  | table (origin : Option String) (members : List (String × Entry))

namespace Scalar

/-- Fractions are written out in full. -/
def layout : Decimal.Layout := ⟨none, false⟩

def ofNumber : Number → Scalar
  | .int n => int n
  | .float x => float x

/-- A whole number that has more than 63 bits is kept as a fraction. -/
def ofShortNumber : Number → Scalar
  | .int n =>
    if Word.FitsSigned 63 n then int n else float (.ofNat (n < 0) n.natAbs)
  | .float x => float x

def render? : Scalar → Option String
  | null => none
  | bool b => some (toString b)
  | int n => some (toString n)
  | float x => some (x.render layout)
  | infinite negative => some (if negative then "-inf" else "inf")
  | notANumber => some "NaN"
  | text s => some s

end Scalar

/-- What stands where something else is due. -/
inductive Unexpected where
  | scalar (s : Scalar)
  | unsigned (n : Nat)
  | list
  | table
  deriving DecidableEq

namespace Unexpected

/-- The narrowest of the words that hold a whole number. -/
def word (n : Int) : String :=
  if Word.FitsSigned 63 n then "64-bit integer"
  else if Word.Fits 64 n then "64-bit unsigned integer"
  else if n < 0 then "128-bit integer"
  else "128-bit unsigned integer"

def describe : Unexpected → String
  | scalar .null => "unit value"
  | scalar (.bool b) => "boolean `" ++ toString b ++ "`"
  | scalar (.int n) => word n ++ " `" ++ toString n ++ "`"
  | scalar (.text s) => "string " ++ Text.quoted s
  | scalar s => "floating point `" ++ s.render?.getD "" ++ "`"
  | unsigned n => "64-bit unsigned integer `" ++ toString n ++ "`"
  | list => "sequence"
  | table => "map"

end Unexpected

namespace Entry

def origin : Entry → Option String
  | scalar o _ => o
  | list o _ => o
  | table o _ => o

def unexpected : Entry → Unexpected
  | scalar _ s => .scalar s
  | list _ _ => .list
  | table _ _ => .table

def empty : Entry := table none []

mutual

/-- A value as an entry; `number` says how numbers are kept. -/
def ofJson (number : Number → Scalar) (origin : Option String) : Json → Entry
  | .null => scalar origin .null
  | .bool b => scalar origin (.bool b)
  | .number n => scalar origin (number n)
  | .text s => scalar origin (.text s)
  | .list items => list origin (ofItems number origin items)
  | .object members => table origin (ofMembers number origin members)

def ofItems (number : Number → Scalar) (origin : Option String) : List Json → List Entry
  | [] => []
  | v :: rest => ofJson number origin v :: ofItems number origin rest

def ofMembers (number : Number → Scalar) (origin : Option String) :
    List (String × Json) → List (String × Entry)
  | [] => []
  | (k, v) :: rest => (k, ofJson number origin v) :: ofMembers number origin rest

end

def membersOf : Entry → List (String × Entry)
  | table _ members => members
  | _ => []

def itemsOf : Entry → List Entry
  | list _ items => items
  | _ => []

def get? (key : String) (e : Entry) : Option Entry := getMember? key e.membersOf

/-- Replaces the entry of a key by what is made of it; other than a table becomes one. -/
def change (key : String) (f : Option Entry → Entry) : Entry → Entry
  | table o members => table o (putMember key (f (getMember? key members)) members)
  | _ => table none [(key, f none)]

mutual

/-- The entry that takes the place of an old one: tables are merged, all else replaces. -/
def mergeInto : Entry → Option Entry → Entry
  | table _ members, old => mergeMembers members (old.getD empty)
  | scalar o s, _ => scalar o s
  | list o items, _ => list o items

def mergeMembers : List (String × Entry) → Entry → Entry
  | [], old => old
  | (k, v) :: rest, old => mergeMembers rest (old.change (Text.lowercase k) (mergeInto v))

end

/-- Where a path goes from an entry. -/
inductive Step where
  | field (key : String)
  | item (index : Int)
  deriving DecidableEq, Repr

/-- A negative index counts from the end. -/
def position (index : Int) (length : Nat) : Nat :=
  if 0 ≤ index then index.toNat else length - index.natAbs

/-- The items of a list with the one at `i` set; those before it that are missing are `null`. -/
def setItem (i : Nat) (value : Entry) (items : List Entry) : List Entry :=
  (items ++ List.replicate (i + 1 - items.length) (scalar none .null)).set i value

/-- The entry with `value` set at the end of a path. -/
def assign (value : Entry) : List Step → Option Entry → Entry
  | [], old => value.mergeInto old
  | .field key :: rest, old =>
    (old.getD empty).change (Text.lowercase key) (assign value rest)
  | .item index :: rest, old =>
    let o := match old with
      | some (list o _) => o
      | _ => none
    let items := (old.map itemsOf).getD []
    let i := position index items.length
    let new := if rest = [] then value else assign value rest items[i]?
    list o (setItem i new items)

end Entry

end HotSwap

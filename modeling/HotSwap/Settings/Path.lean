import HotSwap.Decimal.Digits
import HotSwap.Decimal.Word
import HotSwap.Settings.Entry

/-!
# Paths into a configuration

A path is a name and then names behind points and indices in brackets.
-/

namespace HotSwap

structure Path where
  head : String
  steps : List Entry.Step
  deriving DecidableEq, Repr

namespace Path

inductive Refusal where
  | name
  | mark
  | digit
  | index
  deriving DecidableEq, Repr

def Refusal.message : Refusal → String
  | name => "IsA"
  | mark => "Char"
  | digit => "Digit"
  | index => "Map on Result"

def isNameChar (c : Char) : Bool := c.isAlphanum || c == ' ' || c == '_' || c == '-'

/-- A character that may stand around an index. -/
def isSpace (c : Char) : Bool := c == ' ' || c == '\t'

def name (s : List Char) : Option (String × List Char) :=
  match s.takeWhile isNameChar with
  | [] => none
  | cs => some (String.ofList cs, s.dropWhile isNameChar)

/-- An index and its closing bracket. -/
def index (s : List Char) : Except Refusal (Int × List Char) :=
  let s := s.dropWhile isSpace
  let negative := s.head? = some '-'
  let s := if negative then s.drop 1 else s
  let digits := s.takeWhile Char.isDigit
  if digits = [] then .error .digit
  else
    let n := Digits.signedValue negative digits
    if ¬ Word.FitsSigned 63 n then .error .index
    else
      match (s.dropWhile Char.isDigit).dropWhile isSpace with
      | ']' :: rest => .ok (n, rest)
      | _ => .error .mark

def step (s : List Char) : Except Refusal (Entry.Step × List Char) :=
  match s with
  | '.' :: rest =>
    match name rest with
    | some (key, rest) => .ok (.field key, rest)
    | none => .error .mark
  | '[' :: rest => do
    let (i, rest) ← index rest
    return (.item i, rest)
  | _ => .error .mark

/-- The steps that a text of at most `length` characters spells. -/
def stepsOf : Nat → List Char → Except Refusal (List Entry.Step)
  | _, [] => .ok []
  | 0, _ => .error .mark
  | length + 1, s => do
    let (first, rest) ← step s
    return first :: (← stepsOf length rest)

def parse (text : String) : Except Refusal Path :=
  match name text.toList with
  | none => .error .name
  | some (head, rest) => do return ⟨head, ← stepsOf rest.length rest⟩

/-- The path that a key of a source stands for: one that is malformed is a plain name. -/
def ofKey (key : String) : Path :=
  match parse key with
  | .ok p => p
  | .error _ => ⟨key, []⟩

/-- The configuration with a value set at this path. -/
def set (p : Path) (value root : Entry) : Entry :=
  root.change (Text.lowercase p.head) (Entry.assign value p.steps)

end Path

end HotSwap

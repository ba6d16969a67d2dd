import HotSwap.Graphql.Document

/-!
# Fields under one key

Selections on one type may name a response key more than once, in fragments too, if they mean the
same field with the same arguments.
-/

namespace HotSwap.Graphql

namespace Value

mutual

/-- Whether two values are written alike, blanks apart. -/
def agrees : Value → Value → Bool
  | .variable a, .variable b => a == b
  | .null, .null => true
  | .bool a, .bool b => a == b
  | .number a, .number b => a == b
  | .text a, .text b => a == b
  | .word a, .word b => a == b
  | .list a, .list b => agreesItems a b
  | .object a, .object b => agreesMembers a b
  | _, _ => false

def agreesItems : List Value → List Value → Bool
  | [], [] => true
  | a :: as, b :: bs => agrees a b && agreesItems as bs
  | _, _ => false

def agreesMembers : List (String × Value) → List (String × Value) → Bool
  | [], [] => true
  | (k, a) :: as, (l, b) :: bs => k == l && agrees a b && agreesMembers as bs
  | _, _ => false

end

end Value

namespace Overlap

/-- A field with the type that a fragment around it asks for. -/
structure Use where
  type : Option String
  key : String
  name : String
  place : Place
  arguments : List Argument

inductive Piece where
  | use (u : Use)
  | spread (fragment : String)

inductive Cause where
  | fields (key first second : String)
  /-- The name is the key if the numbers of arguments differ, else that of the argument. -/
  | arguments (name : String)
  deriving DecidableEq, Repr

structure Clash where
  first : Place
  second : Place
  cause : Cause
  deriving DecidableEq, Repr

mutual

def piece (type : Option String) : Selection → List Piece
  | .field place key name args _ _ => [.use ⟨type, key, name, place, args⟩]
  | .spread _ name _ => [.spread name]
  | .inline _ t _ inner => pieces t inner

/-- Fields and spreads of one level, those of inline fragments in their place. -/
def pieces (type : Option String) : List Selection → List Piece
  | [] => []
  | s :: rest => piece type s ++ pieces type rest

end

/-- The fields of pieces, each fragment entered once and at most `depth` deep; with them the
fragments entered. -/
def uses (doc : Document) : Nat → List String → List Piece → List Use × List String
  | 0, entered, _ => ([], entered)
  | depth + 1, entered, ps =>
    ps.foldl (fun (found, entered) p =>
      match p with
      | .use u => (found ++ [u], entered)
      | .spread name =>
        if name ∈ entered then (found, entered)
        else
          match doc.fragments.find? (·.name = name) with
          | none => (found, entered)
          | some f =>
            let inner := uses doc depth (name :: entered) (pieces (some f.type) f.selections)
            (found ++ inner.1, inner.2)) ([], entered)

def causes (a b : Use) : List Cause :=
  (if a.name = b.name then [] else [.fields a.key a.name b.name]) ++
    (if a.arguments.length = b.arguments.length then [] else [.arguments a.key]) ++
    a.arguments.filterMap fun x =>
      match b.arguments.find? (·.name = x.name) with
      | some y => if x.value.agrees y.value then none else some (.arguments x.name)
      | none => some (.arguments x.name)

/-- Each use against the first one under its key. -/
def clashesOf : List Use → List Use → List Clash
  | _, [] => []
  | firsts, u :: rest =>
    match firsts.find? fun f => f.type = u.type ∧ f.key = u.key with
    | some f => (causes f u).map (⟨f.place, u.place, ·⟩) ++ clashesOf firsts rest
    | none => clashesOf (u :: firsts) rest

def clashes (doc : Document) (selections : List Selection) : List Clash :=
  clashesOf [] (uses doc (doc.fragments.length + 1) [] (pieces none selections)).1

end Overlap

end HotSwap.Graphql

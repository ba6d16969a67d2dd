import HotSwap.Server.Journal
import HotSwap.Text.Blank
import HotSwap.Text.Lowercase

/-!
# Which lines are logged

A filter has directives, set apart by commas, each for the parts of the program whose names start in
some way. For each part the most specific directive counts.
-/

namespace HotSwap.CommandLine

structure Directive where
  /-- What the names of the parts start with. -/
  target : String
  /-- The rank of the least severe level that is logged. -/
  rank : Nat
  deriving DecidableEq, Repr

abbrev LogFilter := List Directive

inductive DirectiveFault where
  | form
  | character
  | level
  deriving DecidableEq, Repr

namespace DirectiveFault

def message : DirectiveFault → String
  | form => "invalid filter directive"
  | character => "invalid filter directive: invalid target character"
  | level =>
    "error parsing level filter: expected one of \"off\", \"error\", \"warn\", \"info\", " ++
      "\"debug\", \"trace\", or a number 0-5"

end DirectiveFault

namespace Directive

def everything : Nat := 5

def levelNames : List String := ["off", "error", "warn", "info", "debug", "trace"]

/-- The rank that a name or a digit stands for. -/
def rank? (s : String) : Option Nat :=
  if s = "" then some 1
  else
    match levelNames.idxOf? (Text.lowercase s) with
    | some n => some n
    | none => s.toNat?.filter (· ≤ everything)

def inTarget (c : Char) : Bool := c.isAlphanum || c ∈ ['-', ':', '_']

def trimmed (s : String) : List Char :=
  (Text.dropBlanks (Text.dropBlanks s.toList).reverse).reverse

/-- A level alone, a part alone, or a part with a level. -/
def parse (s : String) : Except DirectiveFault Directive :=
  let cs := trimmed s
  match cs with
  | [] => .error .form
  | c :: _ =>
    if ¬ inTarget c then .error (if c = '[' then .form else .character)
    else
      let target := String.ofList (cs.takeWhile (· ≠ '='))
      match cs.dropWhile (· ≠ '=') with
      | [] =>
        match rank? target with
        | some rank => .ok ⟨"", rank⟩
        | none => .ok ⟨target, everything⟩
      | _ :: level =>
        if level = [] then .ok ⟨target, everything⟩
        else
          match rank? (String.ofList level) with
          | some rank => .ok ⟨target, rank⟩
          | none => .error .level

def Concerns (d : Directive) (part : String) : Prop := d.target.toList <+: part.toList

instance (d : Directive) (part : String) : Decidable (d.Concerns part) :=
  inferInstanceAs (Decidable (_ <+: _))

end Directive

namespace LogFilter

def texts (s : String) : List String := (s.splitOn ",").filter (· ≠ "")

def strict (s : String) : Except DirectiveFault LogFilter := (texts s).mapM Directive.parse

/-- The directives that can be read, and what is said of the others. -/
def lenient (s : String) : LogFilter × List String :=
  (texts s).foldr (fun t (ds, said) =>
    match Directive.parse t with
    | .ok d => (d :: ds, said)
    | .error fault => (ds, ("ignoring `" ++ t ++ "`: " ++ fault.message) :: said)) ([], [])

/-- The latest of the longest directives that concern the part. -/
def rankFor (f : LogFilter) (part : String) : Nat :=
  (f.foldl (fun (best : Option Directive) d =>
    if ¬ d.Concerns part then best
    else
      match best with
      | some b => if d.target.length < b.target.length then best else some d
      | none => some d) none).elim 0 Directive.rank

/-- The parts of the program that log. -/
def parts : List String := [
  "devserve",
  "devserve::engine::registry",
  "devserve::engine::reload",
  "devserve::server::graphql",
  "devserve::server::signals"]

/-- Whether any part of the program logs at the level. -/
def Reports (f : LogFilter) (level : Level) : Prop := ∃ part ∈ parts, level.rank ≤ f.rankFor part

instance (f : LogFilter) (level : Level) : Decidable (f.Reports level) :=
  inferInstanceAs (Decidable (∃ part ∈ parts, _))

def variableName : String := "RUST_LOG"

/-- The filter of the environment counts before the one of the options. What cannot be read of the
latter is passed over. -/
def choose (environment : Option String) (option : String) : LogFilter × List String :=
  match environment.map strict with
  | some (.ok f) => (f, [])
  | _ => lenient option

end LogFilter

end HotSwap.CommandLine

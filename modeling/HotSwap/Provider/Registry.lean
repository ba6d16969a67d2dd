import HotSwap.Engine.Basic
import HotSwap.Provider.Descriptor
import HotSwap.Provider.Failure

/-!
# Provider candidates

Candidates are registered in order. A discovery looks at those whose names are in scope, passes
over what is only declared, and needs exactly one that can be made.
-/

namespace HotSwap

/-- How making something ends. -/
inductive Making (α : Type) where
  | made (a : α)
  | failed (e : ConstructionError)
  | panic (p : Payload)

/-- How one provider is made and what becomes of the engine it is asked for. -/
structure Recipe where
  /-- Its calls are noted. -/
  noted : Bool
  construction : Making Unit
  tag : Nat
  gate : Option Gate
  engine : Making Engine
  /-- The engine is made once and given every time. -/
  shared : Bool

/-- A constructor, told how often it was called before. -/
structure Constructor where
  id : Nat
  recipe : Nat → Context → Recipe

inductive CandidateKind where
  | provider (constructor : Constructor)
  | declared (implementsProvider hasDefaultConstructor : Bool)

structure Candidate where
  name : String
  kind : CandidateKind

namespace Candidate

def ofDescriptor (d : Descriptor) : Candidate :=
  ⟨d.name, .declared d.implementsProvider d.hasDefaultConstructor⟩

def descriptor (c : Candidate) : Descriptor :=
  match c.kind with
  | .provider _ => ⟨c.name, true, true⟩
  | .declared implementsProvider hasDefaultConstructor =>
    ⟨c.name, implementsProvider, hasDefaultConstructor⟩

def constructor? (c : Candidate) : Option Constructor :=
  match c.kind with
  | .provider k => some k
  | .declared _ _ => none

/-- Why a declared candidate is passed over. -/
def skipped? (c : Candidate) : Option String :=
  match c.kind with
  | .provider _ => none
  | .declared false _ =>
    some ("Skipping " ++ c.name ++ ": declared as a provider but does not implement " ++ capability)
  | .declared true _ =>
    some ("Skipping " ++ c.name ++ ": no no-argument constructor. " ++ capability ++
      " implementations must be constructible without arguments.")

end Candidate

structure Registry where
  candidates : List Candidate
  /-- What the names in scope start with; all are, if this is empty. -/
  accepted : List String

namespace Registry

def empty : Registry := ⟨[], []⟩

def register (r : Registry) (c : Candidate) : Registry :=
  { r with candidates := r.candidates ++ [c] }

def accept (r : Registry) (starts : List String) : Registry := { r with accepted := starts }

def size (r : Registry) : Nat := r.candidates.length

def InScope (r : Registry) (name : String) : Prop :=
  r.accepted = [] ∨ ∃ start ∈ r.accepted, start.toList <+: name.toList

instance (r : Registry) (name : String) : Decidable (r.InScope name) :=
  inferInstanceAs (Decidable (r.accepted = [] ∨ ∃ start ∈ r.accepted, _))

def inScope (r : Registry) : List Candidate := r.candidates.filter fun c => r.InScope c.name

def scan (r : Registry) : List Descriptor := r.inScope.map Candidate.descriptor

/-- The warnings of a discovery. -/
def warnings (r : Registry) : List String := r.inScope.filterMap Candidate.skipped?

def eligible (r : Registry) : List (String × Constructor) :=
  r.inScope.filterMap fun c => c.constructor?.map fun k => (c.name, k)

/-- The one constructor that can be called, under its name. -/
def discover (r : Registry) : Except DiscoveryError (String × Constructor) :=
  match r.eligible with
  | [] => .error (.notFound capability)
  | [found] => .ok found
  | many => .error (.ambiguous capability (many.map (·.1)))

def render (r : Registry) : String :=
  Text.braced "ProviderRegistry" [
    ("candidates", Text.bracketed (r.scan.map Descriptor.render)),
    ("accept_prefixes", Text.bracketed (r.accepted.map Text.quoted))]

end Registry

end HotSwap

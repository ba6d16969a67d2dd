import HotSwap.Graphql.Request
import HotSwap.Graphql.Response

/-!
# Engines

An engine executes requests and is released once it is out of use. Either may have to wait at a
gate, which lets one call pass for each permit.
-/

namespace HotSwap

/-- What a panic carries. -/
inductive Payload where
  | text (s : String)
  | other
  deriving DecidableEq, Repr

inductive Outcome where
  | response (r : Graphql.Response)
  | failure (kind message : String)
  | panic (p : Payload)

inductive ReleaseOutcome where
  | released
  | failed (message : String)
  | panic (p : Payload)
  deriving DecidableEq, Repr

/-- Which of its calls an engine notes. -/
inductive Noted where
  | nothing
  /-- That it was called. -/
  | calls
  /-- What it was called with. -/
  | requests
  deriving DecidableEq, Repr

abbrev Gate := String

structure Engine where
  tag : Nat
  noted : Noted
  execute : Graphql.Request → Outcome
  gate : Option Gate
  release : ReleaseOutcome
  releaseGate : Option Gate

/-- The kind of an execution error that names none. -/
def internalKind : String := "InternalError"

def releaseFailure (message : String) : String := "Failed to release engine resources: " ++ message

namespace Engine

/-- An engine that owns nothing, waits for nothing and notes nothing. -/
def pure (tag : Nat) (execute : Graphql.Request → Outcome) : Engine :=
  ⟨tag, .nothing, execute, none, .released, none⟩

end Engine

end HotSwap

import HotSwap.Engine.Basic
import HotSwap.Graphql.Reply

/-!
# Engines over schemas

A request is put to a schema, and its reply made a response.
-/

namespace HotSwap.Engine

open Graphql

variable {L : Library}

/-- The kind of the error of data that cannot be written as JSON. -/
def serializationKind : String := "SerializationError"

def outcomeOf (reply : L.Reply) : Outcome :=
  match L.write reply.data with
  | .ok data => .response ⟨data, reply.errors.map Library.Error.toError⟩
  | .error reason => .failure serializationKind reason

/-- What comes of a request that is put to a schema. -/
def ask {M : Type → Type} [Monad M] (schema : L.Inquiry → M L.Reply) (r : Request) : M Outcome := do
  let reply ← schema (.ofRequest r)
  return outcomeOf reply

end HotSwap.Engine

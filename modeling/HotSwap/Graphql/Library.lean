import HotSwap.Graphql.Request
import HotSwap.Graphql.Token

/-!
# Libraries of schemas

A schema belongs to a library that has values of its own. It is asked with an inquiry, and replies
with data and errors, whose places and paths are lists, empty if there are none.
-/

namespace HotSwap.Graphql

/-- The values of a library, and how they are read from JSON and written as it. -/
structure Library where
  Value : Type
  /-- The data of a reply that has none. -/
  null : Value
  /-- Fails with the reason. -/
  write : Value → Except String Json
  /-- Values by the names of variables. -/
  Variables : Type
  readVariables : Json → Variables
  /-- What else is known of an error, by keys. -/
  Extensions : Type
  writeExtensions : Extensions → Except String Json

/-- A step to a value in the data. -/
inductive Segment where
  | field (name : String)
  | index (i : Nat)
  deriving DecidableEq, Repr

structure Library.Inquiry (L : Library) where
  query : String
  operationName : Option String
  values : L.Variables

structure Library.Error (L : Library) where
  message : String
  places : List Place
  path : List Segment
  extensions : Option L.Extensions

structure Library.Reply (L : Library) where
  data : L.Value
  errors : List L.Error

namespace Library

variable {L : Library}

def Inquiry.named (q : L.Inquiry) (name : String) : L.Inquiry :=
  { q with operationName := some name }

def Error.ofMessage (message : String) : L.Error := ⟨message, [], [], none⟩

def Reply.ofErrors (errors : List L.Error) : L.Reply := ⟨L.null, errors⟩

/-- The library whose values are JSON. -/
@[reducible] def json : Library where
  Value := Json
  null := .null
  write := .ok
  Variables := Json.Members
  readVariables
    | .object members => members
    | _ => []
  Extensions := Json.Members
  writeExtensions members := .ok (.object members)

end Library

abbrev Inquiry := Library.json.Inquiry

abbrev ReplyError := Library.json.Error

abbrev Reply := Library.json.Reply

end HotSwap.Graphql

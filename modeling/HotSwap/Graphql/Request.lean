import HotSwap.Json.Printer
import HotSwap.Json.Record

/-!
# GraphQL requests

A request names a query text, the values of its variables and, if the text holds several
operations, the one to run.
-/

namespace HotSwap.Graphql

structure Request where
  query : String
  /-- Of the variables. -/
  values : Json.Members
  operationName : Option String

namespace Request

/-- The operation that asks for the schema. -/
def introspectionName : String := "IntrospectionQuery"

def Introspects (r : Request) : Prop := r.operationName = some introspectionName

instance (r : Request) : Decidable r.Introspects :=
  inferInstanceAs (Decidable (r.operationName = some introspectionName))

/-- The operation name is left out if there is none. -/
def toJson (r : Request) : Json :=
  .object <| [("query", .text r.query), ("variables", .object r.values)] ++
    r.operationName.toList.map fun name => ("operationName", .text name)

structure Draft where
  query : Option String
  values : Option Json.Members
  operationName : Option (Option String)

/-- Only the query has to be there; variables that are `null` are none. -/
def shape : Json.Record Draft Request where
  name := "ExecutionInput"
  fields := [
    { key := "query"
      optional := false
      given := fun d => d.query.isSome
      read := fun d _ => do return { d with query := some (← Json.Reader.text "a string") } },
    { key := "variables"
      optional := true
      given := fun d => d.values.isSome
      read := fun d depth => do
        let given ← Json.Reader.option Json.Reader.members depth
        return { d with values := some (given.getD []) } },
    { key := "operationName"
      optional := true
      given := fun d => d.operationName.isSome
      read := fun d depth => do
        let given ← Json.Reader.option (fun _ => Json.Reader.text "a string") depth
        return { d with operationName := some given } }]
  blank := ⟨none, none, none⟩
  finish := fun d => do
    let query ← Json.required "query" d.query
    return ⟨query, d.values.getD [], d.operationName.join⟩

def reader : Json.Reader Request := shape.reader

/-- The request that the body of a message spells. -/
def parse (body : Bytes) : Except Json.ReadError Request := reader.read body

end Request

end HotSwap.Graphql

import HotSwap.Graphql.Document
import HotSwap.Graphql.Response

/-!
# Schemas

A schema has object types, whose fields are resolved from the object that they belong to and from
their arguments. Other types are scalars.
-/

namespace HotSwap.Graphql

/-- What a field turns out to be. -/
inductive Resolved where
  | leaf (v : Json)
  | object (source : Json)
  | list (items : List Resolved)
  | failure (message : String) (extensions : Option Json.Members)

structure Parameter where
  name : String
  type : TypeRef
  default : Option Json

structure FieldDefinition where
  name : String
  parameters : List Parameter
  type : TypeRef
  resolve : Json → Json.Members → Resolved

structure ObjectType where
  name : String
  fields : List FieldDefinition

structure Schema where
  query : ObjectType
  objects : List ObjectType

namespace Schema

def typeFields : List FieldDefinition := [
  ⟨"name", [], .named "String", fun source _ => .leaf ((source.member? "name").getD .null)⟩,
  ⟨"kind", [], .required (.named "String"), fun _ _ => .leaf (.text "OBJECT")⟩]

/-- The fields that tell of a schema; they belong to its query type, but are not listed there. -/
def metaField (s : Schema) : FieldDefinition :=
  ⟨"__schema", [], .required (.named "__Schema"), fun _ _ =>
    .object (.object [("query", .text s.query.name)])⟩

def metaTypes : List ObjectType := [
  ⟨"__Schema", [
    ⟨"queryType", [], .required (.named "__Type"), fun source _ =>
      .object (.object [("name", (source.member? "query").getD .null)])⟩,
    ⟨"mutationType", [], .named "__Type", fun _ _ => .leaf .null⟩,
    ⟨"subscriptionType", [], .named "__Type", fun _ _ => .leaf .null⟩]⟩,
  ⟨"__Type", typeFields⟩]

def object? (s : Schema) (name : String) : Option ObjectType :=
  (s.query :: s.objects ++ metaTypes).find? (·.name = name)

def isKnown (s : Schema) (name : String) : Bool :=
  (s.object? name).isSome || name ∈ ["Int", "Float", "String", "Boolean", "ID"]

def field? (s : Schema) (type name : String) : Option FieldDefinition :=
  match s.object? type with
  | none => none
  | some t =>
    match t.fields.find? (·.name = name) with
    | some f => some f
    | none => if type = s.query.name ∧ name = "__schema" then some s.metaField else none

end Schema

namespace Value

mutual

/-- A JSON value as a value of the query language. -/
def ofJson : Json → Value
  | .null => null
  | .bool b => bool b
  | .number n => number n
  | .text s => text s
  | .list items => list (ofItems items)
  | .object members => object (ofMembers members)

def ofItems : List Json → List Value
  | [] => []
  | v :: rest => ofJson v :: ofItems rest

def ofMembers : List (String × Json) → List (String × Value)
  | [] => []
  | (k, v) :: rest => (k, ofJson v) :: ofMembers rest

end

mutual

/-- The JSON value, with variables taken from `given`; words are texts. -/
def toJson (given : String → Json) : Value → Json
  | .variable name => given name
  | .null => .null
  | .bool b => .bool b
  | .number n => .number n
  | .text s => .text s
  | .word s => .text s
  | .list items => .list (toItems given items)
  | .object members => .object (toMembers given members)

def toItems (given : String → Json) : List Value → List Json
  | [] => []
  | v :: rest => toJson given v :: toItems given rest

def toMembers (given : String → Json) : List (String × Value) → List (String × Json)
  | [] => []
  | (k, v) :: rest => (k, toJson given v) :: toMembers given rest

end

end Value

end HotSwap.Graphql

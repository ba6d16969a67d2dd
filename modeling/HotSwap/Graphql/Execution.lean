import HotSwap.Decimal.Word
import HotSwap.Graphql.Validation

/-!
# Execution of requests

A request is executed against a schema: its document is read and validated, its operation chosen,
and the selected fields are resolved. The first field that fails leaves no data.
-/

namespace HotSwap.Graphql

namespace Execution

structure Scope where
  schema : Schema
  document : Document
  operation : Operation
  given : Json.Members

def failure (place : Place) (path : List Segment) (message : String)
    (extensions : Option Json.Members) : ReplyError :=
  ⟨message, [place], path, extensions⟩

/-- The value of a variable, or of its default. -/
def bound? (scope : Scope) (name : String) : Option Json :=
  (scope.operation.definitions.find? (·.name = name)).bind fun d =>
    match getMember? name scope.given with
    | some v => some v
    | none =>
      match d.default, d.type with
      | some v, _ => some (v.toJson fun _ => .null)
      | none, .required _ => none
      | none, _ => some .null

def evaluate (scope : Scope) (path : List Segment) (place : Place) (v : Value) :
    Except ReplyError Json :=
  match (Validation.variablesOf v).find? fun name => (bound? scope name).isNone with
  | some name => .error (failure place path ("Variable " ++ name ++ " is not defined.") none)
  | none => .ok (v.toJson fun name => (bound? scope name).getD .null)

/-- Why a value is none of a scalar type. -/
def unfit? (type : TypeRef) (v : Json) : Option String :=
  match type.base, v with
  | "Int", .number (.int n) =>
    if Word.FitsSigned 31 n then none
    else some "Failed to parse \"Int\": Only integers from -2147483648 to 2147483647 are accepted."
  | base, .null =>
    match type with
    | .required _ => some ("Failed to parse \"" ++ base ++ "\": Expected input type \"" ++ base ++
        "\", found null.")
    | _ => none
  | _, _ => none

def parameter (scope : Scope) (path : List Segment) (place : Place) (args : List Argument)
    (p : Parameter) : Except ReplyError (String × Json) :=
  match args.find? (·.name = p.name) with
  | some a => do
    let v ← evaluate scope path a.valuePlace a.value
    match unfit? p.type v with
    | some reason => throw (failure a.valuePlace path reason none)
    | none => return (p.name, v)
  | none =>
    match p.default with
    | some v => .ok (p.name, v)
    | none =>
      match unfit? p.type .null with
      | some reason => .error (failure place path reason none)
      | none => .ok (p.name, .null)

/-- Whether the directives of a selection leave it in. -/
def included (scope : Scope) (path : List Segment) : List Directive → Except ReplyError Bool
  | [] => .ok true
  | d :: rest => do
    let keep ← match d.arguments.find? (·.name = "if") with
      | some a =>
        match ← evaluate scope path a.valuePlace a.value with
        | .bool b => pure (if d.name = "skip" then !b else b)
        | _ => pure true
      | none => pure true
    if keep then included scope path rest else return false

mutual

/-- A resolved value as data; `inner` resolves the selections of an object. -/
def complete (place : Place) (inner : List Segment → Json → Except ReplyError Json.Members) :
    List Segment → Resolved → Except ReplyError Json
  | _, .leaf v => .ok v
  | path, .object source => (inner path source).map .object
  | path, .failure message extensions => .error (failure place path message extensions)
  | path, .list items => (completeItems place inner path 0 items).map .list

def completeItems (place : Place)
    (inner : List Segment → Json → Except ReplyError Json.Members) :
    List Segment → Nat → List Resolved → Except ReplyError (List Json)
  | _, _, [] => .ok []
  | path, i, r :: rest => do
    let v ← complete place inner (path ++ [.index i]) r
    return v :: (← completeItems place inner path (i + 1) rest)

end

mutual

/-- What two fields under one key come to: objects are joined, and other values stay. -/
def joined (old : Json) : Json → Json
  | .object members =>
    match old with
    | .object olds => .object (joinedMembers olds members)
    | v => v
  | .list items =>
    match old with
    | .list olds => .list (joinedItems olds items)
    | v => v
  | _ => old

def joinedItems : List Json → List Json → List Json
  | v :: olds, w :: rest => joined v w :: joinedItems olds rest
  | olds, _ => olds

def joinedMembers (olds : Json.Members) : List (String × Json) → Json.Members
  | [] => olds
  | (k, v) :: rest =>
    let value := match getMember? k olds with
      | some old => joined old v
      | none => v
    joinedMembers (putMember k value olds) rest

end

/-- The data of selections on an object, nested at most `depth` deep. -/
def select (scope : Scope) : Nat → String → Json → List Segment → List Selection →
    Json.Members → Except ReplyError Json.Members
  | 0, _, _, _, _, data => .ok data
  | _, _, _, _, [], data => .ok data
  | depth + 1, type, source, path, s :: rest, data => do
    let data ← match s with
      | .field place key name args ds inner => do
        let path := path ++ [.field key]
        if ← included scope path ds then
          if name = "__typename" then pure (joinedMembers data [(key, .text type)])
          else
            match scope.schema.field? type name with
            | none => pure data
            | some f => do
              let values ← f.parameters.mapM (parameter scope path place args)
              let v ← complete place
                (fun path source => select scope depth f.type.base source path inner [])
                path (f.resolve source values)
              pure (joinedMembers data [(key, v)])
        else pure data
      | .spread _ name ds => do
        if ← included scope path ds then
          match scope.document.fragments.find? (·.name = name) with
          | some f =>
            if f.type = type then select scope depth type source path f.selections data
            else pure data
          | none => pure data
        else pure data
      | .inline _ t ds inner => do
        if (← included scope path ds) ∧ (t.getD type) = type then
          select scope depth type source path inner data
        else pure data
    select scope depth type source path rest data

def choose (doc : Document) (name : Option String) : Except String Operation :=
  match name with
  | some n =>
    match doc.operations.find? (·.name = some n) with
    | some o => .ok o
    | none => .error ("Unknown operation named \"" ++ n ++ "\"")
  | none =>
    match doc.operations with
    | [o] => .ok o
    | _ => .error "Operation name required in request."

/-- The line of a text that stops to be a document, with a mark under the place. -/
def excerpt (query : String) (p : Place) : String :=
  let line := ((query.splitOn "\n")[p.line - 1]?).getD ""
  let margin := String.ofList (List.replicate (toString p.line).length ' ')
  margin ++ "--> " ++ toString p.line ++ ":" ++ toString p.column ++ "\n" ++
    margin ++ " |\n" ++ toString p.line ++ " | " ++ line ++ "\n" ++ margin ++ " | " ++
    String.ofList (List.replicate (p.column - 1) ' ') ++ "^---\n" ++ margin ++ " |\n" ++ margin ++
    " = expected executable_definition"

def documentError (query : String) : DocumentFault → ReplyError
  | .text p => Validation.complaint [p] (excerpt query p)
  | .noOperation => Validation.complaint [] "document does not contain an operation"
  | .severalOperations anonymous other =>
    Validation.complaint [anonymous, other] "document contains multiple operations"
  | .operationTwice name first second =>
    Validation.complaint [second, first] ("operation " ++ name ++ " is defined twice")
  | .fragmentTwice name first second =>
    Validation.complaint [second, first] ("fragment " ++ name ++ " is defined twice")

/-- The reply of a schema to an inquiry. -/
def reply (schema : Schema) (q : Inquiry) : Reply :=
  match Document.parse q.query with
  | .error fault => .ofErrors [documentError q.query fault]
  | .ok doc =>
    match Validation.errors schema doc q.values with
    | e :: rest => .ofErrors (e :: rest)
    | [] =>
      match choose doc q.operationName with
      | .error message => .ofErrors [.ofMessage message]
      | .ok o =>
        let scope : Scope := ⟨schema, doc, o, q.values⟩
        let depth := 2 * q.query.length + 2
        match select scope depth schema.query.name .null [] o.selections [] with
        | .ok data => ⟨.object data, []⟩
        | .error e => .ofErrors [e]

end Execution

end HotSwap.Graphql

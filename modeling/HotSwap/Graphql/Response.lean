import HotSwap.Decimal.Word
import HotSwap.Json.Printer
import HotSwap.Json.Record

/-!
# GraphQL responses

A response has data and errors, both always written. An error has all of its four members, `null`
where it has no value; an entry of an error body has only those that carry one.
-/

namespace HotSwap.Graphql

structure Location where
  line : Nat
  column : Nat
  deriving DecidableEq, Repr

inductive PathSegment where
  | field (name : String)
  | index (i : Nat)
  deriving DecidableEq, Repr

structure Error where
  message : String
  locations : Option (List Location)
  path : Option (List PathSegment)
  extensions : Option Json.Members

structure Response where
  data : Json
  errors : List Error

structure ErrorEntry where
  message : String
  extensions : Option Json.Members

structure ErrorBody where
  errors : List ErrorEntry

/-- The natural numbers of a line, a column or an index. -/
def readNat : Json.Scan Nat := Json.Reader.natBelow (Word.count 64) "usize"

namespace Location

def toJson (l : Location) : Json := .object [("line", .nat l.line), ("column", .nat l.column)]

structure Draft where
  line : Option Nat
  column : Option Nat

def shape : Json.Record Draft Location where
  name := "Location"
  fields := [
    { key := "line"
      optional := false
      given := fun d => d.line.isSome
      read := fun d _ => do return { d with line := some (← readNat) } },
    { key := "column"
      optional := false
      given := fun d => d.column.isSome
      read := fun d _ => do return { d with column := some (← readNat) } }]
  blank := ⟨none, none⟩
  finish := fun d => do return ⟨← Json.required "line" d.line, ← Json.required "column" d.column⟩

def reader : Json.Reader Location := shape.reader

end Location

namespace PathSegment

def toJson : PathSegment → Json
  | field name => .text name
  | index i => .nat i

/-- Text is a field, a natural number an index. -/
def reader : Json.Reader PathSegment := fun depth => do
  match ← Json.Reader.value depth with
  | .text name => return field name
  | .number (.int n) =>
    if 0 ≤ n then return index n.toNat else Json.Scan.reject (.noVariant "PathSegment")
  | _ => Json.Scan.reject (.noVariant "PathSegment")

end PathSegment

namespace Error

def ofMessage (message : String) : Error := ⟨message, none, none, none⟩

def withLocations (e : Error) (ls : List Location) : Error := { e with locations := some ls }

def withPath (e : Error) (path : List PathSegment) : Error := { e with path := some path }

def withExtension (e : Error) (key : String) (value : Json) : Error :=
  { e with extensions := some (putMember key value (e.extensions.getD [])) }

def toJson (e : Error) : Json :=
  .object [
    ("message", .text e.message),
    ("locations", .ofOption (fun ls => .list (ls.map Location.toJson)) e.locations),
    ("path", .ofOption (fun ps => .list (ps.map PathSegment.toJson)) e.path),
    ("extensions", .ofOption .object e.extensions)]

structure Draft where
  message : Option String
  locations : Option (Option (List Location))
  path : Option (Option (List PathSegment))
  extensions : Option (Option Json.Members)

def shape : Json.Record Draft Error where
  name := "GraphQLError"
  fields := [
    { key := "message"
      optional := false
      given := fun d => d.message.isSome
      read := fun d _ => do return { d with message := some (← Json.Reader.text "a string") } },
    { key := "locations"
      optional := true
      given := fun d => d.locations.isSome
      read := fun d depth => do
        let given ← Json.Reader.option (Json.Reader.list Location.reader) depth
        return { d with locations := some given } },
    { key := "path"
      optional := true
      given := fun d => d.path.isSome
      read := fun d depth => do
        let given ← Json.Reader.option (Json.Reader.list PathSegment.reader) depth
        return { d with path := some given } },
    { key := "extensions"
      optional := true
      given := fun d => d.extensions.isSome
      read := fun d depth => do
        let given ← Json.Reader.option Json.Reader.members depth
        return { d with extensions := some given } }]
  blank := ⟨none, none, none, none⟩
  finish := fun d => do
    let message ← Json.required "message" d.message
    return ⟨message, d.locations.join, d.path.join, d.extensions.join⟩

def reader : Json.Reader Error := shape.reader

end Error

namespace Response

def ofData (data : Json) : Response := ⟨data, []⟩

def IsOk (r : Response) : Prop := r.errors = []

instance (r : Response) : Decidable r.IsOk :=
  match h : r.errors with
  | [] => .isTrue h
  | _ :: _ => .isFalse (by simp [IsOk, h])

def toJson (r : Response) : Json :=
  .object [("data", r.data), ("errors", .list (r.errors.map Error.toJson))]

structure Draft where
  data : Option Json
  errors : Option (List Error)

def shape : Json.Record Draft Response where
  name := "ExecutionResult"
  fields := [
    { key := "data"
      optional := true
      given := fun d => d.data.isSome
      read := fun d depth => do return { d with data := some (← Json.Reader.value depth) } },
    { key := "errors"
      optional := true
      given := fun d => d.errors.isSome
      read := fun d depth => do
        return { d with errors := some (← Json.Reader.list Error.reader depth) } }]
  blank := ⟨none, none⟩
  finish := fun d => .ok ⟨d.data.getD .null, d.errors.getD []⟩

def reader : Json.Reader Response := shape.reader

end Response

namespace ErrorEntry

def toJson (e : ErrorEntry) : Json :=
  .object <| ("message", .text e.message) ::
    e.extensions.toList.map fun members => ("extensions", .object members)

structure Draft where
  message : Option String
  extensions : Option (Option Json.Members)

def shape : Json.Record Draft ErrorEntry where
  name := "ErrorEntry"
  fields := [
    { key := "message"
      optional := false
      given := fun d => d.message.isSome
      read := fun d _ => do return { d with message := some (← Json.Reader.text "a string") } },
    { key := "extensions"
      optional := true
      given := fun d => d.extensions.isSome
      read := fun d depth => do
        let given ← Json.Reader.option Json.Reader.members depth
        return { d with extensions := some given } }]
  blank := ⟨none, none⟩
  finish := fun d => do return ⟨← Json.required "message" d.message, d.extensions.join⟩

def reader : Json.Reader ErrorEntry := shape.reader

end ErrorEntry

namespace ErrorBody

def ofMessage (message : String) : ErrorBody := ⟨[⟨message, none⟩]⟩

/-- An error that names its kind. -/
def exception (message kind : String) : ErrorBody :=
  ⟨[⟨message, some [("exception", .text kind)]⟩]⟩

def toJson (b : ErrorBody) : Json := .object [("errors", .list (b.errors.map ErrorEntry.toJson))]

structure Draft where
  errors : Option (List ErrorEntry)

def shape : Json.Record Draft ErrorBody where
  name := "ErrorBody"
  fields := [
    { key := "errors"
      optional := false
      given := fun d => d.errors.isSome
      read := fun _ depth => do return ⟨some (← Json.Reader.list ErrorEntry.reader depth)⟩ }]
  blank := ⟨none⟩
  finish := fun d => do return ⟨← Json.required "errors" d.errors⟩

def reader : Json.Reader ErrorBody := shape.reader

end ErrorBody

end HotSwap.Graphql

import HotSwap.Graphql.Token

/-!
# GraphQL documents

A document has operations and fragments. What errors may point at keeps its place.
-/

namespace HotSwap.Graphql

inductive Value where
  | variable (name : String)
  | null
  | bool (b : Bool)
  | number (n : Number)
  | text (s : String)
  | word (s : String)
  | list (items : List Value)
  | object (members : List (String × Value))

inductive TypeRef where
  | named (name : String)
  | list (item : TypeRef)
  | required (type : TypeRef)
  deriving DecidableEq, Repr

structure Argument where
  place : Place
  name : String
  valuePlace : Place
  value : Value

structure Directive where
  place : Place
  name : String
  arguments : List Argument

inductive Selection where
  | field (place : Place) (key name : String) (arguments : List Argument)
      (directives : List Directive) (inner : List Selection)
  | spread (place : Place) (name : String) (directives : List Directive)
  | inline (place : Place) (type : Option String) (directives : List Directive)
      (inner : List Selection)

structure VariableDefinition where
  place : Place
  name : String
  type : TypeRef
  default : Option Value

inductive OperationKind where
  | query
  | mutation
  | subscription
  deriving DecidableEq, Repr

structure Operation where
  place : Place
  kind : OperationKind
  name : Option String
  definitions : List VariableDefinition
  selections : List Selection

structure Fragment where
  place : Place
  name : String
  type : String
  selections : List Selection

inductive Definition where
  | operation (o : Operation)
  | fragment (f : Fragment)

structure Document where
  operations : List Operation
  fragments : List Fragment

inductive DocumentFault where
  /-- The text stops to be a document. -/
  | text (place : Place)
  | noOperation
  /-- An operation without a name stands alone. -/
  | severalOperations (anonymous other : Place)
  | operationTwice (name : String) (first second : Place)
  | fragmentTwice (name : String) (first second : Place)
  deriving DecidableEq, Repr

namespace TypeRef

def render : TypeRef → String
  | named n => n
  | list t => "[" ++ t.render ++ "]"
  | required t => t.render ++ "!"

/-- The name inside all lists. -/
def base : TypeRef → String
  | named n => n
  | list t => t.base
  | required t => t.base

end TypeRef

/-- Reads from tokens; a fault is the place of the token that does not fit, if there is one. -/
abbrev Parse := StateT (List (Placed Token)) (Except (Option Place))

namespace Parse

def refuse {α : Type} : Parse α := do
  let rest ← get
  throw (rest.head?.map Placed.place)

def peek : Parse (Option Token) := return (← get).head?.map Placed.value

def place : Parse Place := do
  match ← get with
  | t :: _ => return t.place
  | [] => refuse

def drop : Parse Unit := modify fun s => s.drop 1

def mark (c : Char) : Parse Unit := do
  if (← peek) = some (.mark c) then drop else refuse

def tryMark (c : Char) : Parse Bool := do
  if (← peek) = some (.mark c) then
    drop
    return true
  else return false

def name : Parse String := do
  match ← peek with
  | some (.name s) =>
    drop
    return s
  | _ => refuse

/-- Items up to a closing mark; `depth` bounds their number. -/
def upTo {α : Type} (close : Char) (item : Parse α) : Nat → Parse (List α)
  | 0 => refuse
  | depth + 1 => do
    if ← tryMark close then return []
    else
      let a ← item
      return a :: (← upTo close item depth)

def many {α : Type} (close : Char) (item : Parse α) : Parse (List α) := do
  upTo close item ((← get).length + 1)

def value : Nat → Parse Value
  | 0 => refuse
  | depth + 1 => do
    match ← peek with
    | some (.number n) => drop; return .number n
    | some (.text s) => drop; return .text s
    | some (.name s) =>
      drop
      return if s = "null" then .null
        else if s = "true" then .bool true
        else if s = "false" then .bool false
        else .word s
    | some (.mark c) =>
      drop
      if c = '$' then return .variable (← name)
      else if c = '[' then return .list (← many ']' (value depth))
      else if c = '\x7b' then
        return .object (← many '\x7d' do
          let key ← name
          mark ':'
          return (key, ← value depth))
      else refuse
    | _ => refuse

def wholeValue : Parse Value := do value ((← get).length + 1)

def argument : Parse Argument := do
  let place ← place
  let name ← name
  mark ':'
  let valuePlace ← Parse.place
  return ⟨place, name, valuePlace, ← wholeValue⟩

def arguments : Parse (List Argument) := do
  if ← tryMark '(' then many ')' argument else return []

def directive : Parse Directive := do
  let place ← place
  mark '@'
  let name ← name
  return ⟨place, name, ← arguments⟩

def directivesUpTo : Nat → Parse (List Directive)
  | 0 => return []
  | depth + 1 => do
    if (← peek) = some (.mark '@') then
      let d ← directive
      return d :: (← directivesUpTo depth)
    else return []

def directives : Parse (List Directive) := do directivesUpTo (← get).length

/-- A selection, nested at most `depth` deep. -/
def selection : Nat → Parse Selection
  | 0 => refuse
  | depth + 1 => do
    let start ← place
    let block : Parse (List Selection) := do
      mark '\x7b'
      let first ← selection depth
      return first :: (← many '\x7d' (selection depth))
    if (← peek) = some .spread then
      drop
      match ← peek with
      | some (.name "on") =>
        drop
        let type ← name
        let ds ← directives
        return .inline start (some type) ds (← block)
      | some (.name s) =>
        drop
        return .spread start s (← directives)
      | _ =>
        let ds ← directives
        return .inline start none ds (← block)
    else
      let first ← name
      let name ← if ← tryMark ':' then name else pure first
      let args ← arguments
      let ds ← directives
      let inner ← if (← peek) = some (.mark '\x7b') then block else pure []
      return .field start first name args ds inner

def selections : Parse (List Selection) := do
  mark '\x7b'
  let depth := (← get).length + 1
  let first ← selection depth
  return first :: (← many '\x7d' (selection depth))

def type : Nat → Parse TypeRef
  | 0 => refuse
  | depth + 1 => do
    let base ← if ← tryMark '[' then
        let item ← type depth
        mark ']'
        pure (.list item)
      else
        pure (.named (← name))
    if ← tryMark '!' then return .required base else return base

def variableDefinition : Parse VariableDefinition := do
  let place ← place
  mark '$'
  let name ← name
  mark ':'
  let type ← type ((← get).length + 1)
  let default ← if ← tryMark '=' then
      pure (some (← wholeValue))
    else pure none
  let _ ← directives
  return ⟨place, name, type, default⟩

def operation (place : Place) (kind : OperationKind) : Parse Operation := do
  let name ← match ← peek with
    | some (.name s) => drop; pure (some s)
    | _ => pure none
  let definitions ← if ← tryMark '(' then many ')' variableDefinition else pure []
  let _ ← directives
  return ⟨place, kind, name, definitions, ← selections⟩

def fragment (place : Place) : Parse Fragment := do
  let fragmentName ← name
  if fragmentName = "on" then refuse
  match ← peek with
  | some (.name "on") => drop
  | _ => refuse
  let type ← name
  let _ ← directives
  return ⟨place, fragmentName, type, ← selections⟩

def definition : Parse Definition := do
  let place ← place
  match ← peek with
  | some (.mark '\x7b') => return .operation ⟨place, .query, none, [], ← selections⟩
  | some (.name s) =>
    drop
    match s with
    | "fragment" => return .fragment (← fragment place)
    | "query" => return .operation (← operation place .query)
    | "mutation" => return .operation (← operation place .mutation)
    | "subscription" => return .operation (← operation place .subscription)
    | _ => refuse
  | _ => refuse

/-- Definitions up to the end; `depth` bounds their number. -/
def definitions : Nat → Parse (List Definition)
  | 0 => refuse
  | depth + 1 => do
    if (← get).isEmpty then return []
    else
      let d ← definition
      return d :: (← definitions depth)

end Parse

namespace Document

def addOperation (doc : Document) (o : Operation) : Except DocumentFault Document :=
  let added := .ok { doc with operations := doc.operations ++ [o] }
  match o.name with
  | none =>
    match doc.operations with
    | [] => added
    | other :: _ => .error (.severalOperations o.place other.place)
  | some name =>
    match doc.operations.find? (·.name = none) with
    | some anonymous => .error (.severalOperations anonymous.place o.place)
    | none =>
      match doc.operations.find? (·.name = some name) with
      | some first => .error (.operationTwice name first.place o.place)
      | none => added

def addFragment (doc : Document) (f : Fragment) : Except DocumentFault Document :=
  match doc.fragments.find? (·.name = f.name) with
  | some first => .error (.fragmentTwice f.name first.place f.place)
  | none => .ok { doc with fragments := doc.fragments ++ [f] }

def add (doc : Document) : Definition → Except DocumentFault Document
  | .operation o => doc.addOperation o
  | .fragment f => doc.addFragment f

def ofDefinitions (ds : List Definition) : Except DocumentFault Document := do
  let doc ← ds.foldlM add ⟨[], []⟩
  if doc.operations.isEmpty then throw .noOperation else return doc

/-- The document that a text is. -/
def parse (s : String) : Except DocumentFault Document := do
  let (tokens, last) ← (Token.ofText s).mapError .text
  match (Parse.definitions (tokens.length + 1)).run tokens with
  | .error place => throw (.text (place.getD last))
  | .ok ([], _) => throw (.text last)
  | .ok (ds, _) => ofDefinitions ds

end Document

end HotSwap.Graphql

import HotSwap.Decimal.Word
import HotSwap.Graphql.Overlap
import HotSwap.Graphql.Reply
import HotSwap.Graphql.Schema

/-!
# Validation

A document is checked against a schema before it is executed. Complaints come in the order of the
document; what is found at one field is ordered by the rule that finds it.
-/

namespace HotSwap.Graphql

namespace Validation

def complaint (places : List Place) (message : String) : ReplyError :=
  ⟨message, places, [], none⟩

/-- The least number of characters to put in, leave out or change. -/
def distanceRow (c : Char) (diagonal left : Nat) : List Char → List Nat → List Nat
  | d :: ds, up :: row =>
    let here := min (min (up + 1) (left + 1)) (if c = d then diagonal else diagonal + 1)
    here :: distanceRow c up here ds row
  | _, _ => []

def distance (a b : String) : Nat :=
  let start := List.range (b.length + 1)
  let row := a.toList.foldl (fun row c =>
    let first := row.headD 0 + 1
    first :: distanceRow c (row.headD 0) first b.toList (row.drop 1)) start
  row.getLastD 0

/-- The names that are close to one that is not known, the closest first. -/
def suggestion (names : List String) (name : String) : String :=
  let near := names.filter fun n =>
    distance name n < max (name.utf8ByteSize / 2) (max (n.utf8ByteSize / 2) 1)
  if near = [] then ""
  else
    let ordered := near.mergeSort fun a b => distance name a ≤ distance name b
    " Did you mean " ++ ", ".intercalate (ordered.map fun n => "\"" ++ n ++ "\"") ++ "?"

/-- What is known where a selection stands. -/
structure Scope where
  schema : Schema
  document : Document
  /-- Values of variables. -/
  given : Json.Members
  operation : Option Operation

def scalarAccepts (type : String) : Value → Bool
  | .number (.int n) => type ∈ ["Int", "Float", "ID"] && decide (Word.FitsSigned 63 n)
  | .number (.float _) => type == "Float"
  | .text _ => type ∈ ["String", "ID"]
  | .bool _ => type == "Boolean"
  | _ => false

def unfit (path type : String) : String := "\"" ++ path ++ "\", expected type \"" ++ type ++ "\""

/-- Why a value does not fit a type. -/
def misfit? (path : String) : TypeRef → Value → Option String
  | .required t, .null => some (unfit path t.render)
  | .required t, v => misfit? path t v
  | .list t, .list items =>
    (items.zipIdx.findSome? fun (v, i) => misfit? (path ++ "." ++ toString i) t v)
  | .list _, .null => none
  | .list t, v => misfit? path t v
  | .named _, .null => none
  | .named n, v => if scalarAccepts n v then none else some (unfit path n)

/-- The value with its variables replaced, if all are given. -/
def constant? (given : Json.Members) : Value → Option Value
  | .variable name => (getMember? name given).map Value.ofJson
  | v => some v

def argumentErrors (scope : Scope) (parent : String) (f : FieldDefinition) (a : Argument) :
    List ReplyError :=
  match f.parameters.find? (·.name = a.name) with
  | none =>
    [complaint [a.place] ("Unknown argument \"" ++ a.name ++ "\" on field \"" ++ f.name ++
      "\" of type \"" ++ parent ++ "\"." ++ suggestion (f.parameters.map (·.name)) a.name)]
  | some p =>
    match constant? scope.given a.value with
    | none => []
    | some v =>
      match misfit? p.name p.type v with
      | some reason => [complaint [a.place] ("Invalid value for argument " ++ reason)]
      | none => []

/-- What is wrong with arguments, of which some may have the same name. -/
def argumentsErrors (scope : Scope) (parent : String) (f : FieldDefinition) :
    List String → List Argument → List ReplyError
  | _, [] => []
  | names, a :: rest =>
    (if a.name ∈ names then
      [complaint [a.place] ("There can only be one argument named \"" ++ a.name ++ "\"")]
    else []) ++ argumentErrors scope parent f a ++
      argumentsErrors scope parent f (a.name :: names) rest

def clashMessage : Overlap.Cause → String
  | .fields key first second => "Fields \"" ++ key ++ "\" conflict because \"" ++ first ++
      "\" and \"" ++ second ++ "\" are different fields. Use different aliases on the fields " ++
      "to fetch both if this was intentional."
  | .arguments name => "Fields \"" ++ name ++ "\" conflict because they have differing " ++
      "arguments. Use different aliases on the fields to fetch both if this was intentional."

def clashErrors (doc : Document) (selections : List Selection) : List ReplyError :=
  (Overlap.clashes doc selections).map fun c =>
    complaint [c.first, c.second] (clashMessage c.cause)

def knownDirectives : List String := ["skip", "include"]

def directiveErrors (ds : List Directive) : List ReplyError :=
  ds.flatMap fun d =>
    if d.name ∈ knownDirectives then []
    else [complaint [d.place] ("Unknown directive \"" ++ d.name ++ "\"")]

def missingArguments (parent : String) (place : Place) (f : FieldDefinition)
    (args : List Argument) : List ReplyError :=
  f.parameters.flatMap fun p =>
    match p.type, p.default with
    | .required _, none =>
      if args.any (·.name = p.name) then []
      else [complaint [place] ("Field \"" ++ f.name ++ "\" argument \"" ++ p.name ++
        "\" of type \"" ++ parent ++ "\" is required but not provided")]
    | _, _ => []

def leafErrors (scope : Scope) (place : Place) (f : FieldDefinition) (inner : List Selection) :
    List ReplyError :=
  let type := f.type.base
  match (scope.schema.object? type).isSome, inner with
  | false, _ :: _ => [complaint [place] ("Field \"" ++ f.name ++
      "\" must not have a selection since type \"" ++ type ++ "\" has no subfields")]
  | true, [] => [complaint [place] ("Field \"" ++ f.name ++ "\" of type \"" ++ type ++
      "\" must have a selection of subfields")]
  | _, _ => []

def unknownField (scope : Scope) (type name : String) (place : Place) : ReplyError :=
  let names := match scope.schema.object? type with
    | some t => t.fields.map (·.name)
    | none => []
  complaint [place] ("Unknown field \"" ++ name ++ "\" on type \"" ++ type ++ "\"." ++
    suggestion names name)

/-- A fragment is on a type that its place can have; with object types that is one and the same. -/
def spreadErrors (scope : Scope) (type : Option String) (place : Place) (subject fragmentType :
    String) : List ReplyError :=
  match type.bind scope.schema.object? with
  | some t =>
    if t.name = fragmentType ∨ !scope.schema.isKnown fragmentType then []
    else [complaint [place] (subject ++ " cannot be spread here as objects of type \"" ++ t.name ++
      "\" can never be of type \"" ++ fragmentType ++ "\"")]
  | none => []

def conditionErrors (schema : Schema) (place : Place) (subject fragmentType : String) :
    List ReplyError :=
  if !schema.isKnown fragmentType then
    [complaint [place] ("Unknown type \"" ++ fragmentType ++ "\"")]
  else if (schema.object? fragmentType).isNone then
    [complaint [place] (subject ++ " cannot condition non composite type \"" ++ fragmentType ++
      "\"")]
  else []

/-- A type, unless the schema does not know it. -/
def known? (schema : Schema) (type : String) : Option String :=
  if schema.isKnown type then some type else none

mutual

/-- What is wrong with a selection on a type, if the type is known. -/
def selectionErrors (scope : Scope) (type : Option String) : Selection → List ReplyError
  | .field place _ name args ds inner =>
    if name = "__typename" then []
    else
      match type with
      | none =>
        directiveErrors ds ++ clashErrors scope.document inner ++
          selectionsErrors scope none inner
      | some t =>
        match scope.schema.field? t name with
        | none =>
          unknownField scope t name place :: directiveErrors ds ++
            clashErrors scope.document inner ++ selectionsErrors scope none inner
        | some f =>
          missingArguments t place f args ++ leafErrors scope place f inner ++
            argumentsErrors scope t f [] args ++ directiveErrors ds ++
            clashErrors scope.document inner ++ selectionsErrors scope (some f.type.base) inner
  | .spread place name ds =>
    (match scope.document.fragments.find? (·.name = name) with
    | some f => spreadErrors scope type place ("Fragment \"" ++ name ++ "\"") f.type
    | none => [complaint [place] ("Unknown fragment: \"" ++ name ++ "\"")]) ++ directiveErrors ds
  | .inline place t ds inner =>
    match t with
    | none =>
      directiveErrors ds ++ clashErrors scope.document inner ++ selectionsErrors scope type inner
    | some t =>
      spreadErrors scope type place "Fragment" t ++
        conditionErrors scope.schema place "Fragment" t ++
        directiveErrors ds ++ clashErrors scope.document inner ++
        selectionsErrors scope (known? scope.schema t) inner

def selectionsErrors (scope : Scope) (type : Option String) : List Selection → List ReplyError
  | [] => []
  | s :: rest => selectionErrors scope type s ++ selectionsErrors scope type rest

end

mutual

def variablesOf : Value → List String
  | .variable name => [name]
  | .list items => variablesOfItems items
  | .object members => variablesOfMembers members
  | _ => []

def variablesOfItems : List Value → List String
  | [] => []
  | v :: rest => variablesOf v ++ variablesOfItems rest

def variablesOfMembers : List (String × Value) → List String
  | [] => []
  | (_, v) :: rest => variablesOf v ++ variablesOfMembers rest

end

def usedIn (args : List Argument) (ds : List Directive) : List (String × Place) :=
  (args ++ ds.flatMap (·.arguments)).flatMap fun a =>
    (variablesOf a.value).map fun v => (v, a.valuePlace)

mutual

/-- The variables that selections use, and the fragments that they spread. -/
def usesOf : Selection → List (String × Place) × List String
  | .field _ _ _ args ds inner =>
    let t := usesOfAll inner
    (usedIn args ds ++ t.1, t.2)
  | .spread _ name ds => (usedIn [] ds, [name])
  | .inline _ _ ds inner =>
    let t := usesOfAll inner
    (usedIn [] ds ++ t.1, t.2)

def usesOfAll : List Selection → List (String × Place) × List String
  | [] => ([], [])
  | s :: rest =>
    let a := usesOf s
    let b := usesOfAll rest
    (a.1 ++ b.1, a.2 ++ b.2)

end

/-- The fragments reached from some names in at most as many steps as there are fragments. -/
def reached (doc : Document) : Nat → List String → List String
  | 0, names => names
  | steps + 1, names =>
    reached doc steps <| names ++
      ((doc.fragments.filter (·.name ∈ names)).flatMap fun f => (usesOfAll f.selections).2).filter
        (· ∉ names)

def variableErrors (doc : Document) (o : Operation) : List ReplyError × List ReplyError :=
  let direct := usesOfAll o.selections
  let names := reached doc doc.fragments.length direct.2
  let uses := direct.1 ++
    (doc.fragments.filter (·.name ∈ names)).flatMap fun f => (usesOfAll f.selections).1
  let unknown := uses.filter fun u => !o.definitions.any (·.name = u.1)
  let unused := o.definitions.filter fun d => !uses.any (·.1 = d.name)
  (unused.map fun d => complaint [d.place] <| match o.name with
      | some n => "Variable \"" ++ d.name ++ "\" is not used by operation \"" ++ n ++ "\""
      | none => "Variable \"" ++ d.name ++ "\" is not used",
    unknown.map fun u => complaint [u.2] <| match o.name with
      | some n => "Variable \"" ++ u.1 ++ "\" is not defined by operation \"" ++ n ++ "\""
      | none => "Variable \"" ++ u.1 ++ "\" is not defined")

/-- A variable that must be given has no default, and a default fits the type. -/
def defaultErrors (d : VariableDefinition) : List ReplyError :=
  match d.default, d.type with
  | none, _ => []
  | some _, .required _ =>
    [complaint [d.place] ("Argument \"" ++ d.name ++ "\" has type \"" ++ d.type.render ++
      "\" and is not nullable, so it can't have a default value")]
  | some v, _ =>
    match misfit? d.name d.type v with
    | some reason => [complaint [d.place] ("Invalid default value for argument " ++ reason)]
    | none => []

def definitionsErrors (schema : Schema) : List String → List VariableDefinition → List ReplyError
  | _, [] => []
  | names, d :: rest =>
    (if d.name ∈ names then
      [complaint [d.place] ("There can only be one variable named \"$" ++ d.name ++ "\"")]
    else []) ++
    (if schema.isKnown d.type.base then []
    else [complaint [d.place] ("Unknown type \"" ++ d.type.base ++ "\"")]) ++
      defaultErrors d ++ definitionsErrors schema (d.name :: names) rest

/-- Whether a variable of one type may stand where another is due. -/
def allows : TypeRef → TypeRef → Bool
  | .required t, .required u => allows t u
  | _, .required _ => false
  | .required t, u => allows t u
  | .list t, .list u => allows t u
  | .named t, .named u => t == u
  | _, _ => false

def positionErrorsOf (schema : Schema) (o : Operation) (type : String) (name : String)
    (args : List Argument) : List ReplyError :=
  match schema.field? type name with
  | none => []
  | some f =>
    args.flatMap fun a =>
      match a.value, f.parameters.find? (·.name = a.name) with
      | .variable v, some p =>
        match o.definitions.find? (·.name = v) with
        | some d =>
          let given := if d.default.isSome then .required d.type else d.type
          if allows given p.type then []
          else [complaint [d.place, a.valuePlace] ("Variable \"" ++ v ++ "\" of type \"" ++
            d.type.render ++ "\" used in position expecting type \"" ++ p.type.render ++ "\"")]
        | none => []
      | _, _ => []

mutual

/-- Variables that stand where their type does not fit. -/
def positionErrors (schema : Schema) (o : Operation) (type : String) : Selection → List ReplyError
  | .field _ _ name args _ inner =>
    positionErrorsOf schema o type name args ++
      match schema.field? type name with
      | some f => positionErrorsAll schema o f.type.base inner
      | none => []
  | .spread _ _ _ => []
  | .inline _ t _ inner => positionErrorsAll schema o (t.getD type) inner

def positionErrorsAll (schema : Schema) (o : Operation) (type : String) :
    List Selection → List ReplyError
  | [] => []
  | s :: rest => positionErrors schema o type s ++ positionErrorsAll schema o type rest

end

def noRoot (o : Operation) (kind : String) : List ReplyError :=
  [complaint [o.place] ("Schema is not configured for " ++ kind ++ ".")]

/-- What keeps an operation from running at all; the document is gone through twice. -/
def rootErrors (o : Operation) : List ReplyError :=
  match o.kind with
  | .query => []
  | .mutation => noRoot o "mutations"
  | .subscription => noRoot o "subscriptions"

def operationErrors (schema : Schema) (doc : Document) (given : Json.Members) (o : Operation) :
    List ReplyError :=
  match o.kind with
  | .query => definitionsErrors schema [] o.definitions ++ clashErrors doc o.selections ++
      selectionsErrors ⟨schema, doc, given, some o⟩ (some schema.query.name) o.selections
  | _ => rootErrors o

def fragmentErrors (schema : Schema) (doc : Document) (given : Json.Members) (f : Fragment) :
    List ReplyError :=
  conditionErrors schema f.place ("Fragment \"" ++ f.name ++ "\"") f.type ++
    clashErrors doc f.selections ++
    selectionsErrors ⟨schema, doc, given, none⟩ (known? schema f.type) f.selections

def documentErrors (doc : Document) : List ReplyError :=
  let roots := doc.operations.flatMap fun o => (usesOfAll o.selections).2
  let names := reached doc doc.fragments.length roots
  (doc.operations.flatMap fun o => (variableErrors doc o).1) ++
    (doc.fragments.filter (·.name ∉ names)).map (fun f =>
      complaint [f.place] ("Fragment \"" ++ f.name ++ "\" is never used")) ++
    (doc.operations.flatMap fun o => (variableErrors doc o).2)

def errors (schema : Schema) (doc : Document) (given : Json.Members) : List ReplyError :=
  doc.operations.flatMap (operationErrors schema doc given) ++
    doc.fragments.flatMap (fragmentErrors schema doc given) ++
    doc.operations.flatMap (fun o => positionErrorsAll schema o schema.query.name o.selections) ++
    documentErrors doc ++ doc.operations.flatMap rootErrors

end Validation

end HotSwap.Graphql

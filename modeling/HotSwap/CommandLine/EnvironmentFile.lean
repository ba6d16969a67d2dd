import HotSwap.Settings.Sources
import HotSwap.Text.Blank

/-!
# Variables from a file

A file of the working directory may set variables that the environment does not. Each line has a
name and a value; a value may be quoted and may hold the values of other variables. What follows a
line that cannot be read is passed over.
-/

namespace HotSwap.CommandLine

namespace EnvironmentFile

def fileName : String := ".env"

def startsName (c : Char) : Bool := c.isAlpha || c == '_'

def inName (c : Char) : Bool := c.isAlphanum || c == '_' || c == '.'

/-- What is being read of a value. -/
inductive Mode where
  | plain
  /-- Behind a backslash, between double quotes or not. -/
  | escaped (quoted : Bool)
  | single
  | double
  /-- The name of a variable, the last letter first. -/
  | name (quoted : Bool) (letters : List Char)
  | bracedName (quoted : Bool) (letters : List Char)
  /-- Behind a blank, where only a comment may follow. -/
  | over
  deriving DecidableEq

/-- A value as far as it is read, the last character first. -/
structure Reading where
  mode : Mode
  output : List Char
  deriving DecidableEq

variable (lookup : String → String)

def textOf (letters : List Char) : String := String.ofList letters.reverse

/-- The output with the value of a variable. -/
def Reading.expand (r : Reading) (letters : List Char) : List Char :=
  (lookup (textOf letters)).toList.reverse ++ r.output

def resume (quoted : Bool) : Mode := if quoted then .double else .plain

def isEscapable (c : Char) : Bool := c ∈ ['\\', '\'', '"', '$', ' ']

/-- One more character; none if the value cannot go on with it. The comment that may end a value is
no part of it. -/
def Reading.next (r : Reading) (c : Char) : Option Reading :=
  match r.mode with
  | .over => if c = ' ' ∨ c = '\t' then some r else none
  | .escaped quoted =>
    if isEscapable c then some ⟨resume quoted, c :: r.output⟩
    else if c = 'n' then some ⟨resume quoted, '\n' :: r.output⟩
    else none
  | .single =>
    some (if c = '\'' then { r with mode := .plain } else { r with output := c :: r.output })
  | .name quoted letters =>
    if c.isAlphanum then some { r with mode := .name quoted (c :: letters) }
    else if c = '\x7b' ∧ letters = [] then some { r with mode := .bracedName quoted [] }
    else
      let output := r.expand lookup letters
      some (if c = '$' then ⟨.name quoted [], output⟩ else ⟨resume quoted, c :: output⟩)
  | .bracedName quoted letters =>
    some (if c = '\x7d' then ⟨resume quoted, r.expand lookup letters⟩
      else { r with mode := .bracedName quoted (c :: letters) })
  | .double =>
    some (if c = '$' then { r with mode := .name true [] }
      else if c = '"' then { r with mode := .plain }
      else if c = '\\' then { r with mode := .escaped true }
      else { r with output := c :: r.output })
  | .plain =>
    some (if c = '$' then { r with mode := .name false [] }
      else if c = '\'' then { r with mode := .single }
      else if c = '"' then { r with mode := .double }
      else if c = '\\' then { r with mode := .escaped false }
      else if c = ' ' ∨ c = '\t' then { r with mode := .over }
      else { r with output := c :: r.output })

/-- The value that a reading ends with. -/
def Reading.finish (r : Reading) : Option String :=
  match r.mode with
  | .single | .double | .bracedName _ _ => none
  | .escaped true => none
  | .name true _ => none
  | .name false letters => some (textOf (r.expand lookup letters))
  | _ => some (textOf r.output)

def readValue (r : Reading) : List Char → Option String
  | [] => r.finish lookup
  | c :: rest =>
    if r.mode = .over ∧ c = '#' then r.finish lookup
    else
      match r.next lookup c with
      | some s => readValue s rest
      | none => none

def value (cs : List Char) : Option String :=
  match cs with
  | [] => some ""
  | '#' :: _ => some ""
  | cs => readValue lookup ⟨.plain, []⟩ cs

def name? (cs : List Char) : Option (String × List Char) :=
  if (cs.head?.map startsName).getD false then
    some (String.ofList (cs.takeWhile inName), Text.dropBlanks (cs.dropWhile inName))
  else none

def afterEquals? : List Char → Option (List Char)
  | '=' :: rest => some (Text.dropBlanks rest)
  | _ => none

/-- A name and what follows the equals sign; the word `export` may stand before the name. -/
def assignment? (cs : List Char) : Option (String × List Char) := do
  let (name, rest) ← name? cs
  match afterEquals? rest with
  | some v => return (name, v)
  | none =>
    if name = "export" then
      let (name, rest) ← name? rest
      return (name, ← afterEquals? rest)
    else failure

/-- What a line says: nothing, or the value of a variable. -/
def line (cs : List Char) : Option (Option Settings.Variable) :=
  match Text.dropBlanks cs with
  | [] => some none
  | '#' :: _ => some none
  | cs => do
    let (name, rest) ← assignment? cs
    return some ⟨name, ← value lookup rest⟩

end EnvironmentFile

open EnvironmentFile

/-- The value of a variable, nothing if there is none. -/
def valueOf (environment : List Settings.Variable) (name : String) : String :=
  ((environment.find? (·.name = name)).map (·.value)).getD ""

/-- Variables of the environment stand; those that were set before in the file count elsewhere. -/
def addVariable (environment : List Settings.Variable) (v : Settings.Variable) :
    List Settings.Variable :=
  if environment.any (·.name = v.name) then environment else environment ++ [v]

def readLines (environment : List Settings.Variable) : List String → List Settings.Variable
  | [] => environment
  | l :: rest =>
    match line (valueOf environment) l.toList with
    | none => environment
    | some none => readLines environment rest
    | some (some v) => readLines (addVariable environment v) rest

def withoutReturn (cs : List Char) : List Char :=
  if cs.getLast? = some '\r' then cs.dropLast else cs

def linesOf (s : String) : List String :=
  (s.splitOn "\n").map fun l => String.ofList (withoutReturn l.toList)

/-- The environment with the variables of the file, if the directory has one. -/
def fullEnvironment (files : List Settings.File) (environment : List Settings.Variable) :
    List Settings.Variable :=
  match (files.find? (·.name = fileName)).bind fun f => Bytes.text? f.content with
  | some s => readLines environment (linesOf s)
  | none => environment

end HotSwap.CommandLine

import HotSwap.Json.Reader
import HotSwap.Settings.Conversion
import HotSwap.Settings.Relaxed
import HotSwap.Settings.Toml

/-!
# Where settings come from

Defaults are overridden by a file in the working directory, that by variables of the environment,
and those by values set in the program.
-/

namespace HotSwap.Settings

structure Variable where
  name : String
  value : String
  deriving DecidableEq, Repr

structure File where
  name : String
  content : Bytes
  deriving DecidableEq

def environmentOrigin : String := "the environment"

def variablePrefix : String := "devserve_"

/-- The setting that a variable is for, if any. -/
def Variable.key? (v : Variable) : Option String :=
  let name := (Text.lowercase v.name).toList
  if variablePrefix.toList.isPrefixOf name then
    some (String.ofList (name.drop variablePrefix.length))
  else none

def setVariable (root : Entry) (v : Variable) : Entry :=
  match v.key? with
  | some key =>
    (Path.ofKey key).set (.scalar (some environmentOrigin) (.text v.value)) root
  | none => root

def baseName : String := "devserve"

abbrev Notation := Option String → String → Except String Entry

def readJson : Notation := fun origin text =>
  match Json.read (Bytes.ofText text) with
  | .ok v => .ok (.ofJson .ofShortNumber origin v)
  | .error e => .error e.message

/-- The notations of a configuration file by the extension of its name. -/
def notations : List (String × Notation) := [
  ("toml", Toml.read),
  ("json", readJson),
  ("yaml", Yaml.read),
  ("yml", Yaml.read),
  ("ini", Relaxed.readSections),
  ("ron", Relaxed.read .ron),
  ("json5", Relaxed.read .json5)]

/-- The configuration file among some files, and its notation. A file without an extension hides
the others. -/
def findFile (files : List File) : Option (File × Notation) :=
  if files.any (·.name = baseName) then none
  else notations.findSome? fun (extension, read) =>
    (files.find? (·.name = baseName ++ "." ++ extension)).map fun f => (f, read)

/-- The members of a configuration file; one that is no text is passed over. -/
def readFile (file : File) (read : Notation) : Except LoadError (List (String × Entry)) :=
  match Bytes.text? file.content with
  | none => .ok []
  | some text =>
    match read (some file.name) text with
    | .error reason => .error (.file reason file.name)
    | .ok (.table _ members) => .ok members
    | .ok e =>
      let reason := LoadError.mismatch e.unexpected "a map" none (some file.name)
      .error (.file reason.message file.name)

def setMember (root : Entry) (member : String × Entry) : Entry :=
  (Path.ofKey member.1).set member.2 root

/-- The settings of a working directory and an environment. -/
def load (files : List File) (environment : List Variable) : Except LoadError Settings := do
  let members ← match findFile files with
    | some (file, read) => readFile file read
    | none => .ok []
  let filed := members.foldl setMember defaultEntries
  ofEntry (environment.foldl setVariable filed)

/-- The settings with some values set; a key without a value is not looked at. -/
def override (values : List (String × Option Json)) : Except LoadError Settings := do
  let root ← values.foldlM (fun root (key, value) =>
    match value with
    | none => .ok root
    | some v =>
      match Path.parse (Text.lowercase key) with
      | .ok path => .ok (path.set (.ofJson .ofNumber none v) root)
      | .error refusal => .error (.path refusal)) defaultEntries
  ofEntry root

end HotSwap.Settings

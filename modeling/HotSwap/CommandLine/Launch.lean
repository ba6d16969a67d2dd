import HotSwap.CommandLine.EnvironmentFile
import HotSwap.CommandLine.LogFilter
import HotSwap.CommandLine.Options

/-!
# From the command line to settings

Options are read first, then the settings that they override. Whatever fails on the way ends the
program with a message.
-/

namespace HotSwap.CommandLine

/-- Output and code of a program that has ended. -/
structure Exit where
  code : Nat
  stderr : String
  stdout : String
  deriving DecidableEq, Repr

inductive Launch where
  | exit (e : Exit)
  /-- What to serve with, and what was said so far. -/
  | serve (settings : Settings) (filter : LogFilter) (stderr : String)

def versionText : String := "devserve 0.1.0\n"

def purpose : Flag → String
  | .host => "Interface to listen on (IP address or hostname)"
  | .port => "Port to listen on (0 picks a free port)"
  | .classpath => "Module set handed to the provider, as a path list"
  | .drainTimeout => "How long a reload waits for in-flight requests, in milliseconds"
  | .logLevel => "Log filter used when RUST_LOG is unset"
  | .help => "Print help"
  | .version => "Print version"

def defaultLogLevel : String := "info"

/-- Where the value comes from if it is not given. -/
def fallback (environment : List Settings.Variable) : Flag → String
  | .logLevel => " [default: " ++ defaultLogLevel ++ "]"
  | f =>
    match f.variableName? with
    | some name => " [env: " ++ name ++ "=" ++ valueOf environment name ++ "]"
    | none => ""

def helpEntry (environment : List Settings.Variable) (f : Flag) : String :=
  (match f.letter? with
  | some c => "  -" ++ c.toString ++ ", "
  | none => "      ") ++ f.render ++ "\n          " ++ purpose f ++ fallback environment f ++ "\n"

def helpText (environment : List Settings.Variable) : String :=
  "Hot-reloading GraphQL development server\n\nUsage: devserve [OPTIONS]\n\nOptions:\n" ++
    String.join (Flag.all.map (helpEntry environment))

/-- The lines of a cause, indented behind its number if there are several causes. -/
def causeLines (number : Option Nat) (text : String) : String :=
  match number with
  | some n => "    " ++ toString n ++ ": " ++ "\n       ".intercalate (text.splitOn "\n")
  | none => "    " ++ "\n    ".intercalate (text.splitOn "\n")

def causes : List String → List String
  | [only] => [causeLines none only]
  | several => several.zipIdx.map fun (text, n) => causeLines (some n) text

/-- How an error with its causes is told at the end of the program. -/
def failure (summary : String) (e : ServerError) : Exit :=
  ⟨1, "Error: " ++ summary ++ "\n\nCaused by:\n" ++
    "\n".intercalate (causes (e.message :: e.sources)) ++ "\n", ""⟩

def configFailure (e : Settings.LoadError) : Exit :=
  failure "Failed to load configuration" (.config e.message)

def startFailure (e : ServerError) : Exit := failure "DevServe failed" e

def stopped (environment : List Settings.Variable) : Stop → Exit
  | .error e => ⟨2, e.message, ""⟩
  | .help => ⟨0, "", helpText environment⟩
  | .version => ⟨0, "", versionText⟩

/-- The settings that a program runs with. -/
def settings (o : Options) (files : List Settings.File) (environment : List Settings.Variable) :
    Except Settings.LoadError Settings := (Settings.load files environment).map o.apply

def said (lines : List String) : String := String.join (lines.map (· ++ "\n"))

/-- What the program does in a directory with some files and an environment. -/
def launch (arguments : List String) (files : List Settings.File)
    (environment : List Settings.Variable) : Launch :=
  let full := fullEnvironment files environment
  match options arguments full with
  | .error stop => .exit (stopped full stop)
  | .ok o =>
    let (filter, ignored) := LogFilter.choose
      ((full.find? (·.name = LogFilter.variableName)).map (·.value))
      (o.logLevel.getD defaultLogLevel)
    match settings o files full with
    | .error e =>
      let exit := configFailure e
      .exit { exit with stderr := said ignored ++ exit.stderr }
    | .ok s => .serve s filter (said ignored)

end HotSwap.CommandLine

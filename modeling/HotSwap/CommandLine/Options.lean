import HotSwap.CommandLine.Numeral
import HotSwap.CommandLine.Similarity
import HotSwap.Settings.Sources

/-!
# Options

An option has a long name, perhaps a letter, and mostly a value, in the same argument or the next.
A value that is not given may come from a variable of the environment.
-/

namespace HotSwap.CommandLine

inductive Flag where
  | host
  | port
  | classpath
  | drainTimeout
  | logLevel
  | help
  | version
  deriving DecidableEq, Repr

namespace Flag

def all : List Flag := [host, port, classpath, drainTimeout, logLevel, help, version]

def long : Flag → String
  | host => "host"
  | port => "port"
  | classpath => "classpath"
  | drainTimeout => "drain-timeout-ms"
  | logLevel => "log-level"
  | help => "help"
  | version => "version"

def letter? : Flag → Option Char
  | port => some 'p'
  | help => some 'h'
  | version => some 'V'
  | _ => none

/-- What stands for the value of the option. -/
def placeholder? : Flag → Option String
  | host => some "HOST"
  | port => some "PORT"
  | classpath => some "CLASSPATH"
  | drainTimeout => some "DRAIN_TIMEOUT_MS"
  | logLevel => some "LOG_LEVEL"
  | help => none
  | version => none

def variableName? : Flag → Option String
  | host => some "DEVSERVE_HOST"
  | port => some "DEVSERVE_PORT"
  | classpath => some "DEVSERVE_CLASSPATH"
  | drainTimeout => some "DEVSERVE_DRAIN_TIMEOUT_MS"
  | _ => none

def render (f : Flag) : String :=
  "--" ++ f.long ++
    match f.placeholder? with
    | some p => " <" ++ p ++ ">"
    | none => ""

def ofLong? (name : String) : Option Flag := all.find? (·.long = name)

def ofLetter? (c : Char) : Option Flag := all.find? (·.letter? = some c)

end Flag

structure Options where
  host : Option String
  port : Option UInt16
  classpath : Option String
  drainTimeoutMs : Option UInt64
  logLevel : Option String
  deriving DecidableEq

namespace Options

def none : Options := ⟨.none, .none, .none, .none, .none⟩

/-- The options with the value of one of them. -/
def put (o : Options) (f : Flag) (value : String) : Except NumeralFault Options :=
  match f with
  | .host => .ok { o with host := some value }
  | .port => do return { o with port := some (← CommandLine.port value) }
  | .classpath => .ok { o with classpath := some value }
  | .drainTimeout => do return { o with drainTimeoutMs := some (← word value) }
  | .logLevel => .ok { o with logLevel := some value }
  | .help => .ok o
  | .version => .ok o

/-- The settings with what the options say in their place. -/
def apply (o : Options) (s : Settings) : Settings where
  host := o.host.getD s.host
  port := o.port.getD s.port
  classpath := o.classpath.orElse fun _ => s.classpath
  drainTimeoutMs := o.drainTimeoutMs.getD s.drainTimeoutMs
  corsEnabled := s.corsEnabled

end Options

inductive UsageError where
  /-- Nothing of that name; `given` are the options to show instead of all. -/
  | unknown (argument : String) (similar : Option Flag) (given : List Flag)
  | repeated (f : Flag)
  | missingValue (f : Flag)
  | invalidValue (value : String) (f : Flag) (fault : NumeralFault)
  | uncalledValue (value : String) (f : Flag) (given : List Flag)
  deriving DecidableEq, Repr

namespace UsageError

def usage (given : List Flag) : String :=
  "\n\nUsage: devserve " ++
    if given = [] then "[OPTIONS]" else " ".intercalate (given.map Flag.render)

def summary : UsageError → String
  | unknown argument similar given =>
    "unexpected argument \x27" ++ argument ++ "\x27 found" ++
      (match similar with
      | some f => "\n\n  tip: a similar argument exists: \x27--" ++ f.long ++ "\x27"
      | none => "") ++ usage given
  | repeated f =>
    "the argument \x27" ++ f.render ++ "\x27 cannot be used multiple times" ++ usage []
  | missingValue f => "a value is required for \x27" ++ f.render ++ "\x27 but none was supplied"
  | invalidValue value f fault =>
    "invalid value \x27" ++ value ++ "\x27 for \x27" ++ f.render ++ "\x27: " ++ fault.message
  | uncalledValue value f given =>
    "unexpected value \x27" ++ value ++ "\x27 for \x27" ++ f.render ++
      "\x27 found; no more were expected" ++ usage given

def message (e : UsageError) : String :=
  "error: " ++ e.summary ++ "\n\nFor more information, try \x27--help\x27.\n"

end UsageError

/-- Why the arguments lead to no options. -/
inductive Stop where
  | error (e : UsageError)
  | help
  | version
  deriving DecidableEq, Repr

/-- The arguments read so far. -/
structure Progress where
  options : Options
  /-- The options that are taken, the first one first. -/
  given : List Flag
  /-- An option whose value is not taken yet, or not even there. -/
  open? : Option (Flag × Option String)

namespace Progress

def start : Progress := ⟨.none, [], none⟩

def take (p : Progress) (f : Flag) (value : String) : Except Stop Progress :=
  if f ∈ p.given then .error (.error (.repeated f))
  else
    match p.options.put f value with
    | .ok o => .ok ⟨o, p.given ++ [f], none⟩
    | .error fault => .error (.error (.invalidValue value f fault))

/-- Takes the value that is left. -/
def close (p : Progress) : Except Stop Progress :=
  match p.open? with
  | none => .ok p
  | some (f, none) => .error (.error (.missingValue f))
  | some (f, some value) => { p with open? := none }.take f value

/-- The options given, the one whose value is left among them. -/
def mentioned (p : Progress) : List Flag :=
  match p.open? with
  | some (f, some _) => if f ∈ p.given then p.given else p.given ++ [f]
  | _ => p.given

def stray (argument : String) : Except Stop Progress := .error (.error (.unknown argument none []))

def unknownLong (p : Progress) (name : String) : Except Stop Progress :=
  let similar := (mostLike? name (Flag.all.map Flag.long)).bind Flag.ofLong?
  let more := (similar.filter (· ∉ p.mentioned)).toList
  .error (.error (.unknown ("--" ++ name) similar (p.mentioned ++ more)))

/-- An option with what follows it in the same argument, if anything does. -/
def option (p : Progress) (f : Flag) (attached : Option String) : Except Stop Progress :=
  match f, attached with
  | .help, none => do let _ ← p.close; throw .help
  | .version, none => do let _ ← p.close; throw .version
  | .help, some v => .error (.error (.uncalledValue v .help (p.given ++ [.help])))
  | .version, some v => .error (.error (.uncalledValue v .version (p.given ++ [.version])))
  | f, some v => do (← p.close).take f v
  | f, none => do return { (← p.close) with open? := some (f, none) }

def long (p : Progress) (text : List Char) : Except Stop Progress :=
  let name := String.ofList (text.takeWhile (· ≠ '='))
  match Flag.ofLong? name with
  | none => p.unknownLong name
  | some f =>
    p.option f (match text.dropWhile (· ≠ '=') with
      | _ :: value => some (String.ofList value)
      | [] => none)

def short (p : Progress) (c : Char) (rest : List Char) : Except Stop Progress :=
  match Flag.ofLetter? c with
  | none => stray (String.ofList ['-', c])
  | some f =>
    if f.placeholder? = none then p.option f none
    else
      p.option f (match rest with
        | [] => none
        | '=' :: value => some (String.ofList value)
        | value => some (String.ofList value))

/-- An argument that is no option. -/
def plain (p : Progress) (argument : String) : Except Stop Progress :=
  match p.open? with
  | some (f, none) => .ok { p with open? := some (f, some argument) }
  | _ => stray argument

def argument (p : Progress) (s : String) : Except Stop Progress :=
  match s.toList with
  | '-' :: '-' :: text => p.long text
  | '-' :: c :: rest => p.short c rest
  | _ => p.plain s

/-- Behind two dashes no option follows. -/
def arguments (p : Progress) : List String → Except Stop Progress
  | [] => p.close
  | s :: rest =>
    if s = "--" then
      match rest with
      | [] => p.close
      | t :: _ => stray t
    else do (← p.argument s).arguments rest

/-- An option that is not given has the value of its variable. -/
def fill (environment : List Settings.Variable) (p : Progress) (f : Flag) :
    Except Stop Progress :=
  match f.variableName?.bind fun name => environment.find? (·.name = name) with
  | none => .ok p
  | some v => if f ∈ p.given then .ok p else p.take f v.value

end Progress

/-- The options that arguments and environment give. -/
def options (arguments : List String) (environment : List Settings.Variable) :
    Except Stop Options := do
  let read ← Progress.start.arguments arguments
  let filled ← Flag.all.foldlM (Progress.fill environment) read
  return filled.options

end HotSwap.CommandLine

import HotSwap.CommandLine.Demo
import HotSwap.CommandLine.Launch

/-!
# The program

It reads its options and settings, starts, and answers the requests that come line by line: a
method, a target and the rest of the line as the body.
-/

namespace HotSwap.CommandLine

/-- What a file holds, nothing if it cannot be read. -/
def contentOf (name : String) : IO (Option ByteArray) := do
  try
    return some (← IO.FS.readBinFile name)
  catch _ => return none

def knownNames : List String :=
  EnvironmentFile.fileName :: Settings.baseName ::
    Settings.notations.map fun n => Settings.baseName ++ "." ++ n.1

def presentFiles : IO (List Settings.File) := do
  let mut files := []
  for name in knownNames do
    if let some content := ← contentOf name then
      files := files ++ [⟨name, content.data.toList⟩]
  return files

def variableOf (entry : String) : Option Settings.Variable :=
  let cs := entry.toList
  if '=' ∈ cs then
    some ⟨String.ofList (cs.takeWhile (· ≠ '=')), String.ofList ((cs.dropWhile (· ≠ '=')).drop 1)⟩
  else none

def presentEnvironment : IO (List Settings.Variable) := do
  let some content ← contentOf "/proc/self/environ" | return []
  return (((Bytes.text? content.data.toList).getD "").splitOn "\x00").filterMap variableOf

def requestOf (line : String) : Http.Request :=
  let (method, rest) := line.toList.span (· ≠ ' ')
  let (target, body) := (rest.drop 1).span (· ≠ ' ')
  ⟨String.ofList method, String.ofList target, Bytes.ofText (String.ofList (body.drop 1))⟩

def responseText (r : Http.Response) : String :=
  let headers := r.headers.map fun h => h.name ++ ": " ++ h.value ++ "\n"
  toString r.status ++ "\n" ++ String.join headers ++ "\n" ++ (Bytes.text? r.body).getD "" ++ "\n"

def report (filter : LogFilter) (s : Server) : IO Server := do
  let (notes, s) := s.readJournal
  for line in reported filter notes do
    IO.println line
  return s

def answer (s : Server) (r : Http.Request) : Server × Option Http.Response :=
  let t := ((s.demand (.request r)).await s.fresh).settle
  match t.answer? s.fresh with
  | some (.response response) => (t, some response)
  | _ => (t, none)

/-- Answers lines until there are none. -/
partial def serve (filter : LogFilter) (s : Server) (since : Nat) (input : IO.FS.Stream) :
    IO Server := do
  let line ← input.getLine
  if line.isEmpty then return s
  let now ← IO.monoMsNow
  let (s, response) := answer (s.pass (now - since)) (requestOf line.trimAscii.toString)
  let s ← report filter s
  if let some r := response then
    IO.print (responseText r)
  serve filter s now input

def runExit (e : Exit) : IO UInt32 := do
  IO.print e.stdout
  IO.eprint e.stderr
  return e.code.toUInt32

def runServer (settings : Settings) (filter : LogFilter) : IO UInt32 := do
  let since ← IO.monoMsNow
  let (s, started) := demoLaunch (demoServer settings Instant.render) settings .ok
  let s ← report filter s
  match started with
  | .running _ =>
    let s ← serve filter s since (← IO.getStdin)
    let _ ← report filter ((s.log .info "🛑 Shutting down DevServe...").stop)
    return 0
  | .failed e => runExit (startFailure e)
  | _ => return 1

end HotSwap.CommandLine

open HotSwap.CommandLine

def main (arguments : List String) : IO UInt32 := do
  match launch arguments (← presentFiles) (← presentEnvironment) with
  | .exit e => runExit e
  | .serve settings filter said =>
    IO.eprint said
    runServer settings filter

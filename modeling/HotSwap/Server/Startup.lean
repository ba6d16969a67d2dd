import HotSwap.Server.Embedding
import HotSwap.Server.Schedule
import HotSwap.Settings.Address

/-!
# Starting and stopping

A server starts with an engine, then finds its address and listens, and only then lets triggers ask
for reloads. What surrounds it decides whether it can listen at an address.
-/

namespace HotSwap

/-- The endpoint listened at, with a free port in place of zero, or why there is none. -/
abbrev Binding := Endpoint → Except String Endpoint

/-- What a server asks of the network that it is in. -/
structure Network (M : Type → Type) where
  /-- The addresses that a host stands for, with the port, or why there are none. -/
  lookUp : String → UInt16 → M (Except String (List Endpoint))
  bind : Endpoint → M (Except String Endpoint)

/-- A network that knows no names. -/
def Network.nameless (bind : Binding) : Network Id where
  lookUp host port := pure (Address.lookUp host port)
  bind e := pure (bind e)

inductive Started where
  | running (e : Endpoint)
  | failed (e : ServerError)
  | panic (p : Payload)
  /-- The first engine is not there yet. -/
  | loading

namespace Server

/-- A server that has the settings and has not begun. -/
def ofSettings (settings : Settings) (registry : Registry) (clock : Instant → String) : Server :=
  .start ⟨registry, settings.classpathEntries, settings.drainTimeoutMs.toBitVec,
    settings.corsEnabled, clock⟩

def listeningLines (settings : Settings) (e : Endpoint) : List String := [
  (if settings.port = 0 then "📡 DevServe running on dynamically assigned port: "
    else "📡 DevServe running on port: ") ++ toString e.port.toNat,
  "🔗 Server address: http://" ++ e.render,
  "📊 GraphiQL IDE: http://" ++ e.render ++ "/graphiql"]

def readyLine : String := "🔥 Hot-reload enabled: POST /reload or send SIGHUP"

def logAll (s : Server) (lines : List String) : Server := lines.foldl (fun s l => s.log .info l) s

/-- Tells where it listens, and installs the triggers one after the other. -/
def serve (s : Server) (settings : Settings) (triggers : List Trigger) (e : Endpoint) : Server :=
  let listening := s.logAll (listeningLines settings e)
  ((triggers.foldl install listening).log .info readyLine).settle

section Network

variable {M : Type → Type} [Monad M]

def listen (net : Network M) (s : Server) (settings : Settings) (triggers : List Trigger) :
    M (Server × Started) := do
  match settings.chosen (← net.lookUp settings.host settings.port) with
  | .error reason => return (s, .failed (.invalidInput reason))
  | .ok wanted =>
    match ← net.bind wanted with
    | .error reason => return (s, .failed (.bind wanted.render reason))
    | .ok e => return (s.serve settings triggers e, .running e)

/-- Loads the first engine before anything else. -/
def launchIn (net : Network M) (s : Server) (settings : Settings) (triggers : List Trigger) :
    M (Server × Started) :=
  let begun := s.log .info "🚀 Starting DevServe..."
  let loaded := (begun.demand .startup).await begun.fresh
  match loaded.answer? begun.fresh with
  | some (.report r) =>
    (loaded.log .info ("✅ Engine from " ++ r.provider ++ " ready")).listen net settings triggers
  | some (.refused e) => return (loaded, .failed (.reload e))
  | some (.panic p) => return (loaded, .panic p)
  | _ => return (loaded, .loading)

end Network

def launch (s : Server) (settings : Settings) (triggers : List Trigger) (bind : Binding) :
    Server × Started :=
  (s.launchIn (.nameless bind) settings triggers).run

def allListeners (s : Server) : List CallId :=
  s.calls.filterMap fun call =>
    match call.activity with
    | .listener _ => some call.id
    | _ => none

def requests (s : Server) : List CallId :=
  s.calls.filterMap fun call => if call.activity.request?.isSome then some call.id else none

/-- Requests go on until they end, or until it takes too long. -/
def finishRequests (s : Server) : Server :=
  let limit := s.setup.drainTimeout.toNat
  let waited := s.requests.foldl (fun t c => awaitFor (4 * limit + 4) t none c (s.now + limit)) s
  if waited.requests = [] then waited
  else
    waited.log .warn ("In-flight requests still running after " ++ Duration.render limit ++
      "; stopping without them")

/-- Triggers ask no more, requests are finished, and the engine is released. -/
def stop (s : Server) : Server :=
  let served := (s.allListeners.foldl cancel s).finishRequests
  ((served.demand .shutdown).await served.fresh).settle

end Server

end HotSwap

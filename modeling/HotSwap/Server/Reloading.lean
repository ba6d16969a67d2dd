import HotSwap.Http.Routing
import HotSwap.Server.Retiring

/-!
# Reloads and shutdowns

A reload makes an engine, installs it and retires the one before; a failure on the way leaves the
slot as it was. One that finds the guard held is refused at once, while a shutdown waits for it.
-/

namespace HotSwap.Server

def respond (s : Server) (c : CallId) (r : Http.Request) (response : Http.Response) : Server :=
  s.finish c (.response (r.dress s.setup.cors response))

def startupLine : String := "🚀 Loading initial engine..."

def requestLine : String := "Reload requested via HTTP"

def refusalLine : String := "Reload requested while another reload is in progress; rejecting"

def announce (s : Server) : Origin → Server
  | .startup => s.log .info startupLine
  | .http _ => s.log .info requestLine
  | _ => s

/-- The response to a request for a reload. -/
def reloadResponse : Except ReloadError Report → Http.Response
  | .ok _ => .text 200 "Reloaded successfully"
  | .error .alreadyInProgress => .text 409 "Reload already in progress"
  | .error e => .text 500 ("Reload failed: " ++ e.message)

def triggerLine (name : String) : Except ReloadError Report → Level × String
  | .ok r =>
    (.info, "🔥 Hot-reload via " ++ name ++ " completed: generation " ++ toString r.generation ++
      " from " ++ r.provider)
  | .error .alreadyInProgress =>
    (.warn, "Hot-reload via " ++ name ++ " skipped: reload already in progress")
  | .error e => (.error, "Hot-reload via " ++ name ++ " failed: " ++ e.message)

def answerOf : Except ReloadError Report → Answer
  | .ok r => .report r
  | .error e => .refused e

/-- Ends a reload by telling who asked for it. -/
def conclude (s : Server) (c : CallId) (origin : Origin) (result : Except ReloadError Report) :
    Server :=
  let returned := s.note (.returned c result)
  match origin with
  | .http r =>
    let told := match result with
      | .ok _ | .error .alreadyInProgress => returned
      | .error e => returned.log .error ("Reload failed: " ++ e.message)
    told.respond c r (reloadResponse result)
  | .trigger name _ =>
    let line := triggerLine name result
    (returned.log line.1 line.2).finish c (answerOf result)
  | _ => returned.finish c (answerOf result)

def context (s : Server) (a : Attempt) : Context := ⟨s.setup.classpath, a.generation⟩

def discover (s : Server) (c : CallId) (a : Attempt) : Discovery :=
  .run s.setup.registry (s.context a) c s.constructed

/-- The engine that the maker gives, which is the earlier one if it is shared. -/
def produce (s : Server) (constructor : Nat) (recipe : Recipe) (engine : Engine) :
    Server × Product :=
  if recipe.shared then
    match s.shared.lookup constructor with
    | some product => (s, product)
    | none =>
      let product := ⟨s.fresh, engine⟩
      ({ s with fresh := s.fresh + 1, shared := (constructor, product) :: s.shared }, product)
  else ({ s with fresh := s.fresh + 1 }, ⟨s.fresh, engine⟩)

def reloadArriving (s : Server) (c : CallId) (origin : Origin) : Server :=
  let told := s.announce origin
  match told.guard.enter? c with
  | none => (told.log .warn refusalLine).conclude c origin (.error .alreadyInProgress)
  | some guard =>
    let attempt : Attempt := ⟨told.nextGeneration, told.now⟩
    let inside := { told with guard := guard, nextGeneration := told.nextGeneration + 1 }
    (inside.note (.begun c attempt.generation)).proceedTo c (.reload origin (.numbered attempt))

def reloadNumbered (s : Server) (c : CallId) (origin : Origin) (a : Attempt) : Server :=
  let begun := { s with status := s.status.begin s.clock }
  (begun.log .info "🔄 Reloading engine...").proceedTo c (.reload origin (.building a))

def reloadBuilding (s : Server) (c : CallId) (origin : Origin) (a : Attempt) : Server :=
  let d := s.discover c a
  let found := { s with constructed := d.constructed, journal := d.notes.reverse ++ s.journal }
  match d.found with
  | .provider name k recipe => found.proceedTo c (.reload origin (.constructed a name k recipe))
  | .failure e => found.proceedTo c (.reload origin (.failing a (.discovery e)))
  | .panic p => found.finish c (.panic p)

def reloadConstructed (s : Server) (c : CallId) (origin : Origin) (a : Attempt) (provider : String)
    (k : Nat) (recipe : Recipe) : Server :=
  let asked := (s.log .debug ("Getting engine instance from provider " ++ provider)).note
    (.asked c provider recipe.tag recipe.noted)
  asked.proceedTo c (.reload origin (.asking a provider k recipe))

def reloadAsking (s : Server) (c : CallId) (origin : Origin) (a : Attempt) (provider : String)
    (k : Nat) (recipe : Recipe) : Server :=
  match recipe.engine with
  | .made engine =>
    let (made, product) := s.produce k recipe engine
    made.proceedTo c (.reload origin (.installing a provider product))
  | .failed e => s.proceedTo c (.reload origin (.failing a (.construction provider e)))
  | .panic p => s.finish c (.panic p)

/-- The installation that the next swap makes. -/
def installation (s : Server) (a : Attempt) (provider : String) (product : Product) :
    Installation :=
  ⟨s.fresh, product, provider, a.generation, s.clock⟩

def swap (s : Server) (i : Installation) : Server :=
  { s with slot := some i, fresh := s.fresh + 1 }.note (.installed i s.slot)

def reloadInstalling (s : Server) (c : CallId) (origin : Origin) (a : Attempt) (provider : String)
    (product : Product) : Server :=
  let swapped := (s.swap (s.installation a provider product)).log .info
    ("✅ Engine from " ++ provider ++ " installed")
  match s.slot with
  | some old => swapped.proceedTo c (.reload origin (.retiring a provider (s.retire old)))
  | none => swapped.proceedTo c (.reload origin (.completing a provider none))

def reloadCompleting (s : Server) (c : CallId) (origin : Origin) (a : Attempt) (provider : String)
    (previous : Option Nat) : Server :=
  let succeeded := { s with status := s.status.succeed s.clock a.generation }
  (succeeded.log .info "Reload completed").conclude c origin
    (.ok ⟨provider, a.generation, previous, s.now - a.started⟩)

def reloadFailing (s : Server) (c : CallId) (origin : Origin) (e : ReloadError) : Server :=
  let told := s.log .error ("❌ Reload failed, keeping previous engine: " ++ e.message)
  let settled := { told with status := (told.status.fail told.clock e.message).settle }
  settled.conclude c origin (.error e)

def reloadStep (s : Server) (c : CallId) (origin : Origin) : Reload.Stage → Server
  | .arriving => s.reloadArriving c origin
  | .numbered a => s.reloadNumbered c origin a
  | .building a => s.reloadBuilding c origin a
  | .constructed a provider k recipe => s.reloadConstructed c origin a provider k recipe
  | .asking a provider k recipe => s.reloadAsking c origin a provider k recipe
  | .installing a provider product => s.reloadInstalling c origin a provider product
  | .retiring a provider r =>
    s.advanceRetirement c r (fun r => .reload origin (.retiring a provider r)) fun t =>
      t.proceedTo c
        (.reload origin (.completing a provider (some r.installation.generation)))
  | .completing a provider previous => s.reloadCompleting c origin a provider previous
  | .failing _ e => s.reloadFailing c origin e

/-- The slot is emptied, and what was in it retires. -/
def takeDown (s : Server) (c : CallId) : Server :=
  match s.slot with
  | none => s.finish c .done
  | some i =>
    let emptied := { s with slot := none }.note (.taken i)
    (emptied.log .info ("🛑 Releasing engine generation " ++ toString i.generation)).proceedTo c
      (.shutdown (.retiring (s.retire i)))

def shutdownStep (s : Server) (c : CallId) : Shutdown.Stage → Server
  | .arriving => { s with guard := s.guard.join c }.proceedTo c (.shutdown .queued)
  | .queued => s.takeDown c
  | .retiring r =>
    s.advanceRetirement c r (fun r => .shutdown (.retiring r)) fun t => t.finish c .done

end HotSwap.Server

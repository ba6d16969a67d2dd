import HotSwap.Server.Answering

/-!
# Steps

A step lets a call go on to its next stage, or tells the server something from outside. Runs may
let calls go on in any order, cancel them anywhere and let any time pass in between.
-/

namespace HotSwap

/-- What can be asked of a server. -/
inductive Demand where
  | startup
  | reload
  | shutdown
  | request (r : Http.Request)
  /-- The engine that is kept under a name executes something. -/
  | execution (name : String) (input : Graphql.Request)
  | listen (s : Source)

namespace Server

def demanded? (s : Server) : Demand → Option Activity
  | .startup => some (.reload .startup .arriving)
  | .reload => some (.reload .program .arriving)
  | .shutdown => some (.shutdown .arriving)
  | .request r => some (.request r)
  | .execution name input => (s.kept.lookup name).map fun i => .execution i input
  | .listen source => some (.listener source)

/-- The call takes a number from `fresh`. -/
def demand (s : Server) (d : Demand) : Server :=
  match s.demanded? d with
  | some a => s.begin a
  | none => s

def hangupName : String := "SIGHUP"

def channelName : String := "channel"

def receive (s : Server) (c : CallId) (id : ChannelId) : Server :=
  match s.channel? id with
  | none => s.finish c .done
  | some ch =>
    if 0 < ch.pending then
      (s.updateChannel id fun ch => { ch with pending := ch.pending - 1 }).begin
        (.reload (.trigger channelName (some id)) .arriving)
    else (s.close (.channel id)).finish c .done

def listenStep (s : Server) (c : CallId) : Source → Server
  | .nothing => s.finish c .done
  | .channel id => s.receive c id
  | .hangup =>
    ({ s with hungUp := s.hungUp.erase c }.log .info
      "Received SIGHUP signal, reloading...").begin (.reload (.trigger hangupName none) .arriving)

/-- The call goes on from where it is, with nothing to wait for. -/
def act (s : Server) (c : CallId) : Activity → Server
  | .reload origin stage => s.reloadStep c origin stage
  | .shutdown stage => s.shutdownStep c stage
  | .request r => s.requestStep c r
  | .query r stage => s.queryStep c r stage
  | .status r => s.proceedTo c (.statusOf r s.slot)
  | .statusOf r current => s.respond c r (jsonResponse 200 (s.statusJson current))
  | .execution i input => (s.note (.executed c i input)).proceedTo c (.executing i input)
  | .executing i input => s.finish c (.outcome (i.engine.execute input))
  | .retirement r => s.advanceRetirement c r .retirement fun t => t.finish c .done
  | .listener source => s.listenStep c source

/-- Whether a call waits for something other than a gate. -/
def Waits (s : Server) (c : CallId) (a : Activity) : Prop :=
  match a with
  | .shutdown .queued => s.guard.holder ≠ some c
  | .listener (.channel id) => ∃ ch ∈ s.channel? id, ch.pending = 0 ∧ 0 < ch.senders
  | .listener .hangup => c ∉ s.hungUp
  | a =>
    match a.retirement? with
    | some ⟨_, _, .sleeping wake⟩ => s.now < wake
    | _ => False

instance (s : Server) (c : CallId) (a : Activity) : Decidable (s.Waits c a) := by
  unfold Waits
  split
  · infer_instance
  · infer_instance
  · infer_instance
  · split <;> infer_instance

/-- The call goes on if it can, or gets in line. -/
def proceed (s : Server) (c : CallId) : Server :=
  match s.activity? c with
  | none => s
  | some a =>
    match a.gate? with
    | none => if s.Waits c a then s else s.act c a
    | some g =>
      match (s.turnstile g).enter c with
      | (t, true) => (s.setTurnstile g t).act c a
      | (t, false) => s.setTurnstile g t

/-- Whether a call is at rest until something else happens. -/
def Rests (s : Server) (c : CallId) : Prop :=
  match s.activity? c with
  | none => True
  | some a =>
    match a.gate? with
    | none => s.Waits c a
    | some g => c ∈ (s.turnstile g).queue

instance (s : Server) (c : CallId) : Decidable (s.Rests c) := by
  unfold Rests
  split
  · infer_instance
  · split <;> infer_instance

def permit (s : Server) (g : Gate) (n : Nat) : Server :=
  let t := s.turnstile g
  (s.setTurnstile g (t.permit n)).wakeAll (t.admitted n)

/-- Time passes, and those that sleep until then can go on, the earliest first. -/
def elapse (s : Server) (ms : Nat) : Server :=
  let now := s.now + ms
  let due := s.timers.takeWhile (·.due ≤ now)
  { s with now := now, timers := s.timers.dropWhile (·.due ≤ now) }.wakeAll (due.map Timer.call)

/-- The program keeps the engine in service under a name. -/
def keep (s : Server) (name : String) : Server :=
  match s.slot with
  | some i => { s with kept := (name, i) :: s.kept.filter (·.1 ≠ name) }
  | none => s

def letGo (s : Server) (name : String) : Server :=
  { s with kept := s.kept.filter (·.1 ≠ name) }

/-- A new channel with one sender; it gets the fresh number. -/
def openChannel (s : Server) : Server :=
  { s with fresh := s.fresh + 1, channels := s.channels.concat (s.fresh, ⟨0, 1, true⟩) }

/-- The listeners at a source. -/
def listeners (s : Server) (source : Source) : List CallId :=
  s.calls.filterMap fun call =>
    match call.activity with
    | .listener l => if l = source then some call.id else none
    | _ => none

def wakeListeners (s : Server) (source : Source) : Server := s.wakeAll (s.listeners source)

/-- Whether what is sent will be received. -/
def Accepts (s : Server) (id : ChannelId) : Prop := ∃ ch ∈ s.channel? id, ch.received

instance (s : Server) (id : ChannelId) : Decidable (s.Accepts id) :=
  inferInstanceAs (Decidable (∃ ch ∈ s.channel? id, _))

def send (s : Server) (id : ChannelId) : Server :=
  if s.Accepts id then
    (s.updateChannel id fun ch => { ch with pending := ch.pending + 1 }).wakeListeners (.channel id)
  else s

def addSender (s : Server) (id : ChannelId) : Server :=
  s.updateChannel id fun ch => { ch with senders := ch.senders + 1 }

def dropSender (s : Server) (id : ChannelId) : Server :=
  (s.updateChannel id fun ch => { ch with senders := ch.senders - 1 }).wakeListeners (.channel id)

/-- The receiving side of a channel is thrown away. A listener would have taken it. -/
def dropReceiver (s : Server) (id : ChannelId) : Server :=
  if s.listeners (.channel id) = [] then s.close (.channel id) else s

def hangUp (s : Server) : Server :=
  { s with hungUp := s.listeners .hangup }.wakeListeners .hangup

inductive Action where
  | demand (d : Demand)
  | proceed (c : CallId)
  | cancel (c : CallId)
  | elapse (ms : Nat)
  | permit (g : Gate) (n : Nat)
  | keep (name : String)
  | letGo (name : String)
  | openChannel
  | send (id : ChannelId)
  | addSender (id : ChannelId)
  | dropSender (id : ChannelId)
  | dropReceiver (id : ChannelId)
  | hangUp

def step (s : Server) : Action → Server
  | .demand d => s.demand d
  | .proceed c => s.proceed c
  | .cancel c => s.cancel c
  | .elapse ms => s.elapse ms
  | .permit g n => s.permit g n
  | .keep name => s.keep name
  | .letGo name => s.letGo name
  | .openChannel => s.openChannel
  | .send id => s.send id
  | .addSender id => s.addSender id
  | .dropSender id => s.dropSender id
  | .dropReceiver id => s.dropReceiver id
  | .hangUp => s.hangUp

def run (s : Server) (actions : List Action) : Server := actions.foldl step s

end Server

end HotSwap

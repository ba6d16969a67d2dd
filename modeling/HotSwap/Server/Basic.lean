import HotSwap.Server.Discovery

/-!
# The state of a server

The server has a slot for the engine in service, a guard that reloads and shutdowns pass one at a
time, and the calls that have not ended. Each call is let on when it is its turn.
-/

namespace HotSwap

structure Setup where
  registry : Registry
  classpath : List String
  /-- In milliseconds, as settings give it: 64 bits of them end before the clock does. -/
  drainTimeout : BitVec 64
  /-- Sharing across origins. -/
  cors : Bool
  /-- How instants are written. -/
  clock : Instant → String

/-- Messages that ask for reloads. -/
structure Channel where
  pending : Nat
  senders : Nat
  /-- Someone will receive what is sent. -/
  received : Bool
  deriving DecidableEq, Repr

structure Timer where
  due : Time
  call : CallId
  deriving DecidableEq, Repr

/-- Timers stay in the order in which they are due, and those due at once in which they were set. -/
def Timer.insert (t : Timer) : List Timer → List Timer
  | [] => [t]
  | u :: rest => if u.due ≤ t.due then u :: t.insert rest else t :: u :: rest

structure Server where
  setup : Setup
  slot : Option Installation
  guard : Guard
  status : Status
  nextGeneration : Nat
  now : Time
  /-- A number that nothing has. -/
  fresh : Nat
  /-- The calls that have not ended, the first to begin first. -/
  calls : List Call
  answers : List (CallId × Answer)
  /-- What the program holds, by name. -/
  kept : List (String × Installation)
  gates : List (Gate × Turnstile)
  channels : List (ChannelId × Channel)
  /-- The listeners that have been told of a hangup. -/
  hungUp : List CallId
  constructed : Constructed
  /-- The engines that are handed out again, by constructor. -/
  shared : List (Nat × Product)
  /-- The first to be due first. -/
  timers : List Timer
  /-- The calls that can go on, in the order in which they came to. -/
  ready : List CallId
  /-- The latest note first. -/
  journal : List Note

namespace Server

def start (setup : Setup) : Server where
  setup := setup
  slot := none
  guard := .free
  status := .initial
  nextGeneration := 1
  now := 0
  fresh := 0
  calls := []
  answers := []
  kept := []
  gates := []
  channels := []
  hungUp := []
  constructed := []
  shared := []
  timers := []
  ready := []
  journal := []

def clock (s : Server) : Instant := .ofMillis s.now

def note (s : Server) (n : Note) : Server := { s with journal := n :: s.journal }

def log (s : Server) (level : Level) (text : String) : Server := s.note (.log level text)

def call? (s : Server) (c : CallId) : Option Call := s.calls.find? (·.id = c)

def activity? (s : Server) (c : CallId) : Option Activity := (s.call? c).map Call.activity

def answer? (s : Server) (c : CallId) : Option Answer := s.answers.lookup c

def turnstile (s : Server) (g : Gate) : Turnstile := (s.gates.lookup g).getD .closed

def setTurnstile (s : Server) (g : Gate) (t : Turnstile) : Server :=
  { s with gates := (g, t) :: s.gates.filter (·.1 ≠ g) }

def channel? (s : Server) (id : ChannelId) : Option Channel := s.channels.lookup id

def updateChannel (s : Server) (id : ChannelId) (f : Channel → Channel) : Server :=
  { s with channels := s.channels.map fun e => if e.1 = id then (id, f e.2) else e }

/-- Has a call go on when it is its turn. -/
def wake (s : Server) (c : CallId) : Server :=
  if c ∈ s.ready then s else { s with ready := s.ready ++ [c] }

def wakeAll (s : Server) (cs : List CallId) : Server := cs.foldl wake s

/-- Has the call go on with `a`. -/
def proceedTo (s : Server) (c : CallId) (a : Activity) : Server :=
  { s with calls := s.calls.map fun e => if e.id = c then { e with activity := a } else e }

/-- A new call; it gets the fresh number. -/
def begin (s : Server) (a : Activity) : Server :=
  let known := { s with fresh := s.fresh + 1, calls := s.calls.concat ⟨s.fresh, a⟩ }
  (known.note (.called s.fresh a)).wake s.fresh

/-- Someone other than who retires it refers to the engine. -/
def InUse (s : Server) (i : Installation) : Prop :=
  (∃ j ∈ s.slot, j.id = i.id) ∨
  (∃ call ∈ s.calls, ∃ j ∈ call.activity.held?, j.id = i.id) ∨
  ∃ k ∈ s.kept, k.2.id = i.id

instance (s : Server) (i : Installation) : Decidable (s.InUse i) :=
  inferInstanceAs (Decidable ((∃ j ∈ s.slot, _) ∨ (∃ call ∈ s.calls, ∃ j ∈ call.activity.held?, _) ∨
    ∃ k ∈ s.kept, _))

/-- The guard goes from the call to the next in line. -/
def leaveGuard (s : Server) (c : CallId) : Server :=
  let guard := s.guard.leave c
  let handed := { s with guard := guard }
  if s.guard.holder = some c then handed.wakeAll guard.holder.toList else handed

/-- The call is no longer in line at the gate, and a permit that it was given goes to the next. -/
def leaveGate (s : Server) (c : CallId) (g : Gate) : Server :=
  let t := s.turnstile g
  if t.Owes c then
    let rest := t.withdraw c
    (s.setTurnstile g (rest.permit 1)).wakeAll (rest.admitted 1)
  else if c ∈ t.queue then s.setTurnstile g (t.withdraw c)
  else s

/-- The listener hears no more, so that what is sent to it is lost. -/
def close (s : Server) : Source → Server
  | .channel id => s.updateChannel id fun ch => { ch with pending := 0, received := false }
  | _ => s

def stopListening (s : Server) : Activity → Server
  | .listener source => s.close source
  | _ => s

/-- The call ends with an answer. -/
def finish (s : Server) (c : CallId) (a : Answer) : Server :=
  let left := s.leaveGuard c
  { left with
    calls := left.calls.filter (·.id ≠ c)
    ready := left.ready.erase c
    timers := left.timers.filter (·.call ≠ c)
    hungUp := left.hungUp.erase c
    answers := (c, a) :: left.answers
    journal := .ended c a :: left.journal }

/-- The call goes no further from where it is. -/
def cancel (s : Server) (c : CallId) : Server :=
  match s.activity? c with
  | none => s
  | some a =>
    let left := match a.gate? with
      | some g => s.leaveGate c g
      | none => s
    (left.stopListening a).finish c .cancelled

end Server

end HotSwap

import HotSwap.Server.Step
import HotSwap.Time.Duration

/-!
# Servers within programs

A program that runs a server may look at it, put an engine of its own into the slot or take the
engine out, and install triggers.
-/

namespace HotSwap

/-- What asks for reloads from outside. -/
inductive Trigger where
  | nothing
  | channel (id : ChannelId)
  | hangup
  /-- It cannot be registered. -/
  | broken (name : String) (e : TriggerError)

namespace Trigger

def name : Trigger → String
  | nothing => "noop"
  | channel _ => Server.channelName
  | hangup => Server.hangupName
  | broken name _ => name

def source : Trigger → Except TriggerError Source
  | nothing => .ok .nothing
  | channel id => .ok (.channel id)
  | hangup => .ok .hangup
  | broken _ e => .error e

end Trigger

namespace Server

/-- Installs an engine that no provider was asked for. -/
def exchange (s : Server) (provider : String) (generation : Nat) (engine : Engine) : Server :=
  let made := { s with fresh := s.fresh + 1 }
  made.swap (made.installation ⟨generation, made.now⟩ provider ⟨s.fresh, engine⟩)

def vacate (s : Server) : Server :=
  match s.slot with
  | some i => { s with slot := none }.note (.taken i)
  | none => s

/-- Of the engine in service, or zero. -/
def generation (s : Server) : Nat := (s.slot.map Installation.generation).getD 0

/-- Has the trigger listen, or warns that it cannot. -/
def install (s : Server) (t : Trigger) : Server :=
  match t.source with
  | .ok source =>
    (s.demand (.listen source)).log .info (t.name ++ " handler registered for hot-reload")
  | .error e =>
    s.log .warn ("Could not register " ++ t.name ++
      " handler (may not be supported on this platform): " ++ e.message)

def renderSlot (s : Server) : String :=
  Text.braced "EngineHandle" [
    ("current",
      match s.slot with
      | some i => "Some(" ++ i.render s.setup.clock ++ ")"
      | none => "None")]

def render (s : Server) : String :=
  Text.braced "ReloadController" [
    ("registry", s.setup.registry.render),
    ("handle", s.renderSlot),
    ("classpath", Text.bracketed (s.setup.classpath.map Text.quotedPath)),
    ("drain_timeout", Duration.render s.setup.drainTimeout.toNat)]

/-- What happened since the journal was last read, the first first. -/
def readJournal (s : Server) : List Note × Server :=
  (s.journal.reverse, { s with journal := [] })

end Server

end HotSwap

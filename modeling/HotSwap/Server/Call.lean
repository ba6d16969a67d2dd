import HotSwap.Engine.Installation
import HotSwap.Http.Message
import HotSwap.Provider.Registry
import HotSwap.Reload.Status
import HotSwap.Server.Turnstile

/-!
# Calls

A call goes on in stages, between which others may go on. Some stages have to wait: for the guard,
at a gate, until some time, or for a message.
-/

namespace HotSwap

/-- Milliseconds since the server was set up. -/
abbrev Time := Nat

abbrev ChannelId := Nat

/-- Who asked for a reload, and is told how it ended. -/
inductive Origin where
  | startup
  | program
  | http (request : Http.Request)
  | trigger (name : String) (channel : Option ChannelId)

/-- What is known of a reload past the guard. -/
structure Attempt where
  generation : Nat
  started : Time
  deriving DecidableEq, Repr

inductive Draining where
  | polling
  | sleeping (wake : Time)
  /-- No one else refers to the engine. -/
  | free
  | releasing
  deriving DecidableEq, Repr

/-- An engine that is out of service and will be released. -/
structure Retirement where
  installation : Installation
  /-- From when on it is left to the background, where it already is if there is none. -/
  deadline : Option Time
  stage : Draining

namespace Reload

inductive Stage where
  | arriving
  | numbered (a : Attempt)
  | building (a : Attempt)
  | constructed (a : Attempt) (provider : String) (constructor : Nat) (recipe : Recipe)
  | asking (a : Attempt) (provider : String) (constructor : Nat) (recipe : Recipe)
  | installing (a : Attempt) (provider : String) (product : Product)
  | retiring (a : Attempt) (provider : String) (r : Retirement)
  | completing (a : Attempt) (provider : String) (previous : Option Nat)
  | failing (a : Attempt) (e : ReloadError)

end Reload

namespace Shutdown

inductive Stage where
  | arriving
  | queued
  | retiring (r : Retirement)

end Shutdown

namespace Query

inductive Stage where
  | arriving (body : Bytes)
  | parsed (input : Graphql.Request)
  | holding (i : Installation) (input : Graphql.Request)
  | executing (i : Installation) (input : Graphql.Request)

end Query

/-- What a listener waits for. -/
inductive Source where
  | nothing
  | channel (id : ChannelId)
  | hangup
  deriving DecidableEq, Repr

inductive Activity where
  | reload (origin : Origin) (stage : Reload.Stage)
  | shutdown (stage : Shutdown.Stage)
  | request (r : Http.Request)
  | query (r : Http.Request) (stage : Query.Stage)
  | status (r : Http.Request)
  /-- The engine that was installed when the status was asked for. -/
  | statusOf (r : Http.Request) (current : Option Installation)
  /-- An engine that the program holds is called. -/
  | execution (i : Installation) (input : Graphql.Request)
  | executing (i : Installation) (input : Graphql.Request)
  | retirement (r : Retirement)
  | listener (s : Source)

/-- How a call ends. -/
inductive Answer where
  | report (r : Report)
  | refused (e : ReloadError)
  | response (r : Http.Response)
  | outcome (o : Outcome)
  | done
  | panic (p : Payload)
  | cancelled

structure Call where
  id : CallId
  activity : Activity

namespace Activity

/-- The engine that a call refers to. The engine that it is about to release is not counted. -/
def held? : Activity → Option Installation
  | query _ (.holding i _) => some i
  | query _ (.executing i _) => some i
  | statusOf _ i => i
  | execution i _ => some i
  | executing i _ => some i
  | _ => none

def retirement? : Activity → Option Retirement
  | reload _ (.retiring _ _ r) => some r
  | shutdown (.retiring r) => some r
  | retirement r => some r
  | _ => none

/-- The request that a call will answer. -/
def request? : Activity → Option Http.Request
  | reload (.http r) _ => some r
  | request r => some r
  | query r _ => some r
  | status r => some r
  | statusOf r _ => some r
  | _ => none

/-- The gate that a call stands at. -/
def gate? : Activity → Option Gate
  | reload _ (.asking _ _ _ recipe) => recipe.gate
  | query _ (.executing i _) => i.engine.gate
  | executing i _ => i.engine.gate
  | a =>
    match a.retirement? with
    | some ⟨i, _, .releasing⟩ => i.engine.releaseGate
    | _ => none

end Activity

end HotSwap

import HotSwap.Server.Basic

/-!
# Retiring engines

An engine out of service is polled until no one refers to it, and is then released. If that takes
too long, the rest is left to a call of its own.
-/

namespace HotSwap

/-- What a step of a retirement leads to. -/
inductive Retiring where
  | going (r : Retirement)
  | over
  | panic (p : Payload)

namespace Server

/-- Milliseconds between two looks at whether an engine is in use. -/
def pollInterval : Nat := 10

def retire (s : Server) (i : Installation) : Retirement :=
  ⟨i, some (s.now + s.setup.drainTimeout.toNat), .polling⟩

def drainWarning : String := "Old engine still in use after drain timeout; releasing in background"

def sleep (s : Server) (c : CallId) (r : Retirement) : Server × Retiring :=
  let wake := s.now + pollInterval
  ({ s with timers := Timer.insert ⟨wake, c⟩ s.timers }, .going { r with stage := .sleeping wake })

/-- The look at whether the engine is in use comes before that at the time. -/
def poll (s : Server) (c : CallId) (r : Retirement) : Server × Retiring :=
  if s.InUse r.installation then
    if ∃ d ∈ r.deadline, d ≤ s.now then
      ((s.log .warn drainWarning).begin (.retirement ⟨r.installation, none, .polling⟩), .over)
    else s.sleep c r
  else (s, .going { r with stage := .free })

def released (s : Server) (c : CallId) (i : Installation) : Server × Retiring :=
  let ended := s.note (.releaseEnded c i)
  match i.engine.release with
  | .released => (ended.log .debug ("Released engine from " ++ i.provider), .over)
  | .failed message =>
    (ended.log .warn ("Error releasing previous engine: " ++ releaseFailure message), .over)
  | .panic p => (s, .panic p)

def retireStep (s : Server) (c : CallId) (r : Retirement) : Server × Retiring :=
  match r.stage with
  | .polling => s.poll c r
  | .sleeping _ => (s, .going { r with stage := .polling })
  | .free => (s.note (.released c r.installation), .going { r with stage := .releasing })
  | .releasing => s.released c r.installation

/-- A step of the retirement within some call. -/
def advanceRetirement (s : Server) (c : CallId) (r : Retirement) (going : Retirement → Activity)
    (ended : Server → Server) : Server :=
  match s.retireStep c r with
  | (t, .going r) => t.proceedTo c (going r)
  | (t, .over) => ended t
  | (t, .panic p) => t.finish c (.panic p)

end Server

end HotSwap

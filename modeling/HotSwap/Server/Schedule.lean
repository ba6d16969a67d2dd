import HotSwap.Server.Step

/-!
# Schedules

One thread lets the calls go on in turn, each until it rests, and time passes only while all of
them do. A run of the schedule is a run of steps in one of the orders that steps allow.
-/

namespace HotSwap.Server

/-- How many messages wait to be received. -/
def pending (s : Server) : Nat := s.channels.foldl (fun n e => n + e.2.pending) 0

/-- No call takes more steps than this before it rests. -/
def turnLimit (s : Server) : Nat := 32 + s.pending

def letOn : Nat → Server → CallId → Server
  | 0, s, _ => s
  | n + 1, s, c => if s.Rests c then s else letOn n (s.proceed c) c

/-- The call goes on until it rests. -/
def takeTurn (s : Server) (c : CallId) : Server :=
  letOn s.turnLimit { s with ready := s.ready.erase c } c

/-- No more turns than this can follow each other while no time passes. -/
def settleLimit (s : Server) : Nat := 4 * (s.calls.length + s.pending + 1)

def settleFor : Nat → Server → Option CallId → Server
  | 0, s, _ => s
  | n + 1, s, apart =>
    match s.ready.find? (some · ≠ apart) with
    | some c => settleFor n (s.takeTurn c) apart
    | none => s

/-- All calls but one go on until they rest. -/
def settleBut (s : Server) (apart : Option CallId) : Server := settleFor s.settleLimit s apart

def settle (s : Server) : Server := s.settleBut none

/-- When the next one wakes that sleeps. -/
def nextDue? (s : Server) : Option Time := s.timers.head?.map Timer.due

def passFor : Nat → Server → Time → Server
  | 0, s, _ => s
  | n + 1, s, till =>
    match s.nextDue? with
    | some due =>
      if due ≤ till then passFor n (s.elapse (due - s.now)).settle till
      else s.elapse (till - s.now)
    | none => s.elapse (till - s.now)

/-- Time passes, and stops wherever someone wakes. -/
def pass (s : Server) (ms : Nat) : Server := (passFor (ms + 1) s (s.now + ms)).settle

/-- The call has not ended. -/
def IsLive (s : Server) (c : CallId) : Prop := (s.call? c).isSome

instance (s : Server) (c : CallId) : Decidable (s.IsLive c) :=
  inferInstanceAs (Decidable ((s.call? c).isSome = true))

/-- The call set apart goes on, if it can. -/
def prefer (s : Server) : Option CallId → Server
  | some c => if c ∈ s.ready then s.takeTurn c else s
  | none => s

/-- Time passes until someone wakes, at most until the deadline. -/
def sleepTill (s : Server) (deadline : Time) : Server :=
  s.elapse (min (s.nextDue?.getD deadline) deadline - s.now)

def awaitFor : Nat → Server → Option CallId → CallId → Time → Server
  | 0, s, _, _, _ => s
  | n + 1, s, apart, c, deadline =>
    let s := s.prefer apart
    if ¬ s.IsLive c ∨ deadline ≤ s.now then s
    else
      let s := s.settleBut apart
      if ¬ s.IsLive c ∨ ∃ a ∈ apart, a ∈ s.ready then awaitFor n s apart c deadline
      else awaitFor n (s.sleepTill deadline) apart c deadline

/-- How long a call is waited for. -/
def waitLimit : Nat := 60000

/-- Waits for the call to end; where others can go on too, it comes first. -/
def await (s : Server) (c : CallId) : Server :=
  awaitFor (4 * waitLimit) s (some c) c (s.now + waitLimit)

/-- Waits for the call to end, which goes on when it is its turn. -/
def join (s : Server) (c : CallId) : Server :=
  awaitFor (4 * waitLimit) s none c (s.now + waitLimit)

end HotSwap.Server

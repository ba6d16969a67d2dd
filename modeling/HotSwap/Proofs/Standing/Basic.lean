import HotSwap.Server.Step

/-!
# How a server stands

What is in service, what the calls are at and what has happened do not depend on who waits for
what: on gates, timers, channels and whose turn it is. A standing keeps the former only. Most of
what the server does on the way leaves its standing as it is.
-/

namespace HotSwap

/-- Whether a note is a line of the log and nothing else. -/
def Note.isLine : Note → Bool
  | .log _ _ => true
  | _ => false

structure Standing where
  setup : Setup
  slot : Option Installation
  guard : Guard
  status : Status
  nextGeneration : Nat
  fresh : Nat
  calls : List Call
  answers : List (CallId × Answer)
  kept : List (String × Installation)
  /-- All notes but the lines of the log, the latest first. -/
  history : List Note

namespace Standing

/-- What a constructor is told. -/
def context (v : Standing) (a : Attempt) : Context := ⟨v.setup.classpath, a.generation⟩

def notes (v : Standing) (es : List Note) : Standing := { v with history := es ++ v.history }

def proceedTo (v : Standing) (c : CallId) (a : Activity) : Standing :=
  { v with calls := v.calls.map fun e => if e.id = c then { e with activity := a } else e }

def begin (v : Standing) (a : Activity) : Standing :=
  { v with
    fresh := v.fresh + 1
    calls := v.calls.concat ⟨v.fresh, a⟩
    history := .called v.fresh a :: v.history }

def finish (v : Standing) (c : CallId) (x : Answer) : Standing :=
  { v with
    guard := v.guard.leave c
    calls := v.calls.filter (·.id ≠ c)
    answers := (c, x) :: v.answers
    history := .ended c x :: v.history }

/-- How often something was noted. -/
def times (v : Standing) (p : Note → Bool) : Nat := v.history.countP p

/-- Someone other than who retires it refers to the engine. -/
def InUse (v : Standing) (i : Installation) : Prop :=
  (∃ j ∈ v.slot, j.id = i.id) ∨
  (∃ call ∈ v.calls, ∃ j ∈ call.activity.held?, j.id = i.id) ∨
  ∃ k ∈ v.kept, k.2.id = i.id

end Standing

namespace Server

def history (s : Server) : List Note := s.journal.filter fun n => !n.isLine

def standing (s : Server) : Standing where
  setup := s.setup
  slot := s.slot
  guard := s.guard
  status := s.status
  nextGeneration := s.nextGeneration
  fresh := s.fresh
  calls := s.calls
  answers := s.answers
  kept := s.kept
  history := s.history

/-- How often something was noted. -/
def times (s : Server) (p : Note → Bool) : Nat := s.journal.countP p

theorem mem_history {s : Server} {n : Note} :
    n ∈ s.history ↔ n ∈ s.journal ∧ n.isLine = false := by
  simp [history]

/-- Lines of the log aside, all notes are part of the standing. -/
theorem standing_times (s : Server) {p : Note → Bool} (unlogged : ∀ n, p n → n.isLine = false) :
    s.standing.times p = s.times p := by
  simp only [Standing.times, times, standing, history, List.countP_filter]
  apply List.countP_congr
  intro n _
  cases noted : p n
  · simp
  · simp [unlogged n noted]

/-! How a server stands before anything happens. -/

@[simp] theorem calls_start (setup : Setup) : (start setup).standing.calls = [] := rfl

@[simp] theorem slot_start (setup : Setup) : (start setup).standing.slot = none := rfl

@[simp] theorem history_start (setup : Setup) : (start setup).standing.history = [] := rfl

@[simp] theorem nextGeneration_start (setup : Setup) :
    (start setup).standing.nextGeneration = 1 := rfl

@[simp] theorem times_start (setup : Setup) (p : Note → Bool) :
    (start setup).standing.times p = 0 := rfl

/-! What leaves the standing as it is. -/

@[simp] theorem standing_log (s : Server) (level : Level) (text : String) :
    (s.log level text).standing = s.standing := rfl

@[simp] theorem standing_wake (s : Server) (c : CallId) : (s.wake c).standing = s.standing := by
  unfold wake
  split <;> rfl

@[simp] theorem standing_wakeAll (s : Server) (cs : List CallId) :
    (s.wakeAll cs).standing = s.standing := by
  induction cs generalizing s with
  | nil => rfl
  | cons c cs ih => exact (ih (s.wake c)).trans (s.standing_wake c)

@[simp] theorem standing_setTurnstile (s : Server) (g : Gate) (t : Turnstile) :
    (s.setTurnstile g t).standing = s.standing := rfl

@[simp] theorem standing_updateChannel (s : Server) (id : ChannelId) (f : Channel → Channel) :
    (s.updateChannel id f).standing = s.standing := rfl

@[simp] theorem standing_leaveGate (s : Server) (c : CallId) (g : Gate) :
    (s.leaveGate c g).standing = s.standing := by
  unfold leaveGate
  simp only
  split
  · simp
  · split <;> rfl

@[simp] theorem standing_close (s : Server) (source : Source) :
    (s.close source).standing = s.standing := by
  cases source <;> rfl

@[simp] theorem standing_stopListening (s : Server) (a : Activity) :
    (s.stopListening a).standing = s.standing := by
  cases a <;> first | rfl | exact s.standing_close _

@[simp] theorem standing_dropReceiver (s : Server) (id : ChannelId) :
    (s.dropReceiver id).standing = s.standing := by
  unfold dropReceiver
  split
  · exact s.standing_close _
  · rfl

@[simp] theorem standing_wakeListeners (s : Server) (source : Source) :
    (s.wakeListeners source).standing = s.standing := s.standing_wakeAll _

@[simp] theorem standing_logQuery (s : Server) (input : Graphql.Request) :
    (s.logQuery input).standing = s.standing := by
  unfold logQuery
  split <;> rfl

@[simp] theorem standing_logOutcome (s : Server) (o : Outcome) :
    (s.logOutcome o).standing = s.standing := by
  cases o <;> rfl

@[simp] theorem standing_announce (s : Server) (o : Origin) :
    (s.announce o).standing = s.standing := by
  cases o <;> rfl

/-! What changes the standing, and how. -/

theorem standing_note (s : Server) {n : Note} (h : n.isLine = false) :
    (s.note n).standing = s.standing.notes [n] := by
  simp [standing, history, note, Standing.notes, h]

@[simp] theorem standing_proceedTo (s : Server) (c : CallId) (a : Activity) :
    (s.proceedTo c a).standing = s.standing.proceedTo c a := rfl

@[simp] theorem standing_begin (s : Server) (a : Activity) :
    (s.begin a).standing = s.standing.begin a := by
  unfold begin
  simp only [standing_wake]
  rfl

/-- Leaving the guard has others go on, but their calls stay where they are. -/
theorem standing_leaveGuard (s : Server) (c : CallId) :
    (s.leaveGuard c).standing = { s.standing with guard := s.guard.leave c } := by
  unfold leaveGuard
  split
  · exact standing_wakeAll _ _
  · rfl

@[simp] theorem standing_finish (s : Server) (c : CallId) (x : Answer) :
    (s.finish c x).standing = s.standing.finish c x := by
  have h := s.standing_leaveGuard c
  simp only [standing, Standing.mk.injEq] at h
  obtain ⟨hsetup, hslot, hguard, hstatus, hnext, hfresh, hcalls, hanswers, hkept, hhistory⟩ := h
  simp only [finish, standing, Standing.finish, Standing.mk.injEq]
  refine ⟨hsetup, hslot, hguard, hstatus, hnext, hfresh, ?_, ?_, hkept, ?_⟩
  · rw [hcalls]
  · rw [hanswers]
  · simpa [history, Note.isLine] using hhistory

@[simp] theorem standing_respond (s : Server) (c : CallId) (r : Http.Request)
    (response : Http.Response) :
    (s.respond c r response).standing =
      s.standing.finish c (.response (r.dress s.setup.cors response)) :=
  s.standing_finish c _

end Server

end HotSwap

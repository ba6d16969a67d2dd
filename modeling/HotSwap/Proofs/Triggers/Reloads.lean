import HotSwap.Proofs.Admission.Waiting
import HotSwap.Proofs.Reload.History
import HotSwap.Proofs.Triggers.Delivery

/-!
# Reloads by request

A reload that was requested through a channel stays one until it ends. It completes, fails, is
rejected or panics, and whichever it does, the listener goes on to the next request.
-/

namespace HotSwap

/-- How a reload goes, or how it went. -/
inductive Sequel where
  | underway
  | completed
  | failed
  | rejected
  | panicked
  | cutOff
  deriving DecidableEq

def Answer.sequel : Answer → Sequel
  | .report _ => .completed
  | .refused .alreadyInProgress => .rejected
  | .refused _ => .failed
  | .panic _ => .panicked
  | _ => .cutOff

/-- The call is at a reload of the origin. -/
def Activity.IsReload (o : Origin) (a : Activity) : Prop := ∃ stage, a = .reload o stage

namespace Standing

variable {v w u : Standing} {c : CallId} {a b : Activity} {es : List Note} {x : Answer} {o : Origin}
  {stage : Reload.Stage} {name : String} {channel : Option ChannelId} {act : Server.Action}

theorem Goes.isReload (goes : Goes v c a u es b) (reloads : a.IsReload o) : b.IsReload o := by
  obtain ⟨stage, rfl⟩ := reloads
  generalize starts : Activity.reload o stage = a at goes
  cases goes with
  | sleep hK | wake hK | clear hK | release hK =>
    cases hK with
    | reload =>
      cases starts
      exact ⟨_, rfl⟩
    | _ => cases starts
  | _ =>
    cases starts
    try exact ⟨_, rfl⟩

theorem Since.isReload (since : v.Since (Activity.IsReload o) c) (moved : v.Move act w) :
    w.Since (Activity.IsReload o) c := by
  refine since.move moved Goes.isReload ?_
  rintro _ _ _ _ _ ⟨_, same⟩
  cases same
  exact ⟨_, rfl⟩

/-- A reload that a trigger asked for and that is not cut off has one of four ends. -/
theorem Stops.sequel (stops : Stops v c a u es x)
    (starts : a = .reload (.trigger name channel) stage) :
    x.sequel ≠ .underway ∧ x.sequel ≠ .cutOff := by
  cases stops with
  | refuse | succeed =>
    cases starts
    exact ⟨nofun, nofun⟩
  | @fail _ _ e =>
    cases starts
    cases e <;> exact ⟨nofun, nofun⟩
  | constructorPanic | makerPanic | releasePanic => exact ⟨nofun, nofun⟩
  | _ => cases starts

end Standing

namespace Server

open Standing

variable {s t u : Server} {id : ChannelId} {c l : CallId} {x : Answer} {v : Standing}
  {act : Action} {actions : List Action}

/-- Whatever the call was at, it is at nothing once it has ended. -/
theorem ended_of_finish (gone : u.standing = v.finish c x) :
    u.activity? c = none ∧ u.answer? c = some x := by
  have calls : u.calls = v.calls.filter (·.id ≠ c) := congrArg Standing.calls gone
  have answers : u.answers = (c, x) :: v.answers := congrArg Standing.answers gone
  refine ⟨?_, ?_⟩
  · simp [activity?, call?, calls]
  · simp [answer?, answers]

/-- How the call goes, or how it went. -/
def sequel (s : Server) (c : CallId) : Sequel :=
  match s.activity? c with
  | some _ => .underway
  | none => ((s.answer? c).map Answer.sequel).getD .cutOff

/-- What becomes of a reload that was requested through the channel. -/
inductive Follows (s : Server) (id : ChannelId) (c : CallId) : Prop
  | underway {stage : Reload.Stage}
      (active : s.activity? c = some (.reload (.trigger channelName (some id)) stage))
  | ended {x : Answer} (stopped : s.activity? c = none) (answer : s.answer? c = some x)
      (finite : x.sequel ≠ .underway) (uncut : x.sequel ≠ .cutOff)
  | cut (stopped : s.activity? c = none) (answer : s.answer? c = some .cancelled)

theorem Follows.step (follows : s.Follows id c) (distinct : s.standing.Distinct)
    (known : c < s.fresh) (act : Action) : (s.step act).Follows id c := by
  have moved := s.move_step act
  have distinct' := distinct.move moved
  cases follows with
  | @underway stage active =>
    have there := mem_calls_of_activity? active
    have since : s.standing.Since (Activity.IsReload (.trigger channelName (some id))) c :=
      distinct.since there ⟨stage, rfl⟩
    rcases step_active distinct active act with proceeds | ⟨stopped, answer, -⟩ | untouched
    · cases moved.fate distinct there with
      | @lives b present =>
        obtain ⟨next, rfl⟩ := (since.isReload moved).holds b present
        exact .underway (activity?_of_mem distinct' present)
      | cut cancels => cases proceeds.symm.trans cancels
      | stops stops same =>
        obtain ⟨stopped, answer⟩ := ended_of_finish same
        obtain ⟨finite, uncut⟩ := stops.sequel rfl
        exact .ended stopped answer finite uncut
      | leaves outside => exact absurd rfl (outside _ _)
    · exact .cut stopped answer
    · exact .underway (untouched.activity.trans active)
  | ended stopped answer finite uncut =>
    have untouched := untouched_ended distinct known stopped act
    exact .ended (untouched.activity.trans stopped) (untouched.answer.trans answer) finite uncut
  | cut stopped answer =>
    have untouched := untouched_ended distinct known stopped act
    exact .cut (untouched.activity.trans stopped) (untouched.answer.trans answer)

/-- What began for the channel since a server was at `t`. -/
structure Serves (t s : Server) (id : ChannelId) : Prop where
  recent : ∀ c ∈ s.served id, t.fresh ≤ c ∧ c < s.fresh
  nodup : (s.served id).Nodup
  called : ∀ c ∈ s.served id,
    .called c (.reload (.trigger channelName (some id)) .arriving) ∈ s.standing.history
  follows : ∀ c ∈ s.served id, s.Follows id c

theorem Serves.step (serves : t.Serves s id) (distinct : s.standing.Distinct)
    (later : t.fresh ≤ s.fresh) (act : Action) : t.Serves (s.step act) id := by
  have moved := s.move_step act
  have grows : s.fresh ≤ (s.step act).fresh := moved.fresh_le
  have further (c : CallId) (there : c ∈ s.served id) : (s.step act).Follows id c :=
    (serves.follows c there).step distinct (serves.recent c there).2 act
  rcases begins_step s id act with same | ⟨grown, begins⟩
  · constructor
    all_goals rw [same]
    · intro c there
      obtain ⟨after, before⟩ := serves.recent c there
      exact ⟨after, Nat.lt_of_lt_of_le before grows⟩
    · exact serves.nodup
    · intro c there
      exact moved.suffix.subset (serves.called c there)
    · exact further
  · have number : (s.step act).fresh = s.fresh + 1 := congrArg Standing.fresh begins
    have grows : s.fresh < (s.step act).fresh := number ▸ Nat.lt_succ_self _
    have new :
        ⟨s.fresh, .reload (.trigger channelName (some id)) .arriving⟩ ∈ (s.step act).calls := by
      change _ ∈ (s.step act).standing.calls
      rw [begins]
      exact Standing.mem_calls_begin.mpr (.inr rfl)
    constructor
    all_goals rw [grown]
    · refine List.forall_mem_cons.mpr ⟨⟨later, grows⟩, fun c there => ?_⟩
      obtain ⟨after, before⟩ := serves.recent c there
      exact ⟨after, Nat.lt_trans before grows⟩
    · refine List.nodup_cons.mpr ⟨fun there => ?_, serves.nodup⟩
      exact absurd (serves.recent _ there).2 (Nat.lt_irrefl _)
    · refine List.forall_mem_cons.mpr ⟨?_, fun c there => ?_⟩
      · rw [begins]
        exact List.mem_cons_self
      · exact moved.suffix.subset (serves.called c there)
    · refine List.forall_mem_cons.mpr ⟨?_, further⟩
      exact .underway (activity?_of_mem (distinct.move moved) new)

/-! ## Counting the reloads of a channel -/

/-- How many reloads of the channel go, or went, that way. -/
def cameTo (s : Server) (id : ChannelId) (k : Sequel) : Nat :=
  (s.served id).countP fun c => s.sequel c = k

/-- The reloads of the channel that have ended without being cut off. -/
def concluded (s : Server) (id : ChannelId) : Nat :=
  s.cameTo id .completed + s.cameTo id .failed + s.cameTo id .rejected + s.cameTo id .panicked

theorem concluded_add (s : Server) (id : ChannelId) :
    s.concluded id + s.cameTo id .underway + s.cameTo id .cutOff = (s.served id).length := by
  simp only [concluded, cameTo]
  generalize s.served id = calls
  induction calls with
  | nil => rfl
  | cons c rest inductionHypothesis =>
    simp only [List.countP_cons, List.length_cons, decide_eq_true_eq]
    rw [← inductionHypothesis]
    cases s.sequel c <;> simp <;> omega

theorem cameTo_eq_zero {k : Sequel} (none : ∀ c ∈ s.served id, s.sequel c ≠ k) :
    s.cameTo id k = 0 :=
  List.countP_eq_zero.mpr fun c there => by simpa using none c there

/-! ## From when a channel is opened -/

/-- No channel has the numbers from `fresh` on, and nothing began in their names. -/
def Unopened (s : Server) : Prop := ∀ j, s.fresh ≤ j → s.traffic j = ⟨none, []⟩

theorem Unopened.step (unopened : s.Unopened) (act : Action) : (s.step act).Unopened := by
  intro j later
  have grows : s.fresh ≤ (s.step act).fresh := (s.move_step act).fresh_le
  have before : s.traffic j = ⟨none, []⟩ := unopened j (Nat.le_trans grows later)
  have unknown {ch : Channel} (there : s.channel? j = some ch) : False := by
    cases (channel?_traffic before).symm.trans there
  have opened : act = .openChannel → s.fresh ≠ j := by
    rintro rfl rfl
    exact absurd later (Nat.not_succ_le_self _)
  have passes := s.passes_step j act
  generalize s.step act = t at passes ⊢
  cases passes with
  | still same => exact same.trans before
  | opens new => exact absurd new (opened rfl)
  | sends there | senders _ there | listens there | cut there | drops there =>
    exact (unknown there).elim

theorem unopened_run (setup : Setup) (actions : List Action) :
    ((start setup).run actions).Unopened :=
  run_induction (P := Unopened) actions (fun _ _ => rfl) fun _ act _ _ held => held.step act

end Server

end HotSwap

import HotSwap.Proofs.Custody.Ownership
import HotSwap.Proofs.Reload.Abandoned
import HotSwap.Proofs.Reload.Failure
import HotSwap.Proofs.Requests.Execution
import HotSwap.Server.Schedule

/-!
# The status is a history of attempts

The status changes only by the hands of an attempt, which tells it of its beginning and of its end.
So it counts the reports, knows the latest report and the latest failure, and shows an attempt as
long as there is one. What is turned away and what shuts the server down leaves no trace in it.
-/

namespace HotSwap

namespace Note

/-- What an attempt that succeeded reports. -/
def report? : Note → Option Report
  | .returned _ (.ok r) => some r
  | _ => none

/-- Why an attempt failed. A reload that was turned away was no attempt. -/
def failure? : Note → Option ReloadError
  | .returned _ (.error .alreadyInProgress) => none
  | .returned _ (.error e) => some e
  | _ => none

variable {n : Note}

theorem report?_of_not_settles (plain : ¬ n.settles) : n.report? = none := by
  cases n with
  | returned c result =>
    cases result with
    | ok r => exact absurd rfl plain
    | error e => rfl
  | _ => rfl

theorem failure?_of_not_settles (plain : ¬ n.settles) : n.failure? = none := by
  cases n with
  | returned c result =>
    cases result with
    | ok r => rfl
    | error e =>
      cases e with
      | alreadyInProgress => rfl
      | _ => exact absurd rfl plain
  | _ => rfl

end Note

theorem Setup.Fails.failure? {setup : Setup} {generation : Nat} {e : ReloadError}
    (fails : setup.Fails generation e) (c : CallId) :
    (Note.returned c (.error e)).failure? = some e := by
  cases fails <;> rfl

namespace Status

/-- The status counts the reports and knows the latest report and failure, which come first. -/
structure Records (s : Status) (reports : List Report) (failures : List ReloadError) : Prop where
  unfailed : s.phase ≠ .failed
  reloadCount : s.reloadCount = reports.length
  generation : s.generation = (reports.head?.map Report.generation).getD 0
  lastError : s.lastError = failures.head?.map ReloadError.message
  succeeded : s.lastSuccessAt.isSome ↔ reports ≠ []
  failed : s.lastFailureAt.isSome ↔ failures ≠ []

namespace Records

variable {s : Status} {reports : List Report} {failures : List ReloadError}

theorem initial : Status.initial.Records [] [] := by
  constructor <;> simp [Status.initial]

theorem begin (records : s.Records reports failures) (now : Instant) :
    (s.begin now).Records reports failures where
  unfailed := nofun
  reloadCount := records.reloadCount
  generation := records.generation
  lastError := records.lastError
  succeeded := records.succeeded
  failed := records.failed

theorem succeed (records : s.Records reports failures) (now : Instant) (r : Report) :
    (s.succeed now r.generation).Records (r :: reports) failures where
  unfailed := nofun
  reloadCount := congrArg (· + 1) records.reloadCount
  generation := rfl
  lastError := records.lastError
  succeeded := by simp [Status.succeed]
  failed := records.failed

theorem fail (records : s.Records reports failures) (now : Instant) (e : ReloadError) :
    (s.fail now e.message).settle.Records reports (e :: failures) where
  unfailed := nofun
  reloadCount := records.reloadCount
  generation := records.generation
  lastError := rfl
  succeeded := records.succeeded
  failed := by simp [Status.fail, Status.settle]

end Records

end Status

namespace Standing

variable {v w u : Standing} {c : CallId} {a b : Activity} {es : List Note} {x : Answer}
  {o : Origin} {stage : Reload.Stage} {t : Attempt} {act : Server.Action}

/-! What becomes of a call. -/

/-- What a move makes of a call: it is still there, was cut off, stopped, or left an engine to the
background. -/
inductive Fate (v : Standing) (act : Server.Action) (w : Standing) (c : CallId) (a : Activity) :
    Prop
  | lives {b : Activity} (present : ⟨c, b⟩ ∈ w.calls)
  | cut (cancels : act = .cancel c)
  | stops {u : Standing} {es : List Note} {x : Answer} (stops : Stops v c a u es x)
      (same : w = (u.notes es).finish c x)
  | leaves (outside : ∀ o stage, a ≠ .reload o stage)

theorem Move.fate (moved : v.Move act w) (distinct : v.Distinct) (known : ⟨c, a⟩ ∈ v.calls) :
    Fate v act w c a := by
  cases moved with
  | rest => exact .lives known
  | number => exact .lives known
  | keep => exact .lives known
  | start => exact .lives (mem_calls_begin.mpr (.inl known))
  | @cut d =>
    by_cases other : d = c
    · exact .cut (congrArg _ other)
    · exact .lives (mem_calls_finish.mpr ⟨known, Ne.symm other⟩)
  | @go d _ b u es _ goes =>
    have still : ⟨c, a⟩ ∈ (u.notes es).calls := goes.frame.calls ▸ known
    by_cases other : d = c
    · subst other
      exact .lives (mem_proceedTo still)
    · exact .lives (mem_calls_proceedTo.mpr (.inl ⟨still, Ne.symm other⟩))
  | @stop d _ u es x present stops =>
    by_cases other : d = c
    · subst other
      cases distinct.activity_eq known present
      exact .stops stops rfl
    · exact .lives (mem_calls_finish.mpr ⟨stops.frame.calls ▸ known, Ne.symm other⟩)
  | @leave d =>
    by_cases other : d = c
    · subst other
      exact .lives (mem_proceedTo (mem_calls_begin.mpr (.inl known)))
    · have there (b : Activity) : ⟨c, a⟩ ∈ (v.begin b).calls := mem_calls_begin.mpr (.inl known)
      exact .lives (mem_calls_proceedTo.mpr (.inl ⟨there _, Ne.symm other⟩))
  | @leaveAll d K _ outside i _ present =>
    by_cases other : d = c
    · subst other
      cases distinct.activity_eq known present
      exact .leaves fun o stage => outside o stage _
    · exact .lives (mem_calls_finish.mpr ⟨mem_calls_begin.mpr (.inl known), Ne.symm other⟩)

/-- Only who passes the guard has just passed it. -/
theorem Goes.of_numbered (goes : Goes v c a u es b) (ends : b = .reload o (.numbered t)) :
    a = .reload o .arriving := by
  cases goes with
  | sleep hK | wake hK | clear hK | release hK => cases hK <;> cases ends
  | enter =>
    cases ends
    rfl
  | _ => cases ends

/-- Who has just passed the guard goes on to tell the status. -/
theorem Goes.numbered (goes : Goes v c a u es b) (starts : a = .reload o (.numbered t)) :
    ∃ now, u.status = v.status.begin now := by
  cases goes with
  | sleep hK | wake hK | clear hK | release hK => cases hK <;> cases starts
  | mark => exact ⟨_, rfl⟩
  | _ => cases starts

theorem Stops.not_numbered (stops : Stops v c a u es x) : a ≠ .reload o (.numbered t) := by
  rintro starts
  cases stops with
  | releasePanic hK => cases hK <;> cases starts
  | _ => cases starts

/-- An attempt that is shown ends in a panic or has the status show none. -/
theorem Stops.idle (stops : Stops v c a u es x) (starts : a = .reload o stage)
    (shown : stage.Shown) : (∃ p, x = .panic p) ∨ u.status.phase = .idle := by
  cases stops with
  | constructorPanic | makerPanic | releasePanic => exact .inl ⟨_, rfl⟩
  | succeed | fail => exact .inr rfl
  | refuse =>
    cases starts
    exact shown.elim
  | _ => cases starts

/-- Whoever was shown goes on to be shown. -/
theorem Advances.keeps_shown {next : Reload.Stage} (advances : Advances v c o stage next w)
    (attempted : next.attempt? = some t) (shown : stage.Shown) : next.Shown := by
  cases advances with
  | aside => exact shown
  | go goes =>
    rcases Reload.Stage.numbered_or_shown attempted with rfl | still
    · cases goes.of_numbered rfl
      exact shown.elim
    · exact still
  | leave => trivial

/-! What a move tells the status. -/

/-- What a move is to the status. -/
inductive Tells (v : Standing) : Server.Action → Standing → Prop
  | nothing {act : Server.Action} {w : Standing} (status : w.status = v.status)
      (silent : ∃ ns, w.history = ns ++ v.history ∧ ∀ n ∈ ns, ¬ n.settles) : Tells v act w
  | beginning {c : CallId} {o : Origin} {t : Attempt} {now : Instant} {w : Standing}
      (known : ⟨c, .reload o (.numbered t)⟩ ∈ v.calls) (status : w.status = v.status.begin now)
      (history : w.history = v.history)
      (next : ∀ a, ⟨c, a⟩ ∈ w.calls → a = .reload o (.building t)) : Tells v (.proceed c) w
  | success {c : CallId} {o : Origin} {t : Attempt} {p : String} {previous : Option Nat}
      {now : Instant} {r : Report} {x : Answer} {w : Standing}
      (known : ⟨c, .reload o (.completing t p previous)⟩ ∈ v.calls)
      (status : w.status = v.status.succeed now r.generation)
      (generation : r.generation = t.generation)
      (history : w.history = .ended c x :: .returned c (.ok r) :: v.history) :
      Tells v (.proceed c) w
  | failure {c : CallId} {o : Origin} {t : Attempt} {e : ReloadError} {now : Instant} {x : Answer}
      {w : Standing} (known : ⟨c, .reload o (.failing t e)⟩ ∈ v.calls)
      (status : w.status = (v.status.fail now e.message).settle)
      (history : w.history = .ended c x :: .returned c (.error e) :: v.history) :
      Tells v (.proceed c) w

theorem Goes.tells (goes : Goes v c a u es b) (known : ⟨c, a⟩ ∈ v.calls) :
    Tells v (.proceed c) ((u.notes es).proceedTo c b) := by
  have grown : ((u.notes es).proceedTo c b).history = es ++ v.history :=
    congrArg (es ++ ·) goes.frame.history
  cases goes with
  | mark =>
    refine .beginning known rfl grown fun a present => ?_
    rcases mem_calls_proceedTo.mp present with ⟨-, other⟩ | ⟨same, -⟩
    · exact absurd rfl other
    · cases same
      rfl
  | _ => exact .nothing rfl ⟨_, grown, by simp [Note.settles]⟩

theorem Stops.tells (stops : Stops v c a u es x) (known : ⟨c, a⟩ ∈ v.calls) :
    Tells v (.proceed c) ((u.notes es).finish c x) := by
  have grown : ((u.notes es).finish c x).history = .ended c x :: es ++ v.history :=
    congrArg (.ended c x :: es ++ ·) stops.frame.history
  cases stops with
  | succeed => exact .success known rfl rfl grown
  | fail => exact .failure known rfl grown
  | _ => exact .nothing rfl ⟨_, grown, by simp [Note.settles]⟩

theorem Move.tells (moved : v.Move act w) : v.Tells act w := by
  cases moved with
  | rest => exact .nothing rfl ⟨[], rfl, List.forall_mem_nil _⟩
  | number => exact .nothing rfl ⟨[], rfl, List.forall_mem_nil _⟩
  | keep => exact .nothing rfl ⟨[], rfl, List.forall_mem_nil _⟩
  | @start _ a => exact .nothing rfl ⟨[.called v.fresh a], rfl, by simp [Note.settles]⟩
  | @cut c => exact .nothing rfl ⟨[.ended c .cancelled], rfl, by simp [Note.settles]⟩
  | go known goes => exact goes.tells known
  | stop known stops => exact stops.tells known
  | @leave c o a p i =>
    exact .nothing rfl ⟨[.called v.fresh (.retirement ⟨i, none, .polling⟩)], rfl,
      by simp [Note.settles]⟩
  | @leaveAll c K _ _ i =>
    exact .nothing rfl ⟨[.ended c .done, .called v.fresh (.retirement ⟨i, none, .polling⟩)], rfl,
      by simp [Note.settles]⟩

/-- When the latest attempt began is never forgotten. -/
theorem Tells.started (tells : v.Tells act w) (started : v.status.lastStartedAt.isSome) :
    w.status.lastStartedAt.isSome := by
  cases tells with
  | nothing status | success _ status | failure _ status =>
    rw [status]
    exact started
  | beginning _ status =>
    rw [status]
    rfl

/-! What the status remembers of those that ended. -/

/-- The reports, the latest first. -/
def reports (v : Standing) : List Report := v.history.filterMap Note.report?

/-- The failures of attempts, the latest first. -/
def failures (v : Standing) : List ReloadError := v.history.filterMap Note.failure?

theorem reports_of_silent {ns : List Note} (grown : w.history = ns ++ v.history)
    (silent : ∀ n ∈ ns, ¬ n.settles) : w.reports = v.reports ∧ w.failures = v.failures := by
  have unreported : ns.filterMap Note.report? = [] :=
    List.filterMap_eq_nil_iff.mpr fun n new => Note.report?_of_not_settles (silent n new)
  have unfailed : ns.filterMap Note.failure? = [] :=
    List.filterMap_eq_nil_iff.mpr fun n new => Note.failure?_of_not_settles (silent n new)
  simp [reports, failures, grown, List.filterMap_append, unreported, unfailed]

/-- The status remembers those that ended. -/
def Recorded (v : Standing) : Prop := v.status.Records v.reports v.failures

theorem Recorded.move (recorded : v.Recorded) (moved : v.Move act w)
    (faithful : ∀ call ∈ v.calls, call.activity.Faithful v.setup) : w.Recorded := by
  unfold Recorded at *
  cases moved.tells with
  | nothing status silent =>
    obtain ⟨ns, grown, silent⟩ := silent
    obtain ⟨reports, failures⟩ := reports_of_silent grown silent
    rw [status, reports, failures]
    exact recorded
  | beginning _ status history =>
    have grown : w.history = [] ++ v.history := history
    obtain ⟨reports, failures⟩ := reports_of_silent grown (List.forall_mem_nil _)
    rw [status, reports, failures]
    exact recorded.begin _
  | @success c _ _ _ _ _ r x _ _ status _ history =>
    have reports : w.reports = r :: v.reports := by
      rw [Standing.reports, history]
      rfl
    have failures : w.failures = v.failures := by
      rw [Standing.failures, history]
      rfl
    rw [status, reports, failures]
    exact recorded.succeed _ r
  | @failure c _ t e _ x _ known status history =>
    have fails : v.setup.Fails t.generation e := (faithful _ known).2
    have reports : w.reports = v.reports := by
      rw [Standing.reports, history]
      rfl
    have failures : w.failures = e :: v.failures := by
      rw [Standing.failures, history]
      exact List.filterMap_cons_some (fails.failure? c)
    rw [status, reports, failures]
    exact recorded.fail _ e

/-! Whoever told the status of its beginning. -/

/-- The call passed the guard and went on to tell the status that it began. -/
def HasBegun (v : Standing) (c : CallId) : Prop :=
  (∃ g, .begun c g ∈ v.history) ∧ ∀ o t, ⟨c, .reload o (.numbered t)⟩ ∉ v.calls

theorem HasBegun.move (begun : v.HasBegun c) (numbered : v.Numbered) (moved : v.Move act w) :
    w.HasBegun c := by
  obtain ⟨⟨g, begun⟩, past⟩ := begun
  refine ⟨⟨g, moved.suffix.subset begun⟩, fun o t present => ?_⟩
  rcases moved.was_attempt present rfl with ⟨before, t', known, attempted⟩ | ⟨g, -, -, -, known, -⟩
  · obtain ⟨next, same, -, advances⟩ :=
      moved.advances numbered.distinct numbered.guarded known attempted present
    cases same
    cases advances with
    | aside => exact past o t known
    | go goes =>
      cases goes.of_numbered rfl
      cases attempted
  · exact numbered.not_arriving begun known

/-- Who has begun after a move had begun before, or tells the status so. -/
theorem Move.hasBegun (moved : v.Move act w) (numbered : v.Numbered)
    (spared : ∀ c a, act = .cancel c → ⟨c, a⟩ ∈ v.calls → ¬ a.Handles) (begun : w.HasBegun c) :
    v.HasBegun c ∨ ∃ now, w.status = v.status.begin now := by
  obtain ⟨⟨g, begun⟩, past⟩ := begun
  by_cases old : .begun c g ∈ v.history
  · by_cases entered : ∃ o t, ⟨c, .reload o (.numbered t)⟩ ∈ v.calls
    · obtain ⟨o, t, known⟩ := entered
      cases moved.fate numbered.distinct known with
      | lives present =>
        obtain ⟨next, rfl, -, advances⟩ :=
          moved.advances numbered.distinct numbered.guarded known rfl present
        cases advances with
        | aside => exact absurd present (past o t)
        | go goes => exact .inr (goes.numbered rfl)
        | leave retires => cases retires
      | cut cancels => exact absurd trivial (spared c _ cancels known)
      | stops stops => exact absurd rfl stops.not_numbered
      | leaves outside => exact absurd rfl (outside _ _)
    · exact .inl ⟨⟨g, old⟩, fun o t known => entered ⟨o, t, known⟩⟩
  · rcases moved.shift.mem_begun begun with there | ⟨-, -, o, known, entered⟩
    · exact absurd there old
    · cases moved.fate numbered.distinct known with
      | lives present =>
        obtain ⟨t, rfl, -⟩ := entered _ present
        exact absurd present (past o t)
      | cut cancels => exact absurd trivial (spared c _ cancels known)
      | @stops u es x stops same =>
        obtain ⟨-, -, plain⟩ := stops.still
        rw [same] at begun
        rcases List.mem_cons.mp begun with ended | noted
        · cases ended
        · rcases List.mem_append.mp noted with new | there
          · exact absurd trivial (plain _ new)
          · exact absurd (stops.frame.history ▸ there) old
      | leaves outside => exact absurd rfl (outside _ _)

/-- The status shows an attempt only while there is one, and knows whether one ever began. -/
structure Attended (v : Standing) : Prop where
  shown : v.status.phase = .reloading →
    ∃ c o stage, ⟨c, .reload o stage⟩ ∈ v.calls ∧ stage.Shown
  started : v.status.lastStartedAt.isSome ↔ ∃ c, v.HasBegun c

theorem Attended.shown_move (attended : v.Attended) (numbered : v.Numbered)
    (moved : v.Move act w)
    (spared : ∀ c a, act = .cancel c → ⟨c, a⟩ ∈ v.calls → ¬ a.Handles)
    (calm : w.times Note.panics = 0) (shows : w.status.phase = .reloading) :
    ∃ c o stage, ⟨c, .reload o stage⟩ ∈ w.calls ∧ stage.Shown := by
  cases moved.tells with
  | @beginning c o t now _ known _ _ next =>
    cases moved.fate numbered.distinct known with
    | lives present =>
      cases next _ present
      exact ⟨c, o, _, present, trivial⟩
    | cut cancels => cases cancels
    | stops stops => exact absurd rfl stops.not_numbered
    | leaves outside => exact absurd rfl (outside _ _)
  | success _ status | failure _ status =>
    rw [status] at shows
    cases shows
  | nothing status =>
    obtain ⟨c, o, stage, known, shown⟩ := attended.shown (status ▸ shows)
    obtain ⟨t, attempted⟩ := Reload.Stage.attempt?_of_shown shown
    cases moved.fate numbered.distinct known with
    | lives present =>
      obtain ⟨next, rfl, still, advances⟩ :=
        moved.advances numbered.distinct numbered.guarded known attempted present
      exact ⟨c, o, next, present, advances.keeps_shown still shown⟩
    | cut cancels => exact absurd trivial (spared c _ cancels known)
    | stops stops same =>
      subst same
      rcases stops.idle rfl shown with ⟨p, rfl⟩ | idle
      · exact absurd rfl ((List.countP_eq_zero.mp calm) _ List.mem_cons_self)
      · cases idle.symm.trans shows
    | leaves outside => exact absurd rfl (outside _ _)

theorem Attended.started_move (attended : v.Attended) (numbered : v.Numbered)
    (moved : v.Move act w)
    (spared : ∀ c a, act = .cancel c → ⟨c, a⟩ ∈ v.calls → ¬ a.Handles) :
    w.status.lastStartedAt.isSome ↔ ∃ c, w.HasBegun c := by
  constructor
  · intro started
    have kept (earlier : v.status.lastStartedAt.isSome) : ∃ c, w.HasBegun c := by
      obtain ⟨c, begun⟩ := attended.started.mp earlier
      exact ⟨c, begun.move numbered moved⟩
    cases moved.tells with
    | nothing status => exact kept (status ▸ started)
    | success _ status => exact kept (by simpa [status, Status.succeed] using started)
    | failure _ status => exact kept (by simpa [status, Status.fail, Status.settle] using started)
    | @beginning c o t _ _ known _ _ next =>
      have begun := moved.suffix.subset (numbered.attempt known rfl).2
      exact ⟨c, ⟨_, begun⟩, fun o' t' present => by cases next _ present⟩
  · rintro ⟨c, begun⟩
    rcases moved.hasBegun numbered spared begun with before | ⟨now, status⟩
    · exact moved.tells.started (attended.started.mpr ⟨c, before⟩)
    · rw [status]
      rfl

end Standing

namespace Server

open Standing

/-- The reports of the attempts that succeeded, the latest first. -/
def reports (s : Server) : List Report := s.journal.filterMap Note.report?

/-- Why attempts failed, the latest first. -/
def failures (s : Server) : List ReloadError := s.journal.filterMap Note.failure?

/-- The call is an attempt that passed the guard and went on to tell the status that it began. -/
def HasBegun (s : Server) (c : CallId) : Prop :=
  (∃ g, .begun c g ∈ s.journal) ∧ ∀ o t, s.activity? c ≠ some (.reload o (.numbered t))

/-- The status is the history of the attempts. -/
structure Remembers (s : Server) : Prop where
  ended : s.status.Records s.reports s.failures
  reloading : s.status.phase = .reloading ↔ ∃ c, s.HasBegun c ∧ s.IsLive c
  started : s.status.lastStartedAt.isSome ↔ ∃ c, s.HasBegun c

theorem hasBegun_iff {s : Server} (distinct : s.standing.Distinct) (c : CallId) :
    s.HasBegun c ↔ s.standing.HasBegun c := by
  simp only [HasBegun, Standing.HasBegun, Ne, activity?_iff distinct]
  refine and_congr (exists_congr fun g => ?_) Iff.rfl
  exact ⟨fun noted => mem_history.mpr ⟨noted, rfl⟩, fun noted => (mem_history.mp noted).1⟩

theorem recorded_run (setup : Setup) (actions : List Action) :
    ((start setup).run actions).status.Records ((start setup).run actions).reports
      ((start setup).run actions).failures := by
  have recorded := (standing_run (s := start setup) (P := fun v =>
    (∀ call ∈ v.calls, call.activity.Faithful v.setup) ∧ v.Recorded) actions
    ⟨List.forall_mem_nil _, Status.Records.initial⟩
    fun moved ⟨faithful, recorded⟩ => ⟨moved.faithful faithful, recorded.move moved faithful⟩).2
  unfold Standing.Recorded Standing.reports Standing.failures at recorded
  rwa [filterMap_history _ fun _ _ => rfl, filterMap_history _ fun _ _ => rfl] at recorded

theorem attended_run {setup : Setup} {actions : List Action}
    (uncut : (start setup).Uncut actions)
    (calm : ((start setup).run actions).standing.times Note.panics = 0) :
    ((start setup).run actions).standing.Attended := by
  refine run_induction (P := fun s => s.standing.Attended) actions ?_ ?_
  · refine ⟨nofun, ?_⟩
    simp [Standing.HasBegun, standing, start, Status.initial, history]
  · intro before act after split attended
    have numbered := numbered_run setup before
    have moved := ((start setup).run before).move_step act
    have spared (c : CallId) (a : Activity) (cancels : act = .cancel c)
        (known : ⟨c, a⟩ ∈ ((start setup).run before).standing.calls) : ¬ a.Handles := by
      subst cancels
      have spares := spares_of_uncut (split ▸ uncut)
      exact spares a (activity?_of_mem numbered.distinct known)
    have quiet : (((start setup).run before).step act).standing.times Note.panics = 0 := by
      have later := suffix_run (((start setup).run before).step act) after
      rw [split, run_append] at calm
      exact Nat.le_zero.mp (calm ▸ later.sublist.countP_le)
    exact ⟨attended.shown_move numbered moved spared quiet,
      attended.started_move numbered moved spared⟩

/-- The status is the history of the attempts. In a run that cuts off no call that handles engines,
and in which none of these panics, it shows an attempt exactly while one is under way, and tells
how many succeeded and what the latest came to. Only an attempt past the guard changes it. -/
theorem status_is_history {setup : Setup} {actions : List Action}
    (uncut : (start setup).Uncut actions)
    (calm : ((start setup).run actions).times Note.panics = 0) :
    let s := (start setup).run actions
    s.Remembers ∧ ∀ act, (s.step act).status = s.status ∨
      ∃ c o stage t, act = .proceed c ∧ s.activity? c = some (.reload o stage) ∧
        stage.attempt? = some t := by
  intro s
  have unlogged (n : Note) : n.panics → n.isLine = false := by
    cases n <;> simp [Note.panics, Note.isLine]
  rw [← standing_times _ unlogged] at calm
  have numbered : s.standing.Numbered := numbered_run setup actions
  have followed : s.standing.Followed := followed_run setup actions
  have attended : s.standing.Attended := attended_run uncut calm
  refine ⟨⟨recorded_run setup actions, ?_, ?_⟩, fun act => ?_⟩
  · constructor
    · intro shows
      obtain ⟨c, o, stage, known, shown⟩ := attended.shown shows
      obtain ⟨t, attempted⟩ := Reload.Stage.attempt?_of_shown shown
      have active := activity?_of_mem numbered.distinct known
      have begun := (numbered.attempt known attempted).2
      refine ⟨c, ⟨⟨_, (mem_history.mp begun).1⟩, fun o' t' same => ?_⟩, ?_⟩
      · cases active.symm.trans same
        exact shown
      · exact Option.isSome_map.symm.trans (congrArg Option.isSome active)
    · rintro ⟨c, ⟨⟨g, begun⟩, past⟩, live⟩
      obtain ⟨call, found⟩ := Option.isSome_iff_exists.mp live
      have active : s.activity? c = some call.activity := congrArg (Option.map _) found
      have known := mem_calls_of_activity? active
      obtain ⟨o, stage, t, same, attempted, -⟩ :=
        (numbered.taken (mem_history.mpr ⟨begun, rfl⟩)).2 _ known
      rw [same] at active known
      rcases Reload.Stage.numbered_or_shown attempted with rfl | shown
      · exact absurd active (past o t)
      · exact followed.shown known shown
  · exact attended.started.trans (exists_congr fun c => (hasBegun_iff numbered.distinct c).symm)
  · have active {c : CallId} {a : Activity} (known : ⟨c, a⟩ ∈ s.standing.calls) :
        s.activity? c = some a := activity?_of_mem numbered.distinct known
    cases (s.move_step act).tells with
    | nothing status => exact .inl status
    | beginning known => exact .inr ⟨_, _, _, _, rfl, active known, rfl⟩
    | success known => exact .inr ⟨_, _, _, _, rfl, active known, rfl⟩
    | failure known => exact .inr ⟨_, _, _, _, rfl, active known, rfl⟩

/-- One reload succeeded, the next failed, and one was turned away meanwhile. -/
theorem failure_is_remembered :
    let actions := untilArrival ++ .proceed 3 :: untilFailure ++ [.proceed 3]
    let s := (start onlyOne).run actions
    s.status.phase = .idle ∧ s.status.reloadCount = 1 ∧ s.status.generation = 1 ∧
      s.status.lastError = some "Provider trial failed to create an engine: no more" := by
  intro actions s
  have uncut : (start onlyOne).Uncut actions := by decide
  have remembers := (status_is_history uncut (by decide)).1
  exact ⟨rfl, remembers.ended.reloadCount, remembers.ended.generation, remembers.ended.lastError⟩

end Server

end HotSwap

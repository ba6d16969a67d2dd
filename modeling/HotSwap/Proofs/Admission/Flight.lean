import HotSwap.Proofs.Admission.Line
import HotSwap.Proofs.Reload.Failure

/-!
# One reload at a time

One call at most is past the guard, and only that one calls providers. A reload that finds the
guard taken is refused at once and leaves all else as it was. One that finds it free passes.
-/

namespace HotSwap

namespace Note

/-- The call that has a provider constructed, or asks it for an engine. -/
def caller? : Note → Option CallId
  | .constructed c _ _ _ | .asked c _ _ _ => some c
  | _ => none

/-- What is noted of a reload that is refused. -/
def Refusal (c : CallId) : Note → Prop
  | .log _ _ => True
  | .returned d (.error .alreadyInProgress) => d = c
  | .ended d _ => d = c
  | _ => False

end Note

/-- What an answer tells whoever asked for a reload that was refused. -/
def Origin.IsRefused (o : Origin) (x : Answer) : Prop :=
  match o with
  | .http _ => ∃ response : Http.Response, x = .response response ∧ response.status = 409 ∧
      response.body = Bytes.ofText "Reload already in progress"
  | _ => x = .refused .alreadyInProgress

theorem Origin.isRefused_answer {setup : Setup} {o : Origin}
    (posted : ∀ r, o = .http r → r.plan setup.cors = .reload) :
    o.IsRefused (o.answer setup.cors (.error .alreadyInProgress)) := by
  cases o with
  | http r =>
    have method := Http.Request.method_of_plan (posted r rfl)
    refine ⟨_, rfl, ?_, ?_⟩
    · rw [Http.Request.status_dress]
      rfl
    · rw [Http.Request.body_dress method]
      rfl
  | _ => rfl

namespace Standing

variable {v w u : Standing} {c d : CallId} {a b : Activity} {es : List Note} {x : Answer}
  {o : Origin} {act : Server.Action} {n : Note}

theorem Goes.caller (goes : Goes v c a u es b) (there : n ∈ es) (calls : n.caller? = some d) :
    d = c ∧ ∃ o stage, a = .reload o stage ∧ stage.Unmade := by
  cases goes with
  | misconstruct | construct | ask =>
    cases List.mem_singleton.mp there
    cases calls
    exact ⟨rfl, _, _, rfl, trivial⟩
  | execute | call | enter | replace | install | take | release | released =>
    cases List.mem_singleton.mp there
    cases calls
  | _ => cases there

theorem Stops.caller (stops : Stops v c a u es x) (there : n ∈ es) (calls : n.caller? = some d) :
    d = c ∧ ∃ o stage, a = .reload o stage ∧ stage.Unmade := by
  cases stops with
  | constructorPanic =>
    cases List.mem_singleton.mp there
    cases calls
    exact ⟨rfl, _, _, rfl, trivial⟩
  | refuse | succeed | fail | shutdown | background =>
    cases List.mem_singleton.mp there
    cases calls
  | _ => cases there

/-- Whoever calls a provider is an attempt that is yet to obtain its engine. -/
theorem Move.caller (moved : v.Move act w) : ∃ ns, w.history = ns ++ v.history ∧
    ∀ n ∈ ns, ∀ c, n.caller? = some c →
      ∃ o stage, ⟨c, .reload o stage⟩ ∈ v.calls ∧ stage.Unmade := by
  obtain ⟨ns, es, grown, clerical, moves⟩ := moved.history
  refine ⟨ns ++ es, grown, fun n there d calls => ?_⟩
  rcases List.mem_append.mp there with added | new
  · cases n with
    | constructed | asked => exact (clerical _ added).elim
    | _ => cases calls
  · rcases moves with rfl | ⟨c, a, u, known, -, ⟨b, goes⟩ | ⟨x, stops⟩⟩
    · cases new
    · obtain ⟨rfl, o, stage, rfl, unmade⟩ := goes.caller new calls
      exact ⟨o, stage, known, unmade⟩
    · obtain ⟨rfl, o, stage, rfl, unmade⟩ := stops.caller new calls
      exact ⟨o, stage, known, unmade⟩

/-- Who is refused has just arrived while others are in line, or failed for that reason. -/
theorem Stops.refused (stops : Stops v c a u es x)
    (there : .returned d (.error .alreadyInProgress) ∈ es) :
    d = c ∧ ∃ o, a = .reload o .arriving ∧ v.guard.line ≠ [] ∨
      ∃ t, a = .reload o (.failing t .alreadyInProgress) := by
  cases stops with
  | refuse refused =>
    cases List.mem_singleton.mp there
    exact ⟨rfl, _, .inl ⟨rfl, Guard.enter?_eq_none_iff.mp refused⟩⟩
  | fail =>
    cases List.mem_singleton.mp there
    exact ⟨rfl, _, .inr ⟨_, rfl⟩⟩
  | _ => simp at there

/-- Who is newly refused has just arrived while others are in line. -/
theorem Move.refused (moved : v.Move act w)
    (faithful : ∀ call ∈ v.calls, call.activity.Faithful v.setup)
    (there : .returned c (.error .alreadyInProgress) ∈ w.history) :
    .returned c (.error .alreadyInProgress) ∈ v.history ∨
      ∃ o, ⟨c, .reload o .arriving⟩ ∈ v.calls ∧ v.guard.line ≠ [] := by
  rcases moved.noted there with old | clerical | ⟨d, a, u, es, known, new, ⟨b, goes⟩ | ⟨x, stops⟩⟩
  · exact .inl old
  · exact clerical.elim
  · exact absurd new (goes.not_returned _)
  · right
    obtain ⟨rfl, o, ⟨rfl, taken⟩ | ⟨t, rfl⟩⟩ := stops.refused new
    · exact ⟨o, known, taken⟩
    · -- no attempt fails because another is in progress
      have fails : v.setup.Fails t.generation .alreadyInProgress := (faithful _ known).2
      cases fails

/-- An attempt is never refused. -/
theorem Attempts.unrefused {v₀ : Standing} (attempts : Attempts v₀ c o v)
    (faithful : ∀ call ∈ v.calls, call.activity.Faithful v.setup) (moved : v.Move act w)
    (refused : .returned c (.error .alreadyInProgress) ∈ w.history) :
    .returned c (.error .alreadyInProgress) ∈ v.history := by
  rcases moved.refused faithful refused with old | ⟨o', known, -⟩
  · exact old
  · obtain ⟨stage, t, same, attempted, -⟩ := attempts.stage _ known
    cases same
    cases attempted

end Standing

namespace Server

variable {s : Server} {c : CallId} {o : Origin}

/-- The server once the call has its answer, all else being as it was. -/
def without (s : Server) (c : CallId) (x : Answer) : Server :=
  { s with
    calls := s.calls.filter (·.id ≠ c)
    ready := s.ready.erase c
    timers := s.timers.filter (·.call ≠ c)
    hungUp := s.hungUp.erase c
    answers := (c, x) :: s.answers }

theorem finish_of_not_mem (outside : c ∉ s.guard.line) (x : Answer) :
    s.finish c x = { s.without c x with journal := .ended c x :: s.journal } := by
  have free : s.guard.holder ≠ some c := fun holds => outside (Guard.mem_line_of_holder holds)
  have left : s.leaveGuard c = s := by
    simp only [leaveGuard, if_neg free, Guard.leave_of_not_mem outside]
  rw [finish, left]
  rfl

/-- A reload was refused, and nothing else happened. -/
def Refuses (s u : Server) (c : CallId) (o : Origin) : Prop :=
  ∃ x notes, o.IsRefused x ∧ (∀ n ∈ notes, n.Refusal c) ∧
    u = { s.without c x with journal := notes ++ s.journal }

theorem conclude_refused (outside : c ∉ s.guard.line) (o : Origin) :
    ∃ notes, (∀ n ∈ notes, n.Refusal c) ∧
      s.conclude c o (.error .alreadyInProgress) =
        { s.without c (o.answer s.setup.cors (.error .alreadyInProgress)) with
          journal := notes ++ s.journal } := by
  cases o with
  | trigger name channel =>
    refine ⟨[_, _, _], ?_, finish_of_not_mem (s := (s.note _).log _ _) outside _⟩
    simp [Note.Refusal]
  | _ =>
    refine ⟨[_, _], ?_, finish_of_not_mem (s := s.note _) outside _⟩
    simp [Note.Refusal]

theorem announce_eq (s : Server) (o : Origin) (c : CallId) :
    ∃ notes, (∀ n ∈ notes, n.Refusal c) ∧
      s.announce o = { s with journal := notes ++ s.journal } := by
  cases o with
  | startup | http => exact ⟨[_], by simp [Note.Refusal], rfl⟩
  | program | trigger => exact ⟨[], List.forall_mem_nil _, rfl⟩

/-- A reload that arrives while others are in line is refused at once. -/
theorem refuses_arriving (lined : s.standing.Lined)
    (posted : ∀ r, o = .http r → r.plan s.setup.cors = .reload)
    (arrived : s.activity? c = some (.reload o .arriving)) (taken : s.guard.line ≠ []) :
    s.Refuses (s.step (.proceed c)) c o := by
  have outside : c ∉ s.guard.line := fun there =>
    ((lined.distinct.contender_iff (mem_calls_of_activity? arrived)).mp
      ((lined.mem_line c).mp there)).elim nofun id
  obtain ⟨early, plain, announced⟩ := s.announce_eq o c
  have refused : (s.announce o).guard.enter? c = none := by
    rw [announced]
    exact Guard.enter?_eq_none_iff.mpr taken
  have line : c ∉ ((s.announce o).log .warn refusalLine).guard.line := by
    rw [announced]
    exact outside
  obtain ⟨late, plain', concluded⟩ := conclude_refused line o
  refine ⟨o.answer s.setup.cors (.error .alreadyInProgress),
    late ++ .log .warn refusalLine :: early, Origin.isRefused_answer posted, ?_, ?_⟩
  · intro n there
    rcases List.mem_append.mp there with here | there
    · exact plain' n here
    · rcases List.mem_cons.mp there with rfl | here
      · trivial
      · exact plain n here
  · rw [step_proceed arrived rfl id]
    change s.reloadArriving c o = _
    rw [reloadArriving]
    simp only [refused, concluded]
    rw [announced]
    simp [without, log, note]

/-- A reload passed the guard, and will not be refused any more. -/
structure Admits (s u : Server) (c : CallId) (o : Origin) : Prop where
  inside : u.activity? c = some (.reload o (.numbered ⟨s.nextGeneration, s.now⟩))
  holder : u.guard.holder = some c
  unrefused : ∀ after, .returned c (.error .alreadyInProgress) ∈ (u.run after).journal →
    .returned c (.error .alreadyInProgress) ∈ s.journal

theorem admits_arriving {setup : Setup} {before : List Action}
    (reached : s = (start setup).run before)
    (arrived : s.activity? c = some (.reload o .arriving)) (free : s.guard.line = []) :
    s.Admits (s.step (.proceed c)) c o := by
  have distinct : s.standing.Distinct := reached ▸ distinct_run setup before
  have guarded : s.standing.Guarded := reached ▸ guarded_run setup before
  have faithful : ∀ call ∈ s.standing.calls, call.activity.Faithful s.standing.setup :=
    reached ▸ faithful_run setup before
  obtain ⟨g, enters⟩ : ∃ g, s.guard.enter? c = some g :=
    Option.ne_none_iff_exists'.mp fun none => Guard.enter?_eq_none_iff.mp none free
  have moved := s.move_step (.proceed c)
  have attempts := attempts_arriving distinct guarded arrived enters
  obtain ⟨early, -, announced⟩ := s.announce_eq o c
  have passed : s.step (.proceed c) = _ := step_proceed arrived rfl id
  constructor
  · rw [passed]
    change (s.reloadArriving c o).activity? c = _
    rw [reloadArriving, announced]
    simp only [enters]
    exact activity?_proceedTo arrived
  · have entered := (congrArg standing passed).trans (standing_reloadArriving enters)
    exact (congrArg (Guard.holder ∘ Standing.guard) entered).trans (Guard.enter?_eq enters).2
  · intro after refused
    have kept := standing_run (P := fun v => Standing.Attempts s.standing c o v ∧
      (∀ call ∈ v.calls, call.activity.Faithful v.setup) ∧
      (.returned c (.error .alreadyInProgress) ∈ v.history →
        .returned c (.error .alreadyInProgress) ∈ s.standing.history)) after
      ⟨attempts, moved.faithful faithful, ?_⟩ ?_
    · exact (mem_history.mp (kept.2.2 (mem_history.mpr ⟨refused, rfl⟩))).1
    · intro new
      have entered : (s.step (.proceed c)).standing = _ :=
        (congrArg standing passed).trans (standing_reloadArriving enters)
      rw [entered] at new
      rcases List.mem_cons.mp new with begun | old
      · cases begun
      · exact old
    · rintro v act w moved ⟨attempts, faithful, held⟩
      exact ⟨attempts.move moved, moved.faithful faithful,
        fun refused => held (attempts.unrefused faithful moved refused)⟩

/-- Who is past the guard, and what that keeps the others from. -/
structure SingleFlight (s : Server) (act : Action) : Prop where
  holds : ∀ c a, s.activity? c = some a → a.Inside → s.guard.holder = some c
  alone : ∀ c d a b, s.activity? c = some a → s.activity? d = some b → a.Inside → b.Inside → c = d
  /-- The guard is held by a call that has not ended. -/
  held : ∀ c, s.guard.holder = some c → ∃ a, s.activity? c = some a ∧ a.Contends
  /-- Providers are called from inside only. -/
  calls : ∃ ns, (s.step act).history = ns ++ s.history ∧
    ∀ n ∈ ns, ∀ c, n.caller? = some c → ∃ a, s.activity? c = some a ∧ a.Inside

theorem singleFlight_run (setup : Setup) (actions : List Action) (act : Action) :
    ((start setup).run actions).SingleFlight act := by
  have lined := lined_run setup actions
  have guarded := guarded_run setup actions
  generalize (start setup).run actions = s at lined guarded
  constructor
  · exact fun c a active inside => guarded _ (mem_calls_of_activity? active) inside
  · intro c d a b here there inside inside'
    exact guarded.unique (mem_calls_of_activity? there) inside' (mem_calls_of_activity? here) inside
  · intro c holds
    obtain ⟨a, present, contends⟩ := (lined.mem_line c).mp (Guard.mem_line_of_holder holds)
    exact ⟨a, activity?_of_mem lined.distinct present, contends⟩
  · obtain ⟨ns, grown, callers⟩ := (s.move_step act).caller
    refine ⟨ns, grown, fun n there c calls => ?_⟩
    obtain ⟨o, stage, present, unmade⟩ := callers n there c calls
    obtain ⟨t, attempted⟩ := unmade.attempt?
    exact ⟨_, activity?_of_mem lined.distinct present, Activity.inside_of_attempt attempted⟩

/-- Reloads fly alone. Whatever runs, one call at most is past the guard. A reload that arrives
while a call is past the guard or in line for it is refused in that step, and passes if there is
none, however the earlier calls ended. -/
theorem reloads_fly_alone (setup : Setup) (actions : List Action) (act : Action) :
    let s := (start setup).run actions
    s.SingleFlight act ∧ ∀ c o, s.activity? c = some (.reload o .arriving) →
      ((∃ d a, s.activity? d = some a ∧ a.Contends) → s.Refuses (s.step (.proceed c)) c o) ∧
      ((∀ d a, s.activity? d = some a → ¬ a.Contends) → s.Admits (s.step (.proceed c)) c o) := by
  intro s
  have lined : s.standing.Lined := lined_run setup actions
  refine ⟨singleFlight_run setup actions act, fun c o arrived => ⟨?_, ?_⟩⟩
  · rintro ⟨d, a, active, contends⟩
    have there : d ∈ s.guard.line :=
      (lined.mem_line d).mpr ⟨a, mem_calls_of_activity? active, contends⟩
    have posted := faithful_run setup actions _ (mem_calls_of_activity? arrived)
    exact refuses_arriving lined posted.1 arrived (List.ne_nil_of_mem there)
  · intro alone
    apply admits_arriving rfl arrived
    apply List.eq_nil_iff_forall_not_mem.mpr
    intro d there
    obtain ⟨a, present, contends⟩ := (lined.mem_line d).mp there
    exact alone d a (activity?_of_mem lined.distinct present) contends

/-- While one reload builds its engine another is asked for by a message; the one is cut off, and
then a third passes. -/
theorem posted_reload_is_refused :
    let building : List Action := .demand .reload :: proceeds 2 0 ++
      [.demand (.request postReload), .proceed 1]
    let cut : List Action := building ++ [.cancel 0, .demand .reload]
    let s := (start onlyOne).run building
    let t := (start onlyOne).run cut
    s.Refuses (s.step (.proceed 1)) 1 (.http postReload) ∧
      t.Admits (t.step (.proceed 2)) 2 .program := by
  intro building cut s t
  have refused := (reloads_fly_alone onlyOne building (.proceed 1)).2 1 (.http postReload) rfl
  have admitted := (reloads_fly_alone onlyOne cut (.proceed 2)).2 2 .program rfl
  refine ⟨refused.1 ⟨0, _, rfl, .inr trivial⟩, admitted.2 fun d a active => ?_⟩
  have known : ⟨d, a⟩ ∈ t.calls := mem_calls_of_activity? active
  have calls : t.calls = [⟨1, .reload (.http postReload) .arriving⟩,
    ⟨2, .reload .program .arriving⟩] := rfl
  rw [calls] at known
  rintro (rfl | inside)
  · simp at known
  · simp only [List.mem_cons, Call.mk.injEq, List.not_mem_nil, or_false] at known
    rcases known with ⟨-, rfl⟩ | ⟨-, rfl⟩ <;> exact inside

end Server

end HotSwap

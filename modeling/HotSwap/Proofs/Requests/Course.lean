import HotSwap.Proofs.Generations.Visibility
import HotSwap.Proofs.Reload.Cause
import HotSwap.Proofs.Requests.Execution

/-!
# The course of a query

A query looks up the engine in service once. From then on it keeps to that engine, whatever is
swapped meanwhile: it executes there once, and the outcome is its answer.
-/

namespace HotSwap

/-- A query that has not looked up an engine yet. -/
inductive Activity.Seeks (r : Http.Request) (body : Bytes) (input : Graphql.Request) :
    Activity → Prop
  | asked : Seeks r body input (.request r)
  | arriving : Seeks r body input (.query r (.arriving body))
  | parsed : Seeks r body input (.query r (.parsed input))

namespace Server

variable {s u : Server} {c : CallId} {r : Http.Request} {body : Bytes} {input : Graphql.Request}
  {i : Installation} {act : Action} {actions : List Action}

/-- What the query is answered with if there is an engine. -/
def executedAnswer (s : Server) (r : Http.Request) (i : Installation) (input : Graphql.Request) :
    Answer :=
  .response (r.dress s.setup.cors (queryResponse (i.engine.execute input)))

/-- What the query is answered with if there is none. -/
def unavailableAnswer (s : Server) (r : Http.Request) : Answer :=
  .response (r.dress s.setup.cors unavailableResponse)

/-! What a query does when it is let on. -/

theorem query_asked (planned : r.plan s.setup.cors = .query body)
    (active : s.activity? c = some (.request r)) :
    (s.step (.proceed c)).activity? c = some (.query r (.arriving body)) ∧
      (s.step (.proceed c)).executions c = s.executions c := by
  have goes : s.step (.proceed c) = s.proceedTo c (.query r (.arriving body)) := by
    rw [step_proceed active rfl id]
    simp only [Server.act, requestStep, planned]
  exact proceeded [] active (congrArg standing goes)

theorem query_arriving (parsed : Graphql.Request.parse body = .ok input)
    (active : s.activity? c = some (.query r (.arriving body))) :
    (s.step (.proceed c)).activity? c = some (.query r (.parsed input)) ∧
      (s.step (.proceed c)).executions c = s.executions c := by
  have goes : s.step (.proceed c) = s.proceedTo c (.query r (.parsed input)) := by
    rw [step_proceed active rfl id]
    simp only [Server.act, queryStep, queryArriving, parsed]
  exact proceeded [] active (congrArg standing goes)

theorem query_parsed (slot : s.slot = some i)
    (active : s.activity? c = some (.query r (.parsed input))) :
    (s.step (.proceed c)).activity? c = some (.query r (.holding i input)) ∧
      (s.step (.proceed c)).executions c = s.executions c := by
  have goes : s.step (.proceed c) =
      (s.logQuery input).proceedTo c (.query r (.holding i input)) := by
    rw [step_proceed active rfl id]
    simp only [Server.act, queryStep, queryParsed, slot]
  refine proceeded [] active ((congrArg standing goes).trans ?_)
  rw [standing_proceedTo, standing_logQuery]
  rfl

theorem query_unserved (empty : s.slot = none)
    (active : s.activity? c = some (.query r (.parsed input))) :
    (s.step (.proceed c)).activity? c = none ∧
      (s.step (.proceed c)).answer? c = some (s.unavailableAnswer r) ∧
        (s.step (.proceed c)).executions c = s.executions c := by
  have goes : s.step (.proceed c) = s.respond c r unavailableResponse := by
    rw [step_proceed active rfl id]
    simp only [Server.act, queryStep, queryParsed, empty]
  exact stopped ((congrArg standing goes).trans (standing_respond s c r _))

theorem query_holding (active : s.activity? c = some (.query r (.holding i input))) :
    (s.step (.proceed c)).activity? c = some (.query r (.executing i input)) ∧
      (s.step (.proceed c)).executions c = (i, input) :: s.executions c := by
  have goes : s.step (.proceed c) =
      (s.note (.executed c i input)).proceedTo c (.query r (.executing i input)) := by
    rw [step_proceed active rfl id]
    rfl
  have gone : (s.step (.proceed c)).standing =
      (s.standing.notes [.executed c i input]).proceedTo c (.query r (.executing i input)) := by
    rw [goes, standing_proceedTo, standing_note s rfl]
  have executes : [Note.executed c i input].filterMap (Note.execution? c) = [(i, input)] := by
    simp [Note.execution?]
  have moved := proceeded _ active gone
  rwa [executes] at moved

theorem query_executing (active : s.activity? c = some (.query r (.executing i input))) :
    ((s.step (.proceed c)).Rests c ∧
        (s.step (.proceed c)).activity? c = some (.query r (.executing i input)) ∧
          (s.step (.proceed c)).executions c = s.executions c) ∨
      (s.step (.proceed c)).activity? c = none ∧
        (s.step (.proceed c)).answer? c = some (s.executedAnswer r i input) ∧
          (s.step (.proceed c)).executions c = s.executions c := by
  rcases rests_or_acts active with ⟨rests, still⟩ | ⟨t, same, goes⟩
  · refine .inl ⟨rests, (activity?_congr (congrArg Standing.calls still)).trans active, ?_⟩
    rw [← standing_executions, still, standing_executions]
  · refine .inr (stopped ((congrArg standing goes).trans ?_))
    have setup : t.setup = s.setup := congrArg Standing.setup same
    change ((t.logOutcome _).respond c r _).standing = _
    rw [standing_respond, standing_logOutcome, same, executedAnswer, ← setup]
    cases i.engine.execute input <;> rfl

/-- What a query that found an engine does there. -/
inductive Keeps (s : Server) (c : CallId) (r : Http.Request) (i : Installation)
    (input : Graphql.Request) : Prop
  | holding (active : s.activity? c = some (.query r (.holding i input)))
      (unexecuted : s.executions c = [])
  | executing (active : s.activity? c = some (.query r (.executing i input)))
      (once : s.executions c = [(i, input)])
  | answered (ended : s.activity? c = none)
      (answer : s.answer? c = some (s.executedAnswer r i input))
      (once : s.executions c = [(i, input)])
  | cancelled (ended : s.activity? c = none) (answer : s.answer? c = some .cancelled)
      (atMostOnce : s.executions c = [] ∨ s.executions c = [(i, input)])

theorem Keeps.step (keeps : s.Keeps c r i input) (distinct : s.standing.Distinct)
    (known : c < s.fresh) (act : Action) : (s.step act).Keeps c r i input := by
  have setup : (s.step act).setup = s.setup := (s.move_step act).setup
  cases keeps with
  | holding active unexecuted =>
    rcases step_active distinct active act with rfl | ⟨ended, answer, same⟩ | untouched
    · obtain ⟨next, executed⟩ := query_holding active
      exact .executing next (executed.trans (congrArg _ unexecuted))
    · exact .cancelled ended answer (.inl (same.trans unexecuted))
    · exact .holding (untouched.activity.trans active) (untouched.executions.trans unexecuted)
  | executing active once =>
    rcases step_active distinct active act with rfl | ⟨ended, answer, same⟩ | untouched
    · -- the engine may have its gate shut, and the query then stays where it is
      rcases query_executing active with ⟨-, still, same⟩ | ⟨ended, answer, same⟩
      · exact .executing still (same.trans once)
      · refine .answered ended ?_ (same.trans once)
        rw [answer, executedAnswer, executedAnswer, setup]
    · exact .cancelled ended answer (.inr (same.trans once))
    · exact .executing (untouched.activity.trans active) (untouched.executions.trans once)
  | answered ended answer once =>
    have untouched := untouched_ended distinct known ended act
    refine .answered (untouched.activity.trans ended) ?_ (untouched.executions.trans once)
    rw [untouched.answer, answer, executedAnswer, executedAnswer, setup]
  | cancelled ended answer atMostOnce =>
    have untouched := untouched_ended distinct known ended act
    refine .cancelled (untouched.activity.trans ended) (untouched.answer.trans answer) ?_
    rwa [untouched.executions]

/-- What becomes of a query that the call asks for at `s`. -/
inductive Course (s : Server) (c : CallId) (r : Http.Request) (body : Bytes)
    (input : Graphql.Request) (actions : List Action) : Prop
  | seeking {a : Activity} (active : (s.run actions).activity? c = some a)
      (seeks : a.Seeks r body input) (unexecuted : (s.run actions).executions c = [])
  | dropped (ended : (s.run actions).activity? c = none)
      (answer : (s.run actions).answer? c = some .cancelled)
      (unexecuted : (s.run actions).executions c = [])
  /-- There was no engine when the query looked, so no reload had reported one since a shutdown. -/
  | unserved {early late : List Action} (split : actions = early ++ .proceed c :: late)
      (looks : (s.run early).activity? c = some (.query r (.parsed input)))
      (empty : (s.run early).slot = none)
      (unreported : ∀ d report, .returned d (.ok report) ∉ (s.run early).sinceTaken)
      (ended : (s.run actions).activity? c = none)
      (answer : (s.run actions).answer? c = some (s.unavailableAnswer r))
      (unexecuted : (s.run actions).executions c = [])
  /-- The engine is what was in the slot when the query looked, as new as all reports. -/
  | served {early late : List Action} {i : Installation}
      (split : actions = early ++ .proceed c :: late)
      (looks : (s.run early).activity? c = some (.query r (.parsed input)))
      (slot : (s.run early).slot = some i)
      (newest : ∀ d report, .returned d (.ok report) ∈ (s.run early).sinceTaken →
        report.generation ≤ i.generation)
      (keeps : (s.run actions).Keeps c r i input)

/-- The query looks up what is in the slot. -/
theorem course_looks (visible : (s.run actions).standing.Visible)
    (looks : (s.run actions).activity? c = some (.query r (.parsed input)))
    (unexecuted : (s.run actions).executions c = []) :
    s.Course c r body input (actions ++ [.proceed c]) := by
  have next : s.run (actions ++ [.proceed c]) = (s.run actions).step (.proceed c) :=
    run_append s actions [.proceed c]
  cases slot : (s.run actions).slot with
  | none =>
    obtain ⟨ended, answer, same⟩ := query_unserved slot looks
    refine .unserved rfl looks slot (fun d report reported => ?_) (next ▸ ended) ?_
      (next ▸ same.trans unexecuted)
    · obtain ⟨i, there, -⟩ := newer_of_reported visible reported
      cases slot.symm.trans there
    · rw [next, answer, unavailableAnswer, unavailableAnswer, setup_run]
  | some i =>
    obtain ⟨there, same⟩ := query_parsed slot looks
    refine .served rfl looks slot (fun d report reported => ?_)
      (.holding (next ▸ there) (next ▸ same.trans unexecuted))
    obtain ⟨j, current, newer⟩ := newer_of_reported visible reported
    cases slot.symm.trans current
    exact newer

/-- A query that has not looked yet goes on to look. -/
theorem course_seeks (visible : (s.run actions).standing.Visible)
    (planned : r.plan (s.run actions).setup.cors = .query body)
    (parsed : Graphql.Request.parse body = .ok input) {a : Activity}
    (active : (s.run actions).activity? c = some a) (seeks : a.Seeks r body input)
    (unexecuted : (s.run actions).executions c = []) :
    s.Course c r body input (actions ++ [.proceed c]) := by
  have next : s.run (actions ++ [.proceed c]) = (s.run actions).step (.proceed c) :=
    run_append s actions [.proceed c]
  cases seeks with
  | asked =>
    obtain ⟨there, same⟩ := query_asked planned active
    exact .seeking (next ▸ there) .arriving (next ▸ same.trans unexecuted)
  | arriving =>
    obtain ⟨there, same⟩ := query_arriving parsed active
    exact .seeking (next ▸ there) .parsed (next ▸ same.trans unexecuted)
  | parsed => exact course_looks visible active unexecuted

theorem Course.step (course : s.Course c r body input actions)
    (distinct : (s.run actions).standing.Distinct) (known : c < (s.run actions).fresh)
    (visible : (s.run actions).standing.Visible)
    (planned : r.plan (s.run actions).setup.cors = .query body)
    (parsed : Graphql.Request.parse body = .ok input) (act : Action) :
    s.Course c r body input (actions ++ [act]) := by
  have next : s.run (actions ++ [act]) = (s.run actions).step act := run_append s actions [act]
  have further {early late : List Action} (split : actions = early ++ .proceed c :: late) :
      actions ++ [act] = early ++ .proceed c :: (late ++ [act]) := by
    rw [split, List.append_assoc, List.cons_append]
  cases course with
  | seeking active seeks unexecuted =>
    rcases step_active distinct active act with rfl | ⟨ended, answer, same⟩ | untouched
    · exact course_seeks visible planned parsed active seeks unexecuted
    · exact .dropped (next ▸ ended) (next ▸ answer) (next ▸ same.trans unexecuted)
    · exact .seeking (next ▸ untouched.activity.trans active) seeks
        (next ▸ untouched.executions.trans unexecuted)
  | dropped ended answer unexecuted =>
    have untouched := untouched_ended distinct known ended act
    exact .dropped (next ▸ untouched.activity.trans ended) (next ▸ untouched.answer.trans answer)
      (next ▸ untouched.executions.trans unexecuted)
  | unserved split looks empty unreported ended answer unexecuted =>
    have untouched := untouched_ended distinct known ended act
    exact .unserved (further split) looks empty unreported (next ▸ untouched.activity.trans ended)
      (next ▸ untouched.answer.trans answer) (next ▸ untouched.executions.trans unexecuted)
  | served split looks slot newest keeps =>
    exact .served (further split) looks slot newest (next ▸ keeps.step distinct known act)

theorem fresh_le_run (s : Server) (actions : List Action) : s.fresh ≤ (s.run actions).fresh :=
  standing_run (P := fun v => s.fresh ≤ v.fresh) actions (Nat.le_refl _) fun moved held =>
    Nat.le_trans held moved.fresh_le

/-- What is asked for is a call that has executed nothing. -/
theorem demanded (setup : Setup) (before : List Action) (r : Http.Request) :
    let s := (start setup).run before
    let t := s.step (.demand (.request r))
    t.activity? s.fresh = some (.request r) ∧ t.executions s.fresh = [] ∧ s.fresh < t.fresh := by
  intro s t
  have begun : t.standing = s.standing.begin (.request r) := s.standing_begin _
  have distinct : t.standing.Distinct :=
    (distinct_run setup before).move (s.move_step (.demand (.request r)))
  refine ⟨activity?_of_mem distinct ?_, ?_, ?_⟩
  · change _ ∈ t.standing.calls
    rw [begun]
    exact Standing.mem_calls_begin.mpr (.inr rfl)
  · rw [← standing_executions, begun]
    exact unused_run setup before s.fresh (Nat.le_refl _)
  · change s.fresh < t.standing.fresh
    rw [begun]
    exact Nat.lt_succ_self _

/-- A query that is let on gets on, unless it has to wait at the gate of its engine. -/
structure Progresses (s : Server) (c : CallId) (r : Http.Request) (input : Graphql.Request) :
    Prop where
  looks : ∀ i, s.activity? c = some (.query r (.parsed input)) → s.slot = some i →
    (s.step (.proceed c)).activity? c = some (.query r (.holding i input))
  executes : ∀ i, s.activity? c = some (.query r (.holding i input)) →
    (s.step (.proceed c)).executions c = (i, input) :: s.executions c
  answers : ∀ i, s.activity? c = some (.query r (.executing i input)) →
    (s.step (.proceed c)).Rests c ∨
      (s.step (.proceed c)).answer? c = some (s.executedAnswer r i input)

theorem progresses (s : Server) (c : CallId) (r : Http.Request) (input : Graphql.Request) :
    s.Progresses c r input where
  looks _ active slot := (query_parsed slot active).1
  executes _ active := (query_holding active).2
  answers _ active := (query_executing active).imp And.left fun ended => ended.2.1

/-- Queries stay on the engine that they find. Whatever runs once a query was asked for, it executes
nothing until it looks up what is in the slot, which no earlier report is newer than. From then on
it executes once, there and nowhere else, and the outcome is its answer, unless it is cut off. -/
theorem query_keeps_engine {setup : Setup} {r : Http.Request} {body : Bytes}
    {input : Graphql.Request} (planned : r.plan setup.cors = .query body)
    (parsed : Graphql.Request.parse body = .ok input) (before actions : List Action) :
    let s := (start setup).run before
    let t := s.step (.demand (.request r))
    t.Course s.fresh r body input actions ∧ (t.run actions).Progresses s.fresh r input := by
  intro s t
  obtain ⟨asked, unexecuted, known⟩ := demanded setup before r
  refine ⟨?_, progresses _ _ _ _⟩
  -- the run grows at its end, where the query is at some point of its course
  induction actions using List.reverseRecOn with
  | nil => exact .seeking asked .asked unexecuted
  | append_singleton actions act inductionHypothesis =>
    have reached : t.run actions = (start setup).run (before ++ .demand (.request r) :: actions) :=
      (run_append (start setup) before (.demand (.request r) :: actions)).symm
    have setup' : (t.run actions).setup = setup := reached ▸ setup_run (start setup) _
    exact inductionHypothesis.step (reached ▸ distinct_run setup _)
      (Nat.lt_of_lt_of_le known (fresh_le_run t actions)) (reached ▸ visible_run setup _)
      (setup' ▸ planned) parsed act

/-! A query is held up while a reload swaps engines, and a later one overtakes it. -/

def askGeneration : Http.Request :=
  ⟨"POST", "/graphql", Bytes.ofText "\x7b\"query\":\"\x7bgeneration\x7d\"\x7d"⟩

def overtaken : List Action :=
  proceeds 3 3 ++ .demand .reload :: proceeds 8 4 ++
    .demand (.request askGeneration) :: proceeds 5 8 ++ proceeds 2 3

theorem overtaken_query_keeps_engine :
    let setup : Setup := .trial fun generation => .made (.trial generation)
    let input : Graphql.Request := ⟨"\x7bgeneration\x7d", [], none⟩
    let s := (start setup).run (.demand .reload :: proceeds 7 0)
    let t := s.step (.demand (.request askGeneration))
    t.Course s.fresh askGeneration askGeneration.body input overtaken ∧
      ((t.run overtaken).executions s.fresh).map (·.1.generation) = [1] ∧
      ((t.run overtaken).executions 8).map (·.1.generation) = [2] := by
  intro setup input s t
  have planned : askGeneration.plan setup.cors = .query askGeneration.body := rfl
  have parsed : Graphql.Request.parse askGeneration.body = .ok input := by with_unfolding_all rfl
  have course := query_keeps_engine planned parsed (.demand .reload :: proceeds 7 0) overtaken
  exact ⟨course.1, by decide +kernel, by decide +kernel⟩

end Server

end HotSwap

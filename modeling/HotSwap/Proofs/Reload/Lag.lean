import HotSwap.Proofs.Generations.Reports
import HotSwap.Proofs.Reload.History

/-!
# Where the status lags behind

The slot changes when an attempt installs its engine and when a shutdown takes the engine out, but
the status tells of the latest report. So it tells of an older engine from an installation until
the report, which may have to wait for a drain, and goes on to tell of one after a shutdown.
-/

namespace HotSwap

namespace Standing

variable {v w u : Standing} {c : CallId} {a : Activity} {es : List Note} {x : Answer}
  {o : Origin} {stage next : Reload.Stage} {t : Attempt} {act : Server.Action} {g : Nat}

/-! Generations count from one, so that none is that of an empty slot. -/

theorem Numbered.positive_of_begun (numbered : v.Numbered) (begun : .begun c g ∈ v.history) :
    0 < g := by
  have taken : g ∈ v.begun := List.mem_filterMap.mpr ⟨_, begun, rfl⟩
  have counted := List.mem_reverse.mpr taken
  rw [numbered.begun, List.mem_range'_1] at counted
  exact counted.1

/-- What is installed has the generation of an attempt. -/
def Originated (v : Standing) : Prop :=
  ∀ i prev, .installed i prev ∈ v.history → ∃ c, .begun c i.generation ∈ v.history

theorem Originated.move (originated : v.Originated) (numbered : v.Numbered)
    (moved : v.Move act w) : w.Originated := by
  intro i prev installed
  have before (old : .installed i prev ∈ v.history) : ∃ c, .begun c i.generation ∈ w.history := by
    obtain ⟨c, begun⟩ := originated i prev old
    exact ⟨c, moved.suffix.subset begun⟩
  cases moved.shift with
  | still _ _ plain =>
    obtain ⟨ns, grown, plain⟩ := plain
    rw [grown] at installed
    rcases List.mem_append.mp installed with new | old
    · exact absurd trivial (plain _ new)
    · exact before old
  | install known generation _ _ noted =>
    rw [noted] at installed
    rcases List.mem_cons.mp installed with new | old
    · cases new
      rw [generation]
      exact ⟨_, moved.suffix.subset (numbered.attempt known rfl).2⟩
    · exact before old
  | enter _ _ _ noted | take _ _ _ _ noted =>
    rw [noted] at installed
    rcases List.mem_cons.mp installed with new | old
    · cases new
    · exact before old

/-! Only between an installation and its report does the status tell of something else. -/

/-- What is installed stays so until the attempt ends. -/
theorem Advances.keeps_late (advances : Advances v c o stage next w)
    (attempted : stage.attempt? = some t) (still : next.attempt? = some t) (late : stage.Late) :
    next.Late := by
  refine Reload.Stage.late_of_not_tries still fun tries => ?_
  exact late.not_tries (advances.installed attempted tries).1

/-- Who installed an engine ends in a panic or has the status tell of that engine. -/
theorem Stops.tells_late (stops : Stops v c a u es x) (starts : a = .reload o stage)
    (attempted : stage.attempt? = some t) (late : stage.Late) :
    (∃ p, x = .panic p) ∨ u.slot = v.slot ∧ u.status.generation = t.generation := by
  cases stops with
  | succeed =>
    cases starts
    cases attempted
    exact .inr ⟨rfl, rfl⟩
  | releasePanic => exact .inl ⟨_, rfl⟩
  | refuse | constructorPanic | makerPanic | fail =>
    cases starts
    exact late.elim
  | _ => cases starts

/-- Who is to tell of the status looked up the slot. -/
theorem Goes.looks {b : Activity} {r : Http.Request} {current : Option Installation}
    (goes : Goes v c a u es b) (ends : b = .statusOf r current) :
    a = .status r ∧ v.slot = current := by
  cases goes with
  | look =>
    cases ends
    exact ⟨rfl, rfl⟩
  | sleep hK | wake hK | clear hK | release hK => cases hK <;> cases ends
  | _ => cases ends

/-- Unless an attempt is yet to report what it installed, the status tells of what is in the
slot. -/
def Abreast (v : Standing) : Prop :=
  (∃ c o stage, ⟨c, .reload o stage⟩ ∈ v.calls ∧ stage.Late) ∨
    ∀ i, v.slot = some i → v.status.generation = i.generation

theorem Abreast.move (abreast : v.Abreast) (numbered : v.Numbered) (chained : v.Chained)
    (moved : v.Move act w)
    (spared : ∀ c a, act = .cancel c → ⟨c, a⟩ ∈ v.calls → ¬ a.Handles)
    (calm : w.times Note.panics = 0) : w.Abreast := by
  by_cases late : ∃ c o stage, ⟨c, .reload o stage⟩ ∈ v.calls ∧ stage.Late
  · obtain ⟨c, o, stage, known, late⟩ := late
    obtain ⟨t, attempted⟩ := Reload.Stage.attempt?_of_late late
    cases moved.fate numbered.distinct known with
    | lives present =>
      obtain ⟨next, rfl, still, advances⟩ :=
        moved.advances numbered.distinct numbered.guarded known attempted present
      exact .inl ⟨c, o, next, present, advances.keeps_late attempted still late⟩
    | cut cancels => exact absurd trivial (spared c _ cancels known)
    | @stops u es x stops same =>
      subst same
      right
      intro i current
      rcases stops.tells_late rfl attempted late with ⟨p, rfl⟩ | ⟨slot, told⟩
      · exact absurd rfl ((List.countP_eq_zero.mp calm) _ List.mem_cons_self)
      · obtain ⟨j, there, generation⟩ := chained.current known late attempted
        cases (slot.trans there).symm.trans current
        exact told.trans generation.symm
    | leaves outside => exact absurd rfl (outside _ _)
  · have told : ∀ i, v.slot = some i → v.status.generation = i.generation :=
      abreast.resolve_left late
    have same : w.status.generation = v.status.generation := by
      rcases moved.generation with same | ⟨c, o, t, p, previous, known, -⟩
      · exact same
      · exact absurd ⟨c, o, _, known, trivial⟩ late
    unfold Abreast
    cases moved.shift with
    | still slot | enter _ slot =>
      rw [same, slot]
      exact .inr told
    | @install c o _ _ _ _ _ _ _ _ _ _ installed =>
      obtain ⟨stage, present, late⟩ := installed
      exact .inl ⟨c, o, stage, present, late⟩
    | take _ _ empty =>
      right
      intro i current
      cases empty.symm.trans current

end Standing

namespace Server

open Standing

theorem originated_run (setup : Setup) (actions : List Action) :
    ((start setup).run actions).standing.Originated := by
  have numbered : (start setup).standing.Numbered := numbered_run setup []
  exact (standing_run (P := fun v => v.Numbered ∧ v.Originated) actions
    ⟨numbered, fun i prev noted => by simp at noted⟩
    fun moved held => ⟨held.1.move moved, held.2.move held.1 moved⟩).2

theorem abreast_run {setup : Setup} {actions : List Action}
    (uncut : (start setup).Uncut actions)
    (calm : ((start setup).run actions).standing.times Note.panics = 0) :
    ((start setup).run actions).standing.Abreast := by
  refine run_induction (P := fun s => s.standing.Abreast) actions ?_ ?_
  · right
    intro i current
    cases current
  · intro before act after split abreast
    have numbered := numbered_run setup before
    refine abreast.move numbered (chained_run setup before)
      (((start setup).run before).move_step act) ?_ ?_
    · intro c a cancels known
      subst cancels
      have spares := spares_of_uncut (split ▸ uncut)
      exact spares a (activity?_of_mem numbered.distinct known)
    · have later := suffix_run (((start setup).run before).step act) after
      rw [split, run_append] at calm
      exact Nat.le_zero.mp (calm ▸ later.sublist.countP_le)

variable {setup : Setup} {actions : List Action} {c : CallId} {r : Http.Request}
  {current : Option Installation}

/-- What is in the slot has a generation above zero. -/
theorem generation_pos {i : Installation}
    (slot : ((start setup).run actions).slot = some i) : 0 < i.generation := by
  obtain ⟨prev, installed⟩ := stocked_run setup actions i slot
  obtain ⟨c, begun⟩ := originated_run setup actions i prev installed
  exact (numbered_run setup actions).positive_of_begun begun

/-- So has what is reported. -/
theorem report_pos (setup : Setup) (actions : List Action) (report : Report)
    (reported : report ∈ ((start setup).run actions).reports) : 0 < report.generation := by
  obtain ⟨n, noted, returned⟩ := List.mem_filterMap.mp reported
  cases n with
  | returned c result =>
    cases result with
    | ok r =>
      cases returned
      have there := mem_history.mpr ⟨noted, rfl⟩
      obtain ⟨begun, -⟩ := (reported_run setup actions).returned there
      exact (numbered_run setup actions).positive_of_begun begun
    | error e => cases returned
  | _ => cases returned

/-- Numbers above zero are told from none. -/
theorem getD_zero_inj {a b : Option Nat} (first : ∀ n ∈ a, 0 < n) (second : ∀ n ∈ b, 0 < n) :
    a.getD 0 = b.getD 0 ↔ a = b := by
  cases a with
  | none =>
    cases b with
    | none => simp
    | some n =>
      have positive : 0 < n := second n rfl
      simp [Nat.ne_of_lt positive]
  | some m =>
    have positive : 0 < m := first m rfl
    cases b with
    | none => simp [Nat.ne_of_gt positive]
    | some n => simp

/-- What is told of the status was looked up in the slot before. -/
theorem looked_run (active : ((start setup).run actions).activity? c =
      some (.statusOf r current)) :
    ∃ early late, actions = early ++ .proceed c :: late ∧
      ((start setup).run early).activity? c = some (.status r) ∧
      ((start setup).run early).slot = current := by
  induction actions using List.reverseRecOn with
  | nil => cases active
  | append_singleton actions act inductionHypothesis =>
    have distinct := distinct_run setup actions
    rw [run_append] at active
    cases (((start setup).run actions).move_step act).comes (mem_calls_of_activity? active) with
    | stays known =>
      obtain ⟨early, late, split, looks, slot⟩ :=
        inductionHypothesis (activity?_of_mem distinct known)
      refine ⟨early, late ++ [act], ?_, looks, slot⟩
      rw [split, List.append_assoc, List.cons_append]
    | begins _ opens => cases opens
    | proceeds known goes =>
      obtain ⟨rfl, slot⟩ := goes.looks rfl
      have before := activity?_of_mem distinct known
      rcases step_active distinct before act with rfl | ⟨ended, -⟩ | untouched
      · exact ⟨actions, [], rfl, before, slot⟩
      · cases ended.symm.trans active
      · cases (untouched.activity.trans before).symm.trans active
    | handed _ retires => cases retires
    | completes _ completing => cases completing

/-- The status tells of the engine in service: no attempt is yet to report what it installed, and
no shutdown took what was reported. -/
def Abreast (s : Server) : Prop :=
  (∀ c o stage, s.activity? c = some (.reload o stage) → ¬ stage.Late) ∧
    (s.slot = none → s.reports = [])

/-- How far the generation in the status is from that in the slot. -/
structure Lags (s : Server) : Prop where
  agrees : s.status.generation = s.generation ↔ s.Abreast
  behind : ∀ c o stage, s.activity? c = some (.reload o stage) → stage.Late →
    s.status.generation < s.generation
  ahead : s.slot = none → s.reports ≠ [] → s.generation < s.status.generation

theorem lags_run (uncut : (start setup).Uncut actions)
    (calm : ((start setup).run actions).standing.times Note.panics = 0) :
    ((start setup).run actions).Lags := by
  have numbered := numbered_run setup actions
  have followed := followed_run setup actions
  have chained := chained_run setup actions
  have abreast := abreast_run uncut calm
  have records := recorded_run setup actions
  have positive := report_pos setup actions
  generalize (start setup).run actions = s at *
  have behind (c : CallId) (o : Origin) (stage : Reload.Stage)
      (active : s.activity? c = some (.reload o stage)) (late : stage.Late) :
      s.status.generation < s.generation := by
    have known := mem_calls_of_activity? active
    obtain ⟨t, attempted⟩ := Reload.Stage.attempt?_of_late late
    have older := followed.older known attempted
    obtain ⟨i, current, generation⟩ := chained.current known late attempted
    rw [← generation] at older
    rw [Server.generation, show s.slot = some i from current]
    exact older
  have ahead (empty : s.slot = none) (reported : s.reports ≠ []) :
      s.generation < s.status.generation := by
    obtain ⟨report, rest, some⟩ := List.exists_cons_of_ne_nil reported
    rw [Server.generation, empty, records.generation, some]
    exact positive report (some ▸ List.mem_cons_self)
  refine ⟨⟨fun same => ⟨?_, ?_⟩, fun told => ?_⟩, behind, ahead⟩
  · intro c o stage active late
    exact absurd same (Nat.ne_of_lt (behind c o stage active late))
  · intro empty
    by_contra reported
    exact absurd same (Nat.ne_of_gt (ahead empty reported))
  · obtain ⟨settled, vacant⟩ := told
    cases slot : s.slot with
    | none =>
      rw [Server.generation, slot, records.generation, vacant slot]
      rfl
    | some i =>
      have early : ¬ ∃ c o stage, ⟨c, .reload o stage⟩ ∈ s.standing.calls ∧ stage.Late := by
        rintro ⟨c, o, stage, known, late⟩
        exact settled c o stage (activity?_of_mem numbered.distinct known) late
      rw [Server.generation, slot]
      exact abreast.resolve_left early i slot

/-- The call tells of the status what it looked up, and the latest report. -/
structure Displays (s : Server) (c : CallId) (r : Http.Request) (current : Option Installation) :
    Prop where
  answer : (s.step (.proceed c)).answer? c =
    some (.response (r.dress s.setup.cors (jsonResponse 200 (s.statusJson current))))
  /-- All of it is about one engine only if the latest report is about the engine looked up. -/
  agrees : s.status.generation = (current.map Installation.generation).getD 0 ↔
    s.reports.head?.map Report.generation = current.map Installation.generation

theorem displays_run (active : ((start setup).run actions).activity? c =
      some (.statusOf r current)) :
    ((start setup).run actions).Displays c r current := by
  obtain ⟨early, late, -, -, slot⟩ := looked_run active
  have records := recorded_run setup actions
  have positive := report_pos setup actions
  generalize (start setup).run actions = s at *
  constructor
  · have goes : s.step (.proceed c) = s.respond c r (jsonResponse 200 (s.statusJson current)) := by
      rw [step_proceed active rfl id]
      rfl
    exact (stopped ((congrArg standing goes).trans (standing_respond s c r _))).2.1
  · rw [records.generation]
    apply getD_zero_inj
    · intro n told
      obtain ⟨report, latest, rfl⟩ := Option.map_eq_some_iff.mp told
      exact positive report (List.mem_of_mem_head? latest)
    · intro n told
      obtain ⟨i, there, rfl⟩ := Option.map_eq_some_iff.mp told
      exact generation_pos (slot.trans there)

/-- The status tells of the latest report, and the slot may have changed since. In a run that cuts
off no call that handles engines, and in which none of these panics, the status tells of the engine
in service unless an attempt installed one and is yet to report it, or a shutdown took the one
reported. Who asks for the status is told of what was in the slot and of the latest report, which
need not be of the same engine. -/
theorem status_lags_behind_slot (uncut : (start setup).Uncut actions)
    (calm : ((start setup).run actions).times Note.panics = 0) :
    let s := (start setup).run actions
    s.Lags ∧ ∀ c r current, s.activity? c = some (.statusOf r current) →
      s.Displays c r current ∧
        ∃ early late, actions = early ++ .proceed c :: late ∧
          ((start setup).run early).activity? c = some (.status r) ∧
          ((start setup).run early).slot = current := by
  intro s
  have unlogged (n : Note) : n.panics → n.isLine = false := by
    cases n <;> simp [Note.panics, Note.isLine]
  rw [← standing_times _ unlogged] at calm
  exact ⟨lags_run uncut calm, fun c r current active => ⟨displays_run active, looked_run active⟩⟩

def askStatus : Http.Request := ⟨"GET", "/status", []⟩

/-- While the second of two reloads drains the first engine, who asks for the status is told of the
second engine and the first generation. -/
theorem draining_reload_lags :
    let second : Installation := ⟨5, ⟨4, .trial 2⟩, "trial", 2, .ofMillis 0⟩
    let actions := untilDrain ++ .demand (.request askStatus) :: proceeds 2 6
    let s := (start .patient).run actions
    s.status.generation < s.generation ∧ (s.step (.proceed 6)).answer? 6 =
      some (.response (askStatus.dress false (jsonResponse 200 (s.statusJson (some second))))) := by
  intro second actions s
  have asked : s.activity? 6 = some (.statusOf askStatus (some second)) := rfl
  have uncut : (start .patient).Uncut actions := by decide
  obtain ⟨lags, displays⟩ := status_lags_behind_slot uncut (by decide)
  exact ⟨lags.behind 3 _ _ rfl trivial, (displays 6 askStatus _ asked).1.answer⟩

end Server

end HotSwap

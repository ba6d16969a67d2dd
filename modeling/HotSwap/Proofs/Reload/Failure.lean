import HotSwap.Proofs.Reload.Attempt
import HotSwap.Proofs.Reload.Cause

/-!
# Failed reloads

A reload that fails past the guard is atomic: it has taken a generation and is told of by the
status, and all else is as it was when the reload passed.
-/

namespace HotSwap

/-- What an answer tells whoever asked for a reload that failed. -/
def Origin.Hears (o : Origin) (e : ReloadError) (x : Answer) : Prop :=
  match o with
  | .http _ => ∃ response : Http.Response, x = .response response ∧ response.status = 500 ∧
      response.body = Bytes.ofText ("Reload failed: " ++ e.message)
  | _ => x = .refused e

theorem Origin.hears_answer {setup : Setup} {generation : Nat} {e : ReloadError} {o : Origin}
    (fails : setup.Fails generation e)
    (posted : ∀ r, o = .http r → r.plan setup.cors = .reload) :
    o.Hears e (o.answer setup.cors (.error e)) := by
  cases o with
  | http r =>
    have method := Http.Request.method_of_plan (posted r rfl)
    have response : Server.reloadResponse (.error e) =
        .text 500 ("Reload failed: " ++ e.message) := by
      cases fails <;> rfl
    refine ⟨_, rfl, ?_, ?_⟩
    · rw [Http.Request.status_dress, response]
      rfl
    · rw [Http.Request.body_dress method, response]
      rfl
  | _ => rfl

namespace Server

/-- What a failed reload leaves as it was, and what it tells. -/
structure Unharmed (s u : Server) (c : CallId) (o : Origin) (e : ReloadError) : Prop where
  slot : u.slot = s.slot
  released : ∀ i, .released c i ∈ u.journal → .released c i ∈ s.journal
  status : u.status = { s.status with
    phase := .idle
    lastStartedAt := u.status.lastStartedAt
    lastFailureAt := u.status.lastFailureAt
    lastError := some e.message }
  generation : u.nextGeneration = s.nextGeneration + 1
  returned : .returned c (.error e) ∈ u.journal
  answered : ∃ x, u.answer? c = some x ∧ o.Hears e x

variable {s : Server} {c : CallId} {o : Origin}

/-- Whoever passes the guard becomes an attempt. -/
theorem attempts_arriving {g : Guard} (distinct : s.standing.Distinct)
    (guarded : s.standing.Guarded) (arrived : s.activity? c = some (.reload o .arriving))
    (enters : s.guard.enter? c = some g) :
    s.standing.Attempts c o (s.step (.proceed c)).standing := by
  have moved := s.move_step (.proceed c)
  have known := mem_calls_of_activity? arrived
  refine ⟨distinct.move moved, guarded.move moved,
    Nat.lt_of_lt_of_le (distinct.lt_fresh _ known) moved.fresh_le, ?_⟩
  have entered : (s.step (.proceed c)).standing = _ :=
    (congrArg standing (step_proceed arrived rfl id)).trans (standing_reloadArriving enters)
  rw [entered]
  intro a present
  rcases Standing.mem_calls_proceedTo.mp present with ⟨-, other⟩ | ⟨same, -⟩
  · exact absurd rfl other
  · cases same
    refine ⟨_, _, rfl, rfl, rfl, fun _ => ⟨rfl, rfl, rfl, fun i noted => ?_⟩⟩
    rcases List.mem_cons.mp noted with new | old
    · cases new
    · exact old

/-- An attempt that discovery fails is about to fail. -/
theorem failing_of_discovery {a : Attempt} {e : DiscoveryError}
    (building : s.activity? c = some (.reload o (.building a)))
    (failed : (s.discover c a).found = .failure e) :
    (s.step (.proceed c)).activity? c = some (.reload o (.failing a (.discovery e))) := by
  rw [step_proceed building rfl id]
  change (s.reloadBuilding c o a).activity? c = _
  simp only [reloadBuilding, failed]
  exact activity?_proceedTo building

/-- An attempt whose provider fails to give an engine is about to fail, if it need not wait. -/
theorem failing_of_engine {a : Attempt} {name : String} {k : Nat} {recipe : Recipe}
    {e : ConstructionError}
    (asking : s.activity? c = some (.reload o (.asking a name k recipe)))
    (failed : recipe.engine = .failed e) :
    (s.step (.proceed c)).Rests c ∨
      (s.step (.proceed c)).activity? c =
        some (.reload o (.failing a (.construction name e))) := by
  rcases rests_or_acts asking with ⟨rests, -⟩ | ⟨t, same, goes⟩
  · exact .inl rests
  · right
    rw [goes]
    change (t.reloadAsking c o a name k recipe).activity? c = _
    simp only [reloadAsking, failed]
    exact activity?_proceedTo ((activity?_congr (congrArg Standing.calls same)).trans asking)

/-- A failed reload is atomic. When an attempt that passed the guard at `s` fails, whatever runs in
between, the slot holds what it held, nothing was released, the status tells of the failure only,
and one generation is gone. -/
theorem failed_reload_is_atomic (setup : Setup) (before : List Action) {g : Guard}
    (arrived : ((start setup).run before).activity? c = some (.reload o .arriving))
    (enters : ((start setup).run before).guard.enter? c = some g) (during : List Action) :
    let s := (start setup).run before
    let t := (s.step (.proceed c)).run during
    let u := t.step (.proceed c)
    (∀ a e, t.activity? c = some (.reload o (.building a)) → (t.discover c a).found = .failure e →
      u.activity? c = some (.reload o (.failing a (.discovery e)))) ∧
    (∀ a name k recipe e, t.activity? c = some (.reload o (.asking a name k recipe)) →
      recipe.engine = .failed e →
        u.Rests c ∨ u.activity? c = some (.reload o (.failing a (.construction name e)))) ∧
    ∀ a e, t.activity? c = some (.reload o (.failing a e)) →
      setup.Fails s.nextGeneration e ∧
        (∀ source ∈ e.provided?, ∃ start, e.message = start ++ source.message) ∧
        s.Unharmed u c o e := by
  intro s t u
  refine ⟨fun a e => failing_of_discovery, fun a name k recipe e => failing_of_engine, ?_⟩
  intro a e failing
  have known := mem_calls_of_activity? failing
  have attempts : s.standing.Attempts c o t.standing :=
    standing_run during
      (attempts_arriving (distinct_run setup before) (guarded_run setup before) arrived enters)
      fun moved held => held.move moved
  obtain ⟨stage, a', same, attempted, generation, tries⟩ := attempts.stage _ known
  cases same
  cases attempted
  have trying := tries trivial
  have reached : t = (start setup).run (before ++ Action.proceed c :: during) :=
    (run_append (start setup) before (.proceed c :: during)).symm
  have hsetup : t.setup = setup := reached ▸ setup_run (start setup) _
  have faithful : (Activity.reload o (.failing a e)).Faithful t.setup :=
    (reached ▸ faithful_run setup (before ++ Action.proceed c :: during)) _ known
  rw [hsetup] at faithful
  have number : a.generation = s.nextGeneration := generation
  have fails : setup.Fails a.generation e := faithful.2
  rw [number] at fails
  refine ⟨fails, fun source => e.message_provided, ?_⟩
  have ended : u.standing = _ :=
    (congrArg standing (step_proceed failing rfl id)).trans (standing_reloadFailing t c o e)
  constructor
  · exact (congrArg Standing.slot ended).trans trying.slot
  · intro i noted
    have there : .released c i ∈ u.standing.history := mem_history.mpr ⟨noted, rfl⟩
    rw [ended] at there
    rcases List.mem_cons.mp there with ended | there
    · cases ended
    · rcases List.mem_cons.mp there with returned | old
      · cases returned
      · exact (mem_history.mp (trying.released i old)).1
  · have status : u.status = (t.status.fail t.clock e.message).settle :=
      congrArg Standing.status ended
    have begun : t.status = _ := trying.status
    rw [status, begun]
    rfl
  · exact (congrArg Standing.nextGeneration ended).trans trying.nextGeneration
  · have there : .returned c (.error e) ∈ u.standing.history := by
      rw [ended]
      exact .tail _ (.head _)
    exact (mem_history.mp there).1
  · refine ⟨o.answer setup.cors (.error e), ?_, Origin.hears_answer fails faithful.1⟩
    have answers : u.answers = (c, o.answer t.setup.cors (.error e)) :: t.answers :=
      congrArg Standing.answers ended
    rw [answer?, answers, hsetup]
    simp

/-! A provider makes one engine only, so that a reload over HTTP fails, while another is turned
away. -/

def onlyOne : Setup := .trial fun generation =>
  if generation = 1 then .made (.trial 1) else .failed ⟨"no more", none⟩

def postReload : Http.Request := ⟨"POST", "/reload", []⟩

def untilArrival : List Action :=
  .demand .reload :: proceeds 7 0 ++ [.demand (.request postReload), .proceed 3]

def untilFailure : List Action := .demand .reload :: proceeds 4 3 ++ [.proceed 4]

theorem second_engine_fails :
    let s := (start onlyOne).run untilArrival
    let u := ((s.step (.proceed 3)).run untilFailure).step (.proceed 3)
    s.slot.map Installation.generation = some 1 ∧
      s.Unharmed u 3 (.http postReload) (.construction "trial" ⟨"no more", none⟩) := by
  have arrived : ((start onlyOne).run untilArrival).activity? 3 =
      some (.reload (.http postReload) .arriving) := rfl
  have atomic := failed_reload_is_atomic onlyOne untilArrival (g := ⟨some 3, []⟩) arrived rfl
    untilFailure
  exact ⟨rfl, (atomic.2.2 ⟨2, 0⟩ _ rfl).2.2⟩

end Server

end HotSwap

import HotSwap.Proofs.Standing.Move

/-!
# Steps are moves

Whatever a step of the server does, it changes the standing by one of the moves. This is the only
place where the steps are looked into one by one.
-/

namespace HotSwap

/-- Who is not let through a turnstile waits in line. -/
theorem Turnstile.mem_queue_of_enter {t after : Turnstile} {c : CallId}
    (entered : t.enter c = (after, false)) : c ∈ after.queue := by
  unfold enter at entered
  split at entered
  · cases entered
  · split at entered
    · next waits =>
      cases entered
      exact waits
    · split at entered
      · cases entered
      · cases entered
        simp

namespace Server

open Standing

theorem mem_calls_of_activity? {s : Server} {c : CallId} {a : Activity}
    (h : s.activity? c = some a) : ⟨c, a⟩ ∈ s.calls := by
  obtain ⟨call, found, rfl⟩ := Option.map_eq_some_iff.mp h
  have same := List.find?_some found
  simp only [decide_eq_true_eq] at same
  exact same ▸ List.mem_of_find?_eq_some found

/-- What a call is at depends on the calls only. -/
theorem activity?_congr {s u : Server} {c : CallId} (same : u.calls = s.calls) :
    u.activity? c = s.activity? c := by
  rw [activity?, call?, same]
  rfl

theorem activity?_proceedTo {s : Server} {c : CallId} {a b : Activity}
    (known : s.activity? c = some a) : (s.proceedTo c b).activity? c = some b := by
  obtain ⟨call, found, -⟩ := Option.map_eq_some_iff.mp known
  have same : ((fun e : Call => decide (e.id = c)) ∘
      fun e : Call => if e.id = c then { e with activity := b } else e) =
        fun e => decide (e.id = c) := by
    funext e
    by_cases here : e.id = c <;> simp [here]
  have first : s.calls.find? (·.id = c) = some call := found
  have hid : call.id = c := by simpa using List.find?_some first
  have moved : (s.proceedTo c b).call? c = some { call with activity := b } := by
    rw [call?, proceedTo, List.find?_map, same, first]
    simp [hid]
  simp [activity?, moved]

theorem standing_conclude (s : Server) (c : CallId) (o : Origin)
    (result : Except ReloadError Report) :
    (s.conclude c o result).standing =
      (s.standing.notes [.returned c result]).finish c (o.answer s.setup.cors result) := by
  have h := s.standing_note (n := .returned c result) rfl
  cases o with
  | http r =>
    simp only [conclude, standing_respond]
    split <;> simp only [standing_log, h] <;> rfl
  | _ =>
    simp only [conclude, standing_finish, standing_log, h]
    rfl

theorem filter_looked (r : Registry) : (Discovery.looked r).filter (fun n => !n.isLine) = [] := by
  simp [Discovery.looked, Discovery.scanned, Note.isLine]

variable {s : Server} {c : CallId}

/-- What passes the guard takes the next generation. -/
theorem standing_reloadArriving {o : Origin} {g : Guard} (enters : s.guard.enter? c = some g) :
    (s.reloadArriving c o).standing =
      (({ s.standing with guard := g, nextGeneration := s.nextGeneration + 1 } : Standing).notes
        [.begun c s.nextGeneration]).proceedTo c
          (.reload o (.numbered ⟨s.nextGeneration, (s.announce o).now⟩)) := by
  have told := s.standing_announce o
  generalize reached : s.announce o = t at told
  have guard : t.guard = s.guard := congrArg Standing.guard told
  have number : t.nextGeneration = s.nextGeneration := congrArg Standing.nextGeneration told
  simp only [reloadArriving, reached, guard, enters, standing_proceedTo,
    standing_note _ (rfl : (Note.begun _ _).isLine = false), number]
  rw [← told]
  rfl

theorem move_reloadArriving {o : Origin} (known : ⟨c, .reload o .arriving⟩ ∈ s.calls) :
    Move s.standing (.proceed c) (s.reloadArriving c o).standing := by
  cases enters : s.guard.enter? c with
  | none =>
    have told := s.standing_announce o
    have guard : (s.announce o).guard = s.guard := congrArg Standing.guard told
    have setup : (s.announce o).setup = s.setup := congrArg Standing.setup told
    simp only [reloadArriving, guard, enters, standing_conclude, standing_log, told]
    exact .stop known (setup ▸ .refuse enters)
  | some g =>
    rw [standing_reloadArriving enters]
    exact .go known (.enter enters)

theorem standing_reloadFailing (s : Server) (c : CallId) (o : Origin) (e : ReloadError) :
    (s.reloadFailing c o e).standing =
      (({ s.standing with status := (s.status.fail s.clock e.message).settle } : Standing).notes
        [.returned c (.error e)]).finish c (o.answer s.setup.cors (.error e)) :=
  standing_conclude _ c o (.error e)

theorem move_reloadBuilding {o : Origin} {a : Attempt}
    (known : ⟨c, .reload o (.building a)⟩ ∈ s.calls) :
    Move s.standing (.proceed c) (s.reloadBuilding c o a).standing := by
  have noted (ns : List Note) (k : Constructed) :
      ({ s with constructed := k, journal := ns ++ s.journal } : Server).standing =
        s.standing.notes (ns.filter fun n => !n.isLine) := by
    simp [standing, history, Standing.notes, List.filter_append]
  cases discovered : s.setup.registry.discover with
  | error e =>
    simp only [reloadBuilding, discover, Discovery.run, discovered, standing_proceedTo, noted,
      List.filter_reverse, filter_looked, List.reverse_nil]
    exact .go known (.misfind discovered)
  | ok found =>
    obtain ⟨name, k⟩ := found
    simp only [reloadBuilding, discover, Discovery.run, discovered, Discovery.construct]
    cases made : (k.recipe (s.constructed.count k.id) (s.context a)).construction with
    | made u =>
      simp only [standing_proceedTo, noted, List.filter_reverse, List.filter_append, filter_looked]
      exact .go known (.construct discovered made)
    | failed e =>
      simp only [standing_proceedTo, noted, List.filter_reverse, List.filter_append, filter_looked]
      exact .go known (.misconstruct discovered made)
    | panic p =>
      simp only [standing_finish, noted, List.filter_reverse, List.filter_append, filter_looked]
      exact .stop known (.constructorPanic discovered made)

theorem move_reloadAsking {o : Origin} {a : Attempt} {name : String} {k : Nat} {recipe : Recipe}
    (known : ⟨c, .reload o (.asking a name k recipe)⟩ ∈ s.calls) :
    Move s.standing (.proceed c) (s.reloadAsking c o a name k recipe).standing := by
  unfold reloadAsking
  split
  · next engine made =>
    have numbered : ∃ n, s.fresh ≤ n ∧
        (s.produce k recipe engine).1.standing = { s.standing with fresh := n } := by
      unfold produce
      split
      · split
        · exact ⟨s.fresh, (Nat.le_refl _), rfl⟩
        · exact ⟨s.fresh + 1, by omega, rfl⟩
      · exact ⟨s.fresh + 1, by omega, rfl⟩
    obtain ⟨n, later, produced⟩ := numbered
    simp only [standing_proceedTo, produced]
    exact .go (v := s.standing) known (.obtain later made)
  · next e made => exact .go known (.misask made)
  · next p made =>
    rw [standing_finish]
    exact .stop known (.makerPanic made)

theorem move_reloadInstalling {o : Origin} {a : Attempt} {p : String} {product : Product}
    (known : ⟨c, .reload o (.installing a p product)⟩ ∈ s.calls) :
    Move s.standing (.proceed c) (s.reloadInstalling c o a p product).standing := by
  unfold reloadInstalling
  have swapped (i : Installation) : (s.swap i).standing =
      { s.standing with slot := some i, fresh := s.fresh + 1 }.notes [.installed i s.slot] :=
    standing_note _ rfl
  simp only
  split
  · next old slot =>
    simp only [standing_proceedTo, standing_log, swapped, slot]
    exact .go known (.replace slot)
  · next slot =>
    simp only [standing_proceedTo, standing_log, swapped, slot]
    exact .go known (.install slot)

/-- What a retirement comes to, whatever call it belongs to. -/
theorem move_advanceRetirement {K : Retirement → Activity} (hK : Activity.Retires K)
    {r : Retirement} (known : ⟨c, K r⟩ ∈ s.calls) {ended : Server → Server}
    (leave : ∀ t : Server, s.InUse r.installation → r.stage = .polling →
      t.standing = s.standing.begin (.retirement ⟨r.installation, none, .polling⟩) →
      Move s.standing (.proceed c) (ended t).standing)
    (ending : ∀ t : Server, r.stage = .releasing →
      t.standing = s.standing.notes [.releaseEnded c r.installation] →
      Move s.standing (.proceed c) (ended t).standing) :
    Move s.standing (.proceed c) (s.advanceRetirement c r K ended).standing := by
  obtain ⟨i, d, stage⟩ := r
  cases stage with
  | polling =>
    by_cases inUse : s.InUse i
    · by_cases due : ∃ due ∈ d, due ≤ s.now
      · simp only [advanceRetirement, retireStep, poll, if_pos inUse, if_pos due]
        exact leave _ inUse rfl (standing_begin _ _)
      · simp only [advanceRetirement, retireStep, poll, if_pos inUse, if_neg due]
        exact .go (v := s.standing) known (.sleep hK inUse)
    · simp only [advanceRetirement, retireStep, poll, if_neg inUse]
      exact .go (v := s.standing) known (.clear hK inUse)
  | sleeping w => exact .go known (.wake hK)
  | free =>
    have h := s.standing_note (n := .released c i) rfl
    simp only [advanceRetirement, retireStep, standing_proceedTo, h]
    exact .go known (.release hK)
  | releasing =>
    have h := s.standing_note (n := .releaseEnded c i) rfl
    simp only [advanceRetirement, retireStep, released]
    cases outcome : i.engine.release with
    | released => exact ending _ rfl h
    | failed message => exact ending _ rfl h
    | panic p =>
      simp only [standing_finish]
      exact .stop known (.releasePanic hK outcome)

theorem move_reloadStep {o : Origin} {stage : Reload.Stage}
    (known : ⟨c, .reload o stage⟩ ∈ s.calls) :
    Move s.standing (.proceed c) (s.reloadStep c o stage).standing := by
  cases stage with
  | arriving => exact move_reloadArriving known
  | numbered a => exact .go known .mark
  | building a => exact move_reloadBuilding known
  | constructed a p k recipe =>
    have h (t : Server) := t.standing_note (n := .asked c p recipe.tag recipe.noted) rfl
    simp only [reloadStep, reloadConstructed, standing_proceedTo, h, standing_log]
    exact .go known .ask
  | asking a p k recipe => exact move_reloadAsking known
  | installing a p product => exact move_reloadInstalling known
  | retiring a p r =>
    apply move_advanceRetirement (.reload o a p) known
    · intro t inUse atStage reached
      obtain ⟨i, d, stage⟩ := r
      subst atStage
      rw [standing_proceedTo, reached]
      exact .leave (v := s.standing) known inUse
    · intro t atStage reached
      obtain ⟨i, d, stage⟩ := r
      subst atStage
      rw [standing_proceedTo, reached]
      exact .go known .released
  | completing a p previous =>
    simp only [reloadStep, reloadCompleting, standing_conclude, standing_log]
    exact .stop known .succeed
  | failing a e =>
    rw [reloadStep, standing_reloadFailing]
    exact .stop known .fail

theorem move_shutdownStep {stage : Shutdown.Stage} (known : ⟨c, .shutdown stage⟩ ∈ s.calls)
    (turn : stage = .queued → s.guard.holder = some c) :
    Move s.standing (.proceed c) (s.shutdownStep c stage).standing := by
  cases stage with
  | arriving => exact .go known .join
  | queued =>
    simp only [shutdownStep, takeDown]
    split
    · next slot =>
      rw [standing_finish]
      exact .stop known (.vacant (turn rfl) slot)
    · next i slot => exact .go known (.take (turn rfl) slot)
  | retiring r =>
    apply move_advanceRetirement .shutdown known
    · intro t inUse atStage reached
      obtain ⟨i, d, stage⟩ := r
      subst atStage
      rw [standing_finish, reached]
      exact .leaveAll (v := s.standing) .shutdown (by simp) known inUse
    · intro t atStage reached
      obtain ⟨i, d, stage⟩ := r
      subst atStage
      rw [standing_finish, reached]
      exact .stop known .shutdown

theorem move_requestStep {r : Http.Request} (known : ⟨c, .request r⟩ ∈ s.calls) :
    Move s.standing (.proceed c) (s.requestStep c r).standing := by
  unfold requestStep
  split
  · next response warning planned =>
    simp only [standing_respond]
    split <;> exact .stop known (.respond planned)
  · next body planned => exact .go known (.query planned)
  · next planned => exact .go known (.reload planned)
  · next planned => exact .go known (.status planned)

theorem move_queryStep {r : Http.Request} {stage : Query.Stage}
    (known : ⟨c, .query r stage⟩ ∈ s.calls) :
    Move s.standing (.proceed c) (s.queryStep c r stage).standing := by
  cases stage with
  | arriving body =>
    simp only [queryStep, queryArriving]
    split
    · next e parsed =>
      rw [standing_respond]
      exact .stop known (.malformed parsed)
    · next input parsed => exact .go known (.parse parsed)
  | parsed input =>
    simp only [queryStep, queryParsed]
    split
    · next slot =>
      rw [standing_respond]
      exact .stop known (.unavailable slot)
    · next i slot =>
      rw [standing_proceedTo, standing_logQuery]
      exact .go known (.hold slot)
  | holding i input =>
    have h := s.standing_note (n := .executed c i input) rfl
    simp only [queryStep, standing_proceedTo, h]
    exact .go known .execute
  | executing i input =>
    have cors : (s.logOutcome (i.engine.execute input)).setup = s.setup :=
      congrArg Standing.setup (s.standing_logOutcome _)
    simp only [queryStep, standing_respond, standing_logOutcome, cors]
    exact .stop known .executed

theorem move_listenStep {source : Source} (known : ⟨c, .listener source⟩ ∈ s.calls) :
    Move s.standing (.proceed c) (s.listenStep c source).standing := by
  have stops : Move s.standing (.proceed c) (s.standing.finish c .done) := .stop known .listener
  cases source with
  | nothing =>
    simp only [listenStep, standing_finish]
    exact stops
  | channel id =>
    simp only [listenStep, receive]
    split
    · rw [standing_finish]
      exact stops
    · split
      · simp only [standing_begin, standing_updateChannel]
        exact .start (.reload _ (by simp))
      · rw [standing_finish, standing_close]
        exact stops
  | hangup =>
    simp only [listenStep, standing_begin, standing_log]
    exact .start (v := s.standing) (.reload _ (by simp))

theorem move_act {a : Activity} (known : ⟨c, a⟩ ∈ s.calls)
    (turn : a = .shutdown .queued → s.guard.holder = some c) :
    Move s.standing (.proceed c) (s.act c a).standing := by
  cases a with
  | reload o stage => exact move_reloadStep known
  | shutdown stage => exact move_shutdownStep known fun h => turn (h ▸ rfl)
  | request r => exact move_requestStep known
  | query r stage => exact move_queryStep known
  | status r => exact .go known .look
  | statusOf r current =>
    simp only [act, standing_respond]
    exact .stop known .told
  | execution i input =>
    have h := s.standing_note (n := .executed c i input) rfl
    simp only [act, standing_proceedTo, h]
    exact .go known .call
  | executing i input =>
    simp only [act, standing_finish]
    exact .stop known .outcome
  | retirement r =>
    apply move_advanceRetirement .background known
    · intro t inUse atStage reached
      obtain ⟨i, d, stage⟩ := r
      subst atStage
      rw [standing_finish, reached]
      exact .leaveAll (v := s.standing) .background (by simp) known inUse
    · intro t atStage reached
      obtain ⟨i, d, stage⟩ := r
      subst atStage
      rw [standing_finish, reached]
      exact .stop known .background
  | listener source => exact move_listenStep known

/-- A call that neither stands at a gate nor waits goes on. -/
theorem step_proceed {a : Activity} (active : s.activity? c = some a) (gate : a.gate? = none)
    (waits : ¬ s.Waits c a) : s.step (.proceed c) = s.act c a := by
  simp only [step, proceed, active, gate, if_neg waits]

/-- A call that is let on is then at rest, or has gone on with all as it was. -/
theorem rests_or_acts {a : Activity} (active : s.activity? c = some a) :
    ((s.step (.proceed c)).Rests c ∧ (s.step (.proceed c)).standing = s.standing) ∨
      ∃ t : Server, t.standing = s.standing ∧ s.step (.proceed c) = t.act c a := by
  cases gate : a.gate? with
  | none =>
    by_cases waits : s.Waits c a
    · have stands : s.step (.proceed c) = s := by
        simp only [step, proceed, active, gate, if_pos waits]
      rw [stands]
      refine .inl ⟨?_, rfl⟩
      simpa only [Rests, active, gate] using waits
    · exact .inr ⟨s, rfl, step_proceed active gate waits⟩
  | some g =>
    cases entered : (s.turnstile g).enter c with
    | mk t passes =>
      cases passes with
      | true =>
        exact .inr ⟨s.setTurnstile g t, rfl, by simp only [step, proceed, active, gate, entered]⟩
      | false =>
        have stands : s.step (.proceed c) = s.setTurnstile g t := by
          simp only [step, proceed, active, gate, entered]
        have still : (s.setTurnstile g t).activity? c = some a := active
        rw [stands]
        refine .inl ⟨?_, rfl⟩
        simp only [Rests, still, gate]
        simpa [turnstile, setTurnstile] using Turnstile.mem_queue_of_enter entered

theorem move_proceed (s : Server) (c : CallId) :
    Move s.standing (.proceed c) (s.proceed c).standing := by
  unfold proceed
  split
  · exact .rest
  · next a active =>
    have known := mem_calls_of_activity? active
    split
    · next gate =>
      split
      · exact .rest
      · next waits =>
        apply move_act known
        rintro rfl
        simpa [Waits] using waits
    · next g gate =>
      split
      · next t taken =>
        -- who stands at a gate is not in line for the guard
        have turn : a = .shutdown .queued → s.guard.holder = some c := by
          rintro rfl
          cases gate
        exact move_act (s := s.setTurnstile g t) known turn
      · exact .rest

/-- Whatever a call waits for, cutting it off ends it. -/
theorem standing_cancel {a : Activity} (active : s.activity? c = some a) :
    (s.cancel c).standing = s.standing.finish c .cancelled := by
  simp only [cancel, active, standing_finish, standing_stopListening]
  split
  · rw [standing_leaveGate]
  · rfl

theorem move_cancel (s : Server) (c : CallId) :
    Move s.standing (.cancel c) (s.cancel c).standing := by
  cases active : s.activity? c with
  | none =>
    simp only [cancel, active]
    exact .rest
  | some a =>
    rw [standing_cancel active]
    exact .cut (mem_calls_of_activity? active)

theorem opens_of_demanded? {d : Demand} {a : Activity} (h : s.demanded? d = some a) :
    s.standing.Opens a := by
  cases d with
  | execution name input =>
    obtain ⟨i, found, rfl⟩ := Option.map_eq_some_iff.mp h
    obtain ⟨before, after, kept, -⟩ := List.lookup_eq_some_iff.mp found
    have there : (name, i) ∈ s.kept := by simp [kept]
    exact .execution (v := s.standing) input there
  | _ =>
    cases h
    first
    | exact .reload _ (by simp)
    | exact .shutdown
    | exact .request _
    | exact .listener _

theorem mem_of_mem_keep {name : String} {i : Installation} (slot : s.slot = some i)
    {k : String × Installation} (there : k ∈ (name, i) :: s.kept.filter (·.1 ≠ name)) :
    k ∈ s.kept ∨ s.slot = some k.2 := by
  rcases List.mem_cons.mp there with rfl | there
  · exact .inr slot
  · exact .inl (List.mem_filter.mp there).1

/-- Whatever a step does, it moves the standing. -/
theorem move_step (s : Server) (act : Action) : Move s.standing act (s.step act).standing := by
  cases act with
  | demand d =>
    simp only [step, demand]
    split
    · next a active =>
      rw [standing_begin]
      exact .start (opens_of_demanded? active)
    · exact .rest
  | proceed c => exact s.move_proceed c
  | cancel c => exact s.move_cancel c
  | elapse ms =>
    simp only [step, elapse, standing_wakeAll]
    exact .rest
  | permit g n =>
    simp only [step, permit, standing_wakeAll, standing_setTurnstile]
    exact .rest
  | keep name =>
    simp only [step, keep]
    split
    · next i slot => exact .keep (v := s.standing) fun k there => mem_of_mem_keep slot there
    · exact .rest
  | letGo name => exact .keep (v := s.standing) fun k there => .inl (List.mem_filter.mp there).1
  | openChannel => exact .number
  | send id =>
    simp only [step, send]
    split
    · simp only [standing_wakeListeners, standing_updateChannel]
      exact .rest
    · exact .rest
  | addSender id => exact .rest
  | dropSender id =>
    simp only [step, dropSender, standing_wakeListeners, standing_updateChannel]
    exact .rest
  | dropReceiver id =>
    simp only [step, standing_dropReceiver]
    exact .rest
  | hangUp =>
    simp only [step, hangUp, standing_wakeListeners]
    exact .rest

end Server

end HotSwap

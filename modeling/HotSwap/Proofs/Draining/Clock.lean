import HotSwap.Server.Step

/-!
# Time

Time passes by one action and no other, however calls go on.
-/

namespace HotSwap.Server

variable (s : Server) (c : CallId)

@[simp] theorem now_log (level : Level) (text : String) : (s.log level text).now = s.now := rfl

@[simp] theorem now_note (n : Note) : (s.note n).now = s.now := rfl

@[simp] theorem now_proceedTo (a : Activity) : (s.proceedTo c a).now = s.now := rfl

@[simp] theorem now_setTurnstile (g : Gate) (t : Turnstile) :
    (s.setTurnstile g t).now = s.now := rfl

@[simp] theorem now_updateChannel (id : ChannelId) (f : Channel → Channel) :
    (s.updateChannel id f).now = s.now := rfl

@[simp] theorem now_swap (i : Installation) : (s.swap i).now = s.now := rfl

@[simp] theorem now_wake : (s.wake c).now = s.now := by
  unfold wake
  split <;> rfl

@[simp] theorem now_wakeAll (cs : List CallId) : (s.wakeAll cs).now = s.now := by
  induction cs generalizing s with
  | nil => rfl
  | cons c cs inductionHypothesis => exact (inductionHypothesis (s.wake c)).trans (s.now_wake c)

@[simp] theorem now_wakeListeners (source : Source) : (s.wakeListeners source).now = s.now :=
  s.now_wakeAll _

@[simp] theorem now_begin (a : Activity) : (s.begin a).now = s.now := by
  simp [begin]

@[simp] theorem now_leaveGuard : (s.leaveGuard c).now = s.now := by
  unfold leaveGuard
  split
  · simp
  · rfl

@[simp] theorem now_leaveGate (g : Gate) : (s.leaveGate c g).now = s.now := by
  unfold leaveGate
  simp only
  split
  · simp
  · split <;> rfl

@[simp] theorem now_close (source : Source) : (s.close source).now = s.now := by
  cases source <;> rfl

@[simp] theorem now_stopListening (a : Activity) : (s.stopListening a).now = s.now := by
  cases a with
  | listener source => exact s.now_close source
  | _ => rfl

@[simp] theorem now_finish (x : Answer) : (s.finish c x).now = s.now :=
  s.now_leaveGuard c

@[simp] theorem now_respond (r : Http.Request) (response : Http.Response) :
    (s.respond c r response).now = s.now :=
  s.now_finish c _

@[simp] theorem now_announce (o : Origin) : (s.announce o).now = s.now := by
  cases o <;> rfl

@[simp] theorem now_conclude (o : Origin) (result : Except ReloadError Report) :
    (s.conclude c o result).now = s.now := by
  cases o with
  | http r =>
    simp only [conclude, now_respond]
    split <;> simp
  | _ => simp [conclude]

@[simp] theorem now_logQuery (input : Graphql.Request) : (s.logQuery input).now = s.now := by
  unfold logQuery
  split <;> rfl

@[simp] theorem now_logOutcome (o : Outcome) : (s.logOutcome o).now = s.now := by
  cases o <;> rfl

@[simp] theorem now_produce (k : Nat) (recipe : Recipe) (engine : Engine) :
    (s.produce k recipe engine).1.now = s.now := by
  unfold produce
  split
  · split <;> rfl
  · rfl

@[simp] theorem now_retireStep (r : Retirement) : (s.retireStep c r).1.now = s.now := by
  unfold retireStep
  split
  · unfold poll
    split
    · split
      · simp
      · rfl
    · rfl
  · rfl
  · rfl
  · unfold released
    split <;> rfl

theorem now_advanceRetirement (r : Retirement) (K : Retirement → Activity)
    {ended : Server → Server} (still : ∀ t : Server, (ended t).now = t.now) :
    (s.advanceRetirement c r K ended).now = s.now := by
  have stepped := s.now_retireStep c r
  unfold advanceRetirement
  split
  · next t r' same => rw [now_proceedTo, ← stepped, same]
  · next t same => rw [still, ← stepped, same]
  · next t p same => rw [now_finish, ← stepped, same]

theorem now_reloadStep (o : Origin) (stage : Reload.Stage) :
    (s.reloadStep c o stage).now = s.now := by
  cases stage with
  | arriving =>
    simp only [reloadStep, reloadArriving]
    split <;> simp
  | numbered | constructed | completing | failing =>
    simp [reloadStep, reloadNumbered, reloadConstructed, reloadCompleting, reloadFailing]
  | building a =>
    simp only [reloadStep, reloadBuilding]
    split <;> simp
  | asking a p k recipe =>
    simp only [reloadStep, reloadAsking]
    split <;> simp
  | installing a p product =>
    simp only [reloadStep, reloadInstalling]
    split <;> simp
  | retiring a p r => exact s.now_advanceRetirement c r _ fun t => now_proceedTo t c _

theorem now_shutdownStep (stage : Shutdown.Stage) : (s.shutdownStep c stage).now = s.now := by
  cases stage with
  | arriving => rfl
  | queued =>
    simp only [shutdownStep, takeDown]
    split <;> simp
  | retiring r => exact s.now_advanceRetirement c r _ fun t => now_finish t c .done

theorem now_requestStep (r : Http.Request) : (s.requestStep c r).now = s.now := by
  unfold requestStep
  split
  · simp only [now_respond]
    split <;> simp
  · rfl
  · rfl
  · rfl

theorem now_queryStep (r : Http.Request) (stage : Query.Stage) :
    (s.queryStep c r stage).now = s.now := by
  cases stage with
  | arriving body =>
    simp only [queryStep, queryArriving]
    split <;> simp
  | parsed input =>
    simp only [queryStep, queryParsed]
    split <;> simp
  | holding i input => rfl
  | executing i input => simp [queryStep]

theorem now_listenStep (source : Source) : (s.listenStep c source).now = s.now := by
  cases source with
  | nothing | hangup => simp [listenStep]
  | channel id =>
    simp only [listenStep, receive]
    split
    · simp
    · split <;> simp

theorem now_act (a : Activity) : (s.act c a).now = s.now := by
  cases a with
  | reload o stage => exact s.now_reloadStep c o stage
  | shutdown stage => exact s.now_shutdownStep c stage
  | request r => exact s.now_requestStep c r
  | query r stage => exact s.now_queryStep c r stage
  | status | execution => rfl
  | statusOf | executing => simp [act]
  | retirement r => exact s.now_advanceRetirement c r _ fun t => now_finish t c .done
  | listener source => exact s.now_listenStep c source

/-- How much time passes by an action. -/
def Action.duration : Action → Nat
  | .elapse ms => ms
  | _ => 0

theorem now_step (act : Action) : (s.step act).now = s.now + act.duration := by
  cases act with
  | proceed c =>
    simp only [step, proceed]
    split
    · rfl
    · split
      · split
        · rfl
        · exact s.now_act c _
      · split
        · exact now_act _ c _
        · rfl
  | cancel c =>
    simp only [step, cancel]
    split
    · rfl
    · simp only [now_finish, now_stopListening]
      split <;> simp [Action.duration]
  | elapse ms => simp [step, elapse, Action.duration]
  | demand d =>
    simp only [step, demand]
    split <;> simp [Action.duration]
  | permit g n => simp [step, permit, Action.duration]
  | keep name =>
    simp only [step, keep]
    split <;> rfl
  | send id =>
    simp only [step, send]
    split <;> simp [Action.duration]
  | dropSender | hangUp => simp [step, dropSender, hangUp, Action.duration]
  | dropReceiver =>
    simp only [step, dropReceiver]
    split <;> simp [Action.duration]
  | letGo | openChannel | addSender => rfl

theorem now_le_run (actions : List Action) : s.now ≤ (s.run actions).now := by
  induction actions generalizing s with
  | nil => exact Nat.le_refl _
  | cons act rest inductionHypothesis =>
    have passes : s.now ≤ (s.step act).now := by
      rw [now_step]
      exact Nat.le_add_right _ _
    exact Nat.le_trans passes (inductionHypothesis (s.step act))

end HotSwap.Server

import HotSwap.Proofs.Standing.Step

/-!
# What goes through a channel

Requests for reloads queue in a channel until a listener begins a reload for each of them. Only its
senders and its listeners touch a channel, and no one else begins reloads in its name.
-/

namespace HotSwap

/-- The channel through which a reload was requested. -/
def Activity.channel? : Activity → Option ChannelId
  | .reload (.trigger _ id) _ => id
  | _ => none

def Activity.source? : Activity → Option Source
  | .listener source => some source
  | _ => none

/-- The call that begins for a request through the channel. -/
def Note.served? (id : ChannelId) : Note → Option CallId
  | .called c a => if a.channel? = some id then some c else none
  | _ => none

/-- Senders and requests as they are, with no one to receive what is sent. -/
def Channel.closed (ch : Channel) : Channel := { ch with pending := 0, received := false }

/-- A channel, and what came of the requests that went through it. -/
structure Traffic where
  channel : Option Channel
  served : List CallId

namespace Server

variable (s : Server) (id : ChannelId) (c : CallId)

/-- The reloads that began for requests through the channel, the latest first. -/
def served : List CallId := s.journal.filterMap (Note.served? id)

def traffic : Traffic := ⟨s.channel? id, s.served id⟩

/-! What leaves the traffic as it is. -/

@[simp] theorem traffic_log (level : Level) (text : String) :
    (s.log level text).traffic id = s.traffic id := rfl

@[simp] theorem traffic_proceedTo (a : Activity) :
    (s.proceedTo c a).traffic id = s.traffic id := rfl

@[simp] theorem traffic_setTurnstile (g : Gate) (t : Turnstile) :
    (s.setTurnstile g t).traffic id = s.traffic id := rfl

theorem traffic_note {n : Note} (unserved : n.served? id = none) :
    (s.note n).traffic id = s.traffic id := by
  simp only [traffic, served, note, List.filterMap_cons_none unserved]
  rfl

@[simp] theorem traffic_swap (i : Installation) : (s.swap i).traffic id = s.traffic id := rfl

@[simp] theorem traffic_wake : (s.wake c).traffic id = s.traffic id := by
  unfold wake
  split <;> rfl

@[simp] theorem traffic_wakeAll (cs : List CallId) : (s.wakeAll cs).traffic id = s.traffic id := by
  induction cs generalizing s with
  | nil => rfl
  | cons c cs inductionHypothesis =>
    exact (inductionHypothesis (s.wake c)).trans (s.traffic_wake id c)

@[simp] theorem traffic_wakeListeners (source : Source) :
    (s.wakeListeners source).traffic id = s.traffic id := s.traffic_wakeAll id _

theorem traffic_begin {a : Activity} (other : a.channel? ≠ some id) :
    (s.begin a).traffic id = s.traffic id := by
  simp only [begin, traffic_wake]
  exact traffic_note _ id (if_neg other)

/-- A reload that begins for a request through the channel. -/
theorem traffic_begin_own {a : Activity} (own : a.channel? = some id) :
    (s.begin a).traffic id = ⟨s.channel? id, s.fresh :: s.served id⟩ := by
  simp only [begin, traffic_wake]
  simp only [traffic, served, note]
  have asked : Note.served? id (.called s.fresh a) = some s.fresh := if_pos own
  rw [List.filterMap_cons_some asked]
  rfl

@[simp] theorem traffic_leaveGuard : (s.leaveGuard c).traffic id = s.traffic id := by
  unfold leaveGuard
  split
  · exact traffic_wakeAll _ id _
  · rfl

@[simp] theorem traffic_leaveGate (g : Gate) : (s.leaveGate c g).traffic id = s.traffic id := by
  unfold leaveGate
  simp only
  split
  · simp
  · split <;> rfl

@[simp] theorem traffic_finish (x : Answer) : (s.finish c x).traffic id = s.traffic id :=
  s.traffic_leaveGuard id c

@[simp] theorem traffic_respond (r : Http.Request) (response : Http.Response) :
    (s.respond c r response).traffic id = s.traffic id :=
  s.traffic_finish id c _

@[simp] theorem traffic_announce (o : Origin) : (s.announce o).traffic id = s.traffic id := by
  cases o <;> rfl

@[simp] theorem traffic_conclude (o : Origin) (result : Except ReloadError Report) :
    (s.conclude c o result).traffic id = s.traffic id := by
  have noted : (s.note (.returned c result)).traffic id = s.traffic id := s.traffic_note id rfl
  cases o with
  | http r =>
    simp only [conclude, traffic_respond]
    split <;> simp [noted]
  | _ => simp [conclude, noted]

@[simp] theorem traffic_logQuery (input : Graphql.Request) :
    (s.logQuery input).traffic id = s.traffic id := by
  unfold logQuery
  split <;> rfl

@[simp] theorem traffic_logOutcome (o : Outcome) : (s.logOutcome o).traffic id = s.traffic id := by
  cases o <;> rfl

@[simp] theorem traffic_produce (k : Nat) (recipe : Recipe) (engine : Engine) :
    (s.produce k recipe engine).1.traffic id = s.traffic id := by
  unfold produce
  split
  · split <;> rfl
  · rfl

@[simp] theorem traffic_retireStep (r : Retirement) :
    (s.retireStep c r).1.traffic id = s.traffic id := by
  unfold retireStep
  split
  · unfold poll
    split
    · split
      · exact traffic_begin _ id (by simp [Activity.channel?])
      · rfl
    · rfl
  · rfl
  · rfl
  · unfold released
    split <;> rfl

theorem traffic_advanceRetirement (r : Retirement) (K : Retirement → Activity)
    {ended : Server → Server} (still : ∀ t : Server, (ended t).traffic id = t.traffic id) :
    (s.advanceRetirement c r K ended).traffic id = s.traffic id := by
  have stepped := s.traffic_retireStep id c r
  unfold advanceRetirement
  split
  · next t r' same => rw [traffic_proceedTo, ← stepped, same]
  · next t same => rw [still, ← stepped, same]
  · next t p same => rw [traffic_finish, ← stepped, same]

theorem unserved_discovery (r : Registry) (context : Context) (earlier : Constructed) :
    (Discovery.run r context c earlier).notes.filterMap (Note.served? id) = [] := by
  have looked : (Discovery.looked r).filterMap (Note.served? id) = [] := by
    simp [Discovery.looked, Discovery.scanned, Note.served?]
  unfold Discovery.run
  split
  · exact looked
  · simp [looked, Note.served?]

theorem traffic_reloadBuilding (o : Origin) (a : Attempt) :
    (s.reloadBuilding c o a).traffic id = s.traffic id := by
  have found (k : Constructed) : Server.traffic
      { s with constructed := k, journal := (s.discover c a).notes.reverse ++ s.journal } id =
        s.traffic id := by
    have silent : (s.discover c a).notes.filterMap (Note.served? id) = [] :=
      unserved_discovery id c _ _ _
    simp only [traffic, served, List.filterMap_append, List.filterMap_reverse, silent]
    rfl
  simp only [reloadBuilding]
  split <;> simp [found]

theorem traffic_reloadStep (o : Origin) (stage : Reload.Stage) :
    (s.reloadStep c o stage).traffic id = s.traffic id := by
  cases stage with
  | arriving =>
    simp only [reloadStep, reloadArriving]
    split
    · simp
    · exact (traffic_note _ id rfl).trans (s.traffic_announce id o)
  | numbered | constructed => rfl
  | completing | failing =>
    simp only [reloadStep, reloadCompleting, reloadFailing, traffic_conclude]
    rfl
  | building a => exact s.traffic_reloadBuilding id c o a
  | asking a p k recipe =>
    simp only [reloadStep, reloadAsking]
    split <;> simp
  | installing a p product =>
    simp only [reloadStep, reloadInstalling]
    split <;> simp
  | retiring a p r => exact s.traffic_advanceRetirement id c r _ fun t => t.traffic_proceedTo id c _

theorem traffic_shutdownStep (stage : Shutdown.Stage) :
    (s.shutdownStep c stage).traffic id = s.traffic id := by
  cases stage with
  | arriving => rfl
  | queued =>
    simp only [shutdownStep, takeDown]
    split
    · simp
    · rfl
  | retiring r => exact s.traffic_advanceRetirement id c r _ fun t => t.traffic_finish id c .done

theorem traffic_requestStep (r : Http.Request) :
    (s.requestStep c r).traffic id = s.traffic id := by
  unfold requestStep
  split
  · simp only [traffic_respond]
    split <;> simp
  · rfl
  · rfl
  · rfl

theorem traffic_queryStep (r : Http.Request) (stage : Query.Stage) :
    (s.queryStep c r stage).traffic id = s.traffic id := by
  cases stage with
  | arriving body =>
    simp only [queryStep, queryArriving]
    split <;> simp
  | parsed input =>
    simp only [queryStep, queryParsed]
    split <;> simp
  | holding i input => rfl
  | executing i input => simp [queryStep]

/-! What the channels are about. -/

theorem lookup_map {α : Type} (f : α → α) (id j : ChannelId) (l : List (ChannelId × α)) :
    (l.map fun e => if e.1 = j then (j, f e.2) else e).lookup id =
      if j = id then (l.lookup id).map f else l.lookup id := by
  induction l with
  | nil => simp
  | cons e l inductionHypothesis =>
    obtain ⟨i, x⟩ := e
    by_cases sought : id = i
    · subst sought
      by_cases here : id = j
      · simp [here]
      · simp [here, Ne.symm here]
    · have passes (y : α) (rest : List (ChannelId × α)) :
          ((i, y) :: rest).lookup id = rest.lookup id := by
        rw [List.lookup_cons, beq_false_of_ne sought]
      by_cases here : i = j
      · subst here
        simp [passes, inductionHypothesis]
      · simp [here, passes, inductionHypothesis]

theorem channel?_updateChannel (j : ChannelId) (f : Channel → Channel) :
    (s.updateChannel j f).channel? id =
      if j = id then (s.channel? id).map f else s.channel? id :=
  lookup_map f id j s.channels

theorem traffic_updateChannel (f : Channel → Channel) :
    (s.updateChannel id f).traffic id = ⟨(s.channel? id).map f, s.served id⟩ := by
  simp only [traffic, channel?_updateChannel, if_pos]
  rfl

theorem traffic_updateChannel_of_ne {j : ChannelId} (other : j ≠ id) (f : Channel → Channel) :
    (s.updateChannel j f).traffic id = s.traffic id := by
  simp only [traffic, channel?_updateChannel, if_neg other]
  rfl

theorem channel?_openChannel :
    s.openChannel.channel? id =
      (s.channel? id).or (if s.fresh = id then some ⟨0, 1, true⟩ else none) := by
  change (s.channels.concat (s.fresh, ⟨0, 1, true⟩)).lookup id = _
  rw [List.concat_eq_append, List.lookup_append]
  by_cases new : s.fresh = id
  · simp [new, channel?]
  · have passes : [(s.fresh, (⟨0, 1, true⟩ : Channel))].lookup id = none := by
      rw [List.lookup_cons, beq_false_of_ne (Ne.symm new)]
      rfl
    rw [passes, if_neg new]
    rfl

theorem traffic_openChannel (unknown : s.channel? s.fresh = none) :
    s.openChannel.traffic s.fresh = ⟨some ⟨0, 1, true⟩, s.served s.fresh⟩ := by
  simp only [traffic, channel?_openChannel, unknown, if_pos]
  rfl

theorem traffic_openChannel_of_some {ch : Channel} (there : s.channel? id = some ch) :
    s.openChannel.traffic id = s.traffic id := by
  simp only [traffic, channel?_openChannel, there]
  rfl

theorem traffic_openChannel_of_ne (other : s.fresh ≠ id) :
    s.openChannel.traffic id = s.traffic id := by
  simp only [traffic, channel?_openChannel, if_neg other, Option.or_none]
  rfl

/-- Nothing that was sent waits in a channel that was closed. -/
theorem traffic_close_own :
    (s.close (.channel id)).traffic id = ⟨(s.channel? id).map Channel.closed, s.served id⟩ :=
  s.traffic_updateChannel id _

theorem traffic_close {source : Source} (other : source ≠ .channel id) :
    (s.close source).traffic id = s.traffic id := by
  cases source with
  | nothing | hangup => rfl
  | channel j => exact s.traffic_updateChannel_of_ne id (fun same => other (congrArg _ same)) _

theorem traffic_stopListening {a : Activity} (other : a ≠ .listener (.channel id)) :
    (s.stopListening a).traffic id = s.traffic id := by
  cases a with
  | listener source => exact s.traffic_close id fun same => other (congrArg _ same)
  | _ => rfl

theorem traffic_listenStep {source : Source} (other : source ≠ .channel id) :
    (s.listenStep c source).traffic id = s.traffic id := by
  cases source with
  | nothing => exact s.traffic_finish id c .done
  | hangup => exact traffic_begin _ id (by simp [Activity.channel?])
  | channel j =>
    have apart : j ≠ id := fun same => other (congrArg _ same)
    simp only [listenStep, receive]
    split
    · exact s.traffic_finish id c .done
    · split
      · rw [traffic_begin _ id (by simpa [Activity.channel?] using apart)]
        exact s.traffic_updateChannel_of_ne id apart _
      · rw [traffic_finish]
        exact s.traffic_close id other

theorem traffic_act {a : Activity} (other : a ≠ .listener (.channel id)) :
    (s.act c a).traffic id = s.traffic id := by
  cases a with
  | reload o stage => exact s.traffic_reloadStep id c o stage
  | shutdown stage => exact s.traffic_shutdownStep id c stage
  | request r => exact s.traffic_requestStep id c r
  | query r stage => exact s.traffic_queryStep id c r stage
  | status | execution => rfl
  | statusOf | executing => simp [act]
  | retirement r => exact s.traffic_advanceRetirement id c r _ fun t => t.traffic_finish id c .done
  | listener source => exact s.traffic_listenStep id c fun same => other (congrArg _ same)

end Server

end HotSwap

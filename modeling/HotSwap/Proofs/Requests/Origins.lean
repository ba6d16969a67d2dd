import HotSwap.Proofs.Requests.Effects

/-!
# Sharing across origins

Sharing across origins shows in headers, and in the responses to requests for options. A veil hides
both. Whatever a server does shows under the veil as what the server under the veil does, so that
two servers look alike under it that differ in nothing but sharing.
-/

namespace HotSwap

namespace Answer

/-- The answer without the headers of a response, of which nothing is left if it is hidden. -/
def veiled (hidden : Bool) : Answer → Answer
  | response x => if hidden then response ⟨0, [], []⟩ else response { x with headers := [] }
  | x => x

variable (hidden : Bool)

/-- Sharing across origins adds headers and nothing else. -/
theorem veiled_dress (cors cors' : Bool) (r : Http.Request) (x : Http.Response) :
    (response (r.dress cors x)).veiled hidden = (response (r.dress cors' x)).veiled hidden := by
  have same (cors : Bool) : { r.dress cors x with headers := [] } =
      { r.dress false x with headers := [] } := by
    unfold Http.Request.dress
    split <;> cases cors <;> rfl
  cases hidden with
  | true => rfl
  | false => exact congrArg response ((same cors).trans (same cors').symm)

end Answer

/-- The note with its answer veiled. -/
def Note.veiled (hidden : CallId → Bool) : Note → Note
  | .ended c x => .ended c (x.veiled (hidden c))
  | n => n

def Setup.withCors (setup : Setup) (cors : Bool) : Setup := { setup with cors := cors }

namespace Server

/-- The server without sharing across origins, and with answers veiled. -/
def veil (hidden : CallId → Bool) (s : Server) : Server :=
  { s with
    setup := s.setup.withCors false
    answers := s.answers.map fun e => (e.1, e.2.veiled (hidden e.1))
    journal := s.journal.map (Note.veiled hidden) }

/-- The two look alike under the veil. -/
def Like (hidden : CallId → Bool) (s t : Server) : Prop := s.veil hidden = t.veil hidden

variable {hidden : CallId → Bool} {s t : Server} {c : CallId} {r : Http.Request}

/-! What goes on under the veil as it does without. -/

theorem veil_wake (s : Server) (c : CallId) : (s.wake c).veil hidden = (s.veil hidden).wake c :=
  apply_ite _ _ _ _

theorem veil_wakeAll (s : Server) (cs : List CallId) :
    (s.wakeAll cs).veil hidden = (s.veil hidden).wakeAll cs := by
  induction cs generalizing s with
  | nil => rfl
  | cons c cs inductionHypothesis =>
    exact (inductionHypothesis (s.wake c)).trans (congrArg (wakeAll · cs) (s.veil_wake c))

theorem veil_leaveGuard (s : Server) (c : CallId) :
    (s.leaveGuard c).veil hidden = (s.veil hidden).leaveGuard c := by
  refine (apply_ite _ _ _ _).trans ?_
  rw [veil_wakeAll]
  rfl

theorem veil_leaveGate (s : Server) (c : CallId) (g : Gate) :
    (s.leaveGate c g).veil hidden = (s.veil hidden).leaveGate c g := by
  refine (apply_ite _ _ _ _).trans ?_
  rw [veil_wakeAll, apply_ite (veil hidden)]
  rfl

theorem veil_stopListening (s : Server) (a : Activity) :
    (s.stopListening a).veil hidden = (s.veil hidden).stopListening a := by
  cases a with
  | listener source => cases source <;> rfl
  | _ => rfl

theorem veil_keep (s : Server) (name : String) :
    (s.keep name).veil hidden = (s.veil hidden).keep name := by
  unfold keep
  rw [show (s.veil hidden).slot = s.slot from rfl]
  split <;> rfl

theorem veil_send (s : Server) (id : ChannelId) :
    (s.send id).veil hidden = (s.veil hidden).send id := by
  refine (apply_ite _ _ _ _).trans ?_
  unfold wakeListeners
  rw [veil_wakeAll]
  rfl

theorem veil_dropReceiver (s : Server) (id : ChannelId) :
    (s.dropReceiver id).veil hidden = (s.veil hidden).dropReceiver id :=
  apply_ite _ _ _ _

/-- Whoever ends a call gives an answer, which is veiled. -/
theorem veil_finish (s : Server) (c : CallId) (x : Answer) :
    (s.finish c x).veil hidden = (s.veil hidden).finish c (x.veiled (hidden c)) := by
  have left : (s.leaveGuard c).veil hidden = (s.veil hidden).leaveGuard c := veil_leaveGuard s c
  simp only [finish, ← left]
  rfl

namespace Like

variable (like : s.Like hidden t)
include like

/-- What two servers do that look alike looks alike if it goes on under the veil. -/
theorem map {f : Server → Server} (shows : ∀ u, (f u).veil hidden = f (u.veil hidden)) :
    (f s).Like hidden (f t) :=
  (shows s).trans ((congrArg f like).trans (shows t).symm)

theorem log (level : Level) (text : String) : (s.log level text).Like hidden (t.log level text) :=
  like.map (f := fun u => u.log level text) fun _ => rfl

theorem note (n : Note) : (s.note n).Like hidden (t.note n) :=
  congrArg (fun u : Server => u.note (n.veiled hidden)) like

theorem proceedTo (c : CallId) (a : Activity) :
    (s.proceedTo c a).Like hidden (t.proceedTo c a) :=
  like.map (f := fun u => u.proceedTo c a) fun _ => rfl

theorem begin (a : Activity) : (s.begin a).Like hidden (t.begin a) :=
  like.map (f := fun u => u.begin a) fun _ => veil_wake _ _

theorem announce (o : Origin) : (s.announce o).Like hidden (t.announce o) := by
  cases o with
  | startup | http => exact like.log _ _
  | _ => exact like

theorem finish {x y : Answer} (same : x.veiled (hidden c) = y.veiled (hidden c)) :
    (s.finish c x).Like hidden (t.finish c y) := by
  unfold Like
  rw [veil_finish, veil_finish, same, like]

theorem respond (c : CallId) (r : Http.Request) (x : Http.Response) :
    (s.respond c r x).Like hidden (t.respond c r x) :=
  like.finish (Answer.veiled_dress _ _ _ _ _)

/-! What a server decides by is the same for the two. -/

theorem slot : t.slot = s.slot := (congrArg Server.slot like).symm

theorem guard : t.guard = s.guard := (congrArg Server.guard like).symm

theorem activity? (c : CallId) : t.activity? c = s.activity? c :=
  (congrArg (fun u => u.activity? c) like).symm

theorem discover (c : CallId) (a : Attempt) : t.discover c a = s.discover c a :=
  (congrArg (fun u => u.discover c a) like).symm

/-! Reloads -/

theorem conclude (c : CallId) (o : Origin) (result : Except ReloadError Report) :
    (s.conclude c o result).Like hidden (t.conclude c o result) := by
  have returned := like.note (.returned c result)
  cases o with
  | http r =>
    cases result with
    | ok => exact returned.respond c r _
    | error e =>
      cases e with
      | alreadyInProgress => exact returned.respond c r _
      | _ => exact (returned.log _ _).respond c r _
  | trigger => exact (returned.log _ _).finish rfl
  | _ => exact returned.finish rfl

theorem reloadArriving (c : CallId) (o : Origin) :
    (s.reloadArriving c o).Like hidden (t.reloadArriving c o) := by
  have told := like.announce o
  cases enters : (s.announce o).guard.enter? c with
  | none =>
    simp only [Server.reloadArriving, told.guard, enters]
    exact (told.log _ _).conclude c o _
  | some g =>
    simp only [Server.reloadArriving, told.guard, enters]
    exact told.map (f := fun u =>
      ({ u with guard := g, nextGeneration := u.nextGeneration + 1 }.note
        (.begun c u.nextGeneration)).proceedTo c
          (.reload o (.numbered ⟨u.nextGeneration, u.now⟩))) fun _ => rfl

/-- What a discovery notes is no answer, and so is not veiled. -/
theorem noted (ns : List Note) (constructed : Constructed) :
    ({ s with constructed := constructed, journal := ns ++ s.journal } : Server).Like hidden
      { t with constructed := constructed, journal := ns ++ t.journal } := by
  have shows (u : Server) :
      ({ u with constructed := constructed, journal := ns ++ u.journal } : Server).veil hidden =
        { u.veil hidden with
          constructed := constructed
          journal := ns.map (Note.veiled hidden) ++ (u.veil hidden).journal } := by
    simp [veil]
  exact (shows s).trans ((congrArg (fun u : Server =>
    { u with
      constructed := constructed
      journal := ns.map (Note.veiled hidden) ++ u.journal }) like).trans (shows t).symm)

theorem reloadBuilding (c : CallId) (o : Origin) (attempt : Attempt) :
    (s.reloadBuilding c o attempt).Like hidden (t.reloadBuilding c o attempt) := by
  have found := like.noted (s.discover c attempt).notes.reverse (s.discover c attempt).constructed
  simp only [Server.reloadBuilding, like.discover]
  cases (s.discover c attempt).found with
  | provider => exact found.proceedTo c _
  | failure => exact found.proceedTo c _
  | panic => exact found.finish rfl

theorem produce (k : Nat) (recipe : Recipe) (engine : Engine) :
    (s.produce k recipe engine).1.Like hidden (t.produce k recipe engine).1 ∧
      (t.produce k recipe engine).2 = (s.produce k recipe engine).2 := by
  have shared : t.shared = s.shared := (congrArg Server.shared like).symm
  have fresh : t.fresh = s.fresh := (congrArg Server.fresh like).symm
  unfold Server.produce
  rw [shared, fresh]
  split
  · split
    · exact ⟨like, rfl⟩
    · next product =>
      exact ⟨like.map (f := fun u => { u with
        fresh := s.fresh + 1
        shared := (k, ⟨s.fresh, engine⟩) :: s.shared }) fun _ => rfl, rfl⟩
  · exact ⟨like.map (f := fun u => { u with
      fresh := s.fresh + 1
      shared := s.shared }) fun _ => rfl, rfl⟩

theorem reloadAsking (c : CallId) (o : Origin) (attempt : Attempt) (provider : String) (k : Nat)
    (recipe : Recipe) :
    (s.reloadAsking c o attempt provider k recipe).Like hidden
      (t.reloadAsking c o attempt provider k recipe) := by
  cases made : recipe.engine with
  | made engine =>
    obtain ⟨produced, same⟩ := like.produce k recipe engine
    simp only [Server.reloadAsking, made, same]
    exact produced.proceedTo c _
  | failed e =>
    simp only [Server.reloadAsking, made]
    exact like.proceedTo c _
  | panic p =>
    simp only [Server.reloadAsking, made]
    exact like.finish rfl

theorem reloadInstalling (c : CallId) (o : Origin) (attempt : Attempt) (provider : String)
    (product : Product) :
    (s.reloadInstalling c o attempt provider product).Like hidden
      (t.reloadInstalling c o attempt provider product) := by
  have swapped := like.map (f := fun u => (u.swap (u.installation attempt provider product)).log
    .info ("✅ Engine from " ++ provider ++ " installed")) fun _ => rfl
  have retired (old : Installation) : t.retire old = s.retire old :=
    (congrArg (fun u => u.retire old) like).symm
  cases slot : s.slot with
  | none =>
    simp only [Server.reloadInstalling, like.slot, slot]
    exact swapped.proceedTo c _
  | some old =>
    simp only [Server.reloadInstalling, like.slot, slot, retired]
    exact swapped.proceedTo c _

/-! Retirements and shutdowns. -/

theorem poll (c : CallId) (retirement : Retirement) :
    (s.poll c retirement).1.Like hidden (t.poll c retirement).1 ∧
      (t.poll c retirement).2 = (s.poll c retirement).2 := by
  have inUse : t.InUse retirement.installation = s.InUse retirement.installation :=
    (congrArg (fun u => u.InUse retirement.installation) like).symm
  have now : t.now = s.now := (congrArg Server.now like).symm
  by_cases used : s.InUse retirement.installation
  · by_cases due : ∃ d ∈ retirement.deadline, d ≤ s.now
    · simp only [Server.poll, inUse, now, if_pos used, if_pos due, and_true]
      exact (like.log _ _).begin _
    · simp only [Server.poll, inUse, now, if_pos used, if_neg due]
      exact ⟨like.map (f := fun u => (u.sleep c retirement).1) fun _ => rfl,
        (congrArg (fun u => (u.sleep c retirement).2) like).symm⟩
  · simp only [Server.poll, inUse, if_neg used, and_true]
    exact like

theorem retireStep (c : CallId) (retirement : Retirement) :
    (s.retireStep c retirement).1.Like hidden (t.retireStep c retirement).1 ∧
      (t.retireStep c retirement).2 = (s.retireStep c retirement).2 := by
  obtain ⟨i, d, stage⟩ := retirement
  cases stage with
  | polling => exact like.poll c _
  | sleeping => exact ⟨like, rfl⟩
  | free => exact ⟨like.note _, rfl⟩
  | releasing =>
    simp only [Server.retireStep, released]
    cases i.engine.release with
    | released => exact ⟨(like.note _).log _ _, rfl⟩
    | failed => exact ⟨(like.note _).log _ _, rfl⟩
    | panic => exact ⟨like, rfl⟩

theorem advanceRetirement (c : CallId) (retirement : Retirement) (K : Retirement → Activity)
    {ended : Server → Server}
    (ends : ∀ u v : Server, u.Like hidden v → (ended u).Like hidden (ended v)) :
    (s.advanceRetirement c retirement K ended).Like hidden
      (t.advanceRetirement c retirement K ended) := by
  obtain ⟨stepped, same⟩ := like.retireStep c retirement
  unfold Server.advanceRetirement
  generalize s.retireStep c retirement = x at stepped same
  generalize t.retireStep c retirement = y at stepped same
  obtain ⟨u, next⟩ := x
  obtain ⟨v, next'⟩ := y
  cases (same : next' = next)
  cases next with
  | going => exact stepped.proceedTo c _
  | panic => exact stepped.finish rfl
  | _ => exact ends u v stepped

theorem reloadStep (c : CallId) (o : Origin) (stage : Reload.Stage) :
    (s.reloadStep c o stage).Like hidden (t.reloadStep c o stage) := by
  cases stage with
  | arriving => exact like.reloadArriving c o
  | numbered a => exact like.map (f := fun u => u.reloadNumbered c o a) fun _ => rfl
  | building a => exact like.reloadBuilding c o a
  | constructed a p k recipe =>
    exact like.map (f := fun u => u.reloadConstructed c o a p k recipe) fun _ => rfl
  | asking a p k recipe => exact like.reloadAsking c o a p k recipe
  | installing a p product => exact like.reloadInstalling c o a p product
  | retiring a p retirement =>
    exact like.advanceRetirement c retirement _ fun u v there => there.proceedTo c _
  | completing a p previous =>
    have elapsed : t.now - a.started = s.now - a.started :=
      (congrArg (fun u => u.now - a.started) like).symm
    have succeeded := like.map (f := fun u =>
      { u with status := u.status.succeed u.clock a.generation }.log .info "Reload completed")
      fun _ => rfl
    simp only [Server.reloadStep, reloadCompleting, elapsed]
    exact succeeded.conclude c o _
  | failing a e =>
    have settled := like.map (f := fun u =>
      let told := u.log .error ("❌ Reload failed, keeping previous engine: " ++ e.message)
      { told with status := (told.status.fail told.clock e.message).settle }) fun _ => rfl
    exact settled.conclude c o _

theorem shutdownStep (c : CallId) (stage : Shutdown.Stage) :
    (s.shutdownStep c stage).Like hidden (t.shutdownStep c stage) := by
  cases stage with
  | arriving =>
    exact like.map (f := fun u =>
      { u with guard := u.guard.join c }.proceedTo c (.shutdown .queued)) fun _ => rfl
  | queued =>
    have retired (i : Installation) : t.retire i = s.retire i :=
      (congrArg (fun u => u.retire i) like).symm
    cases slot : s.slot with
    | none =>
      simp only [Server.shutdownStep, takeDown, like.slot, slot]
      exact like.finish rfl
    | some i =>
      have emptied := like.map (f := fun u => { u with slot := none }.note (.taken i)) fun _ => rfl
      simp only [Server.shutdownStep, takeDown, like.slot, slot, retired]
      exact (emptied.log _ _).proceedTo c _
  | retiring retirement =>
    exact like.advanceRetirement c retirement _ fun u v there => there.finish rfl

/-! Requests. -/

theorem queryStep (c : CallId) (r : Http.Request) (stage : Query.Stage) :
    (s.queryStep c r stage).Like hidden (t.queryStep c r stage) := by
  cases stage with
  | arriving body =>
    simp only [Server.queryStep, queryArriving]
    cases Graphql.Request.parse body with
    | error e => exact (like.log _ _).respond c r _
    | ok input => exact like.proceedTo c _
  | parsed input =>
    cases slot : s.slot with
    | none =>
      simp only [Server.queryStep, queryParsed, like.slot, slot]
      exact like.respond c r _
    | some i =>
      have told : (s.logQuery input).Like hidden (t.logQuery input) := by
        unfold logQuery
        split <;> exact like.log _ _
      simp only [Server.queryStep, queryParsed, like.slot, slot]
      exact told.proceedTo c _
  | holding i input => exact (like.note _).proceedTo c _
  | executing i input =>
    have told : (s.logOutcome (i.engine.execute input)).Like hidden
        (t.logOutcome (i.engine.execute input)) := by
      cases i.engine.execute input with
      | response => exact like
      | _ => exact like.log _ _
    exact told.respond c r _

/-- A request is routed the same way unless it is for options, and then only its response tells. -/
theorem requestStep (unseen : r.method = "OPTIONS" → hidden c = true) :
    (s.requestStep c r).Like hidden (t.requestStep c r) := by
  by_cases asks : r.method = "OPTIONS"
  · obtain ⟨x, planned⟩ := Http.Request.plan_options asks s.setup.cors
    obtain ⟨y, planned'⟩ := Http.Request.plan_options asks t.setup.cors
    simp only [Server.requestStep, planned, planned']
    exact like.finish (by simp [Answer.veiled, unseen asks])
  · simp only [Server.requestStep, Http.Request.plan_of_ne asks]
    cases r.planDirect with
    | respond x warning =>
      cases warning with
      | none => exact like.respond c r x
      | some text => exact (like.log _ _).respond c r x
    | query body => exact like.proceedTo c _
    | reload => exact like.proceedTo c _
    | status => exact like.proceedTo c _

/-! All calls, and all that can happen to them. -/

theorem listenStep (c : CallId) (source : Source) :
    (s.listenStep c source).Like hidden (t.listenStep c source) := by
  cases source with
  | nothing => exact like.finish rfl
  | channel id =>
    have channel : t.channel? id = s.channel? id := (congrArg (fun u => u.channel? id) like).symm
    simp only [Server.listenStep, receive, channel]
    cases s.channel? id with
    | none => exact like.finish rfl
    | some ch =>
      simp only
      split
      · have taken := like.map (f := fun u => u.updateChannel id fun ch =>
          { ch with pending := ch.pending - 1 }) fun _ => rfl
        exact taken.begin _
      · have closed := like.map (f := fun u => u.close (.channel id)) fun _ => rfl
        exact closed.finish rfl
  | hangup =>
    have heard := like.map (f := fun u => { u with hungUp := u.hungUp.erase c }) fun _ => rfl
    exact (heard.log _ _).begin _

theorem act (c : CallId) (a : Activity)
    (unseen : ∀ r, a = .request r → r.method = "OPTIONS" → hidden c = true) :
    (s.act c a).Like hidden (t.act c a) := by
  cases a with
  | reload o stage => exact like.reloadStep c o stage
  | shutdown stage => exact like.shutdownStep c stage
  | request r => exact like.requestStep (unseen r rfl)
  | query r stage => exact like.queryStep c r stage
  | status r => exact like.map (f := fun u => u.proceedTo c (.statusOf r u.slot)) fun _ => rfl
  | statusOf r current =>
    have told : t.statusJson current = s.statusJson current :=
      (congrArg (fun u => u.statusJson current) like).symm
    simp only [Server.act, told]
    exact like.respond c r _
  | execution i input => exact (like.note _).proceedTo c _
  | executing => exact like.finish rfl
  | retirement retirement =>
    exact like.advanceRetirement c retirement _ fun u v there => there.finish rfl
  | listener source => exact like.listenStep c source

/-- Who asks for options and has not been answered yet is not seen. -/
def Unseen (hidden : CallId → Bool) (s : Server) : Prop :=
  ∀ c r, s.activity? c = some (.request r) → r.method = "OPTIONS" → hidden c = true

theorem proceed (unseen : Unseen hidden s) (c : CallId) :
    (s.proceed c).Like hidden (t.proceed c) := by
  have active := like.activity? c
  unfold Server.proceed
  rw [active]
  cases known : s.activity? c with
  | none => exact like
  | some a =>
    have acts {u v : Server} (alike : u.Like hidden v) : (u.act c a).Like hidden (v.act c a) :=
      alike.act c a fun r asked => unseen c r (known.trans (congrArg some asked))
    simp only
    split
    · have waits : t.Waits c a = s.Waits c a := (congrArg (fun u => u.Waits c a) like).symm
      simp only [waits]
      split
      · exact like
      · exact acts like
    · next g gate =>
      have turnstile : t.turnstile g = s.turnstile g :=
        (congrArg (fun u => u.turnstile g) like).symm
      rw [turnstile]
      have turned (x : Turnstile) : (s.setTurnstile g x).Like hidden (t.setTurnstile g x) :=
        like.map (f := fun u => u.setTurnstile g x) fun _ => rfl
      split
      · exact acts (turned _)
      · exact turned _

theorem cancel (c : CallId) : (s.cancel c).Like hidden (t.cancel c) := by
  unfold Server.cancel
  rw [like.activity?]
  cases s.activity? c with
  | none => exact like
  | some a =>
    have stopped {u v : Server} (alike : u.Like hidden v) :
        ((u.stopListening a).finish c .cancelled).Like hidden
          ((v.stopListening a).finish c .cancelled) :=
      (alike.map (f := fun u => u.stopListening a) fun _ => veil_stopListening _ _).finish rfl
    simp only
    split
    · next g gate =>
      exact stopped (like.map (f := fun u => u.leaveGate c g) fun _ => veil_leaveGate _ _ _)
    · exact stopped like

theorem step (unseen : Unseen hidden s) (act : Action) :
    (s.step act).Like hidden (t.step act) := by
  cases act with
  | demand d =>
    have demanded : t.demanded? d = s.demanded? d := (congrArg (fun u => u.demanded? d) like).symm
    simp only [Server.step, demand, demanded]
    cases s.demanded? d with
    | none => exact like
    | some a => exact like.begin a
  | proceed c => exact like.proceed unseen c
  | cancel c => exact like.cancel c
  | elapse ms => exact like.map (f := fun u => u.elapse ms) fun _ => veil_wakeAll _ _
  | permit g n => exact like.map (f := fun u => u.permit g n) fun _ => veil_wakeAll _ _
  | keep name => exact like.map (f := fun u => u.keep name) fun _ => veil_keep _ _
  | letGo name => exact like.map (f := fun u => u.letGo name) fun _ => rfl
  | openChannel => exact like.map (f := fun u => u.openChannel) fun _ => rfl
  | send id => exact like.map (f := fun u => u.send id) fun _ => veil_send _ _
  | addSender id => exact like.map (f := fun u => u.addSender id) fun _ => rfl
  | dropSender id => exact like.map (f := fun u => u.dropSender id) fun _ => veil_wakeAll _ _
  | dropReceiver id =>
    exact like.map (f := fun u => u.dropReceiver id) fun _ => veil_dropReceiver _ _
  | hangUp => exact like.map (f := fun u => u.hangUp) fun _ => veil_wakeAll _ _

theorem run (actions : List Action) (unseen : ∀ early act late, actions = early ++ act :: late →
    Unseen hidden (s.run early)) : (s.run actions).Like hidden (t.run actions) := by
  induction actions using List.reverseRecOn with
  | nil => exact like
  | append_singleton early act inductionHypothesis =>
    rw [run_concat, run_concat]
    refine (inductionHypothesis fun first act' last split => ?_).step (unseen early act [] rfl) act
    exact unseen first act' (last ++ [act]) (by rw [split, List.append_assoc, List.cons_append])

end Like

theorem veil_answer? (s : Server) (c : CallId) :
    (s.veil hidden).answer? c = (s.answer? c).map (Answer.veiled (hidden c)) := by
  change (s.answers.map fun e => (e.1, e.2.veiled (hidden e.1))).lookup c =
    (s.answers.lookup c).map (Answer.veiled (hidden c))
  induction s.answers with
  | nil => rfl
  | cons e rest inductionHypothesis =>
    rw [List.map_cons, List.lookup_cons, List.lookup_cons, inductionHypothesis]
    by_cases same : c = e.1
    · subst same
      simp
    · simp [beq_false_of_ne same]

/-- Two servers do the same, and unless the request is for options its call gets the same answer, of
a response the same status and the same body. -/
structure Alike (s t : Server) (c : CallId) (r : Http.Request) : Prop where
  effects : s.Like (fun _ => true) t
  answer (other : r.method ≠ "OPTIONS") :
    (s.answer? c).map (Answer.veiled false) = (t.answer? c).map (Answer.veiled false)

/-- Two servers are alike if they differ in nothing but sharing across origins. -/
theorem alike_run (setup : Setup) (cors : Bool) (before actions : List Action) (r : Http.Request) :
    let s := (start setup).run before
    let t := s.step (.demand (.request r))
    let t' := ((start (setup.withCors cors)).run before).step (.demand (.request r))
    (t.run actions).Alike (t'.run actions) s.fresh r := by
  intro s t t'
  have begins (hidden : CallId → Bool) : (start setup).Like hidden (start (setup.withCors cors)) :=
    rfl
  constructor
  · have like : s.Like (fun _ => true) ((start (setup.withCors cors)).run before) :=
      (begins _).run before fun _ _ _ _ _ _ _ _ => rfl
    exact (like.step (fun _ _ _ _ => rfl) _).run actions fun _ _ _ _ _ _ _ _ => rfl
  · -- all answers are hidden but the one, whose call is never at a request for options
    intro other
    let hidden : CallId → Bool := fun d => d ≠ s.fresh
    have early {first last : List Action} (split : before = first ++ last) :
        Like.Unseen hidden ((start setup).run first) := by
      intro d q active _
      have known : d < ((start setup).run first).fresh :=
        (distinct_run setup first).lt_fresh _ (mem_calls_of_activity? active)
      have later : ((start setup).run first).fresh ≤ s.fresh := by
        rw [show s = ((start setup).run first).run last by rw [← run_append, ← split]]
        exact fresh_le_run _ _
      exact decide_eq_true (Nat.ne_of_lt (Nat.lt_of_lt_of_le known later))
    have late (first : List Action) : Like.Unseen hidden (t.run first) := by
      intro d q active asks
      refine decide_eq_true fun same => ?_
      have serving : (t.run first).Serving s.fresh r := serving_run setup before first r
      cases serving.serves _ (same ▸ mem_calls_of_activity? active)
      exact other asks
    have like : s.Like hidden ((start (setup.withCors cors)).run before) :=
      (begins hidden).run before fun first act last split => early split
    have asked := like.step (early (List.append_nil before).symm) (.demand (.request r))
    have answers := congrArg (fun u => u.answer? s.fresh)
      (asked.run actions fun first act last split => late first)
    have shown : hidden s.fresh = false := decide_eq_false fun differs => differs rfl
    rwa [veil_answer?, veil_answer?, shown] at answers

/-- Only what is posted to two paths has effects, and sharing across origins changes none. However
far the call of a request goes on, in whatever state and whatever else runs, it leaves the slot, the
status and the next generation as they are and has no provider constructed unless it was posted for
a reload, and has no engine execute anything unless it was posted as a query. With sharing, requests
for options only ever get their answer. With sharing or without, all goes the same, and all other
requests get the same answers but for headers. -/
theorem only_posts_have_effects (setup : Setup) (cors : Bool) (r : Http.Request)
    (before actions : List Action) :
    let s := (start setup).run before
    let t := s.step (.demand (.request r))
    let t' := ((start (setup.withCors cors)).run before).step (.demand (.request r))
    (s.Spared t ∧ ∀ d, t.executions d = s.executions d) ∧
      (t.run actions).Confined s.fresh r ∧ (t.run actions).Alike (t'.run actions) s.fresh r := by
  intro s t t'
  exact ⟨spared_demand s r, confined_run setup before actions r,
    alike_run setup cors before actions r⟩

/-! A request for options and a query come in while a reload drains an engine. -/

def askOptions : Http.Request := ⟨"OPTIONS", "/reload", []⟩

theorem askOptions_unposted (path : String) : ¬ askOptions.PostsTo path := fun posted =>
  absurd posted.1 (by decide)

theorem options_are_answered_while_draining :
    let setup := Setup.patient.withCors true
    let s := (start setup).run untilDrain
    let t := (s.step (.demand (.request askOptions))).run [.elapse 5]
    let own : List Action := [.proceed s.fresh, .cancel s.fresh]
    let q := (s.step (.demand (.request askGeneration))).run (proceeds 5 s.fresh)
    let q' := (((start (setup.withCors false)).run untilDrain).step
      (.demand (.request askGeneration))).run (proceeds 5 s.fresh)
    (t.Preflighted s.fresh askOptions ∧ t.Spared (t.run own) ∧
        (t.run own).executions s.fresh = t.executions s.fresh) ∧
      (q.answer? s.fresh).isSome ∧
        (q.answer? s.fresh).map (Answer.veiled false) =
          (q'.answer? s.fresh).map (Answer.veiled false) := by
  intro setup s t own q q'
  have asked := only_posts_have_effects setup false askOptions untilDrain [.elapse 5]
  have confined : t.Confined s.fresh askOptions := asked.2.1
  have same : t.setup = setup := setup_demanded setup untilDrain [.elapse 5] askOptions
  have shared : t.setup.cors = true := congrArg Setup.cors same
  have owns : Owns s.fresh own := fun act there => List.mem_pair.mp there
  have queried :=
    only_posts_have_effects setup false askGeneration untilDrain (proceeds 5 s.fresh)
  have alike : q.Alike q' s.fresh askGeneration := queried.2.2
  have answered : (q.answer? s.fresh).isSome := by decide +kernel
  exact ⟨⟨confined.options shared rfl, confined.reloads (askOptions_unposted _) own owns,
    confined.queries (askOptions_unposted _) own owns s.fresh⟩, answered, alike.answer (by decide)⟩

end Server

end HotSwap

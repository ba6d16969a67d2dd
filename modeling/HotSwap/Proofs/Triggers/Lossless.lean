import HotSwap.Proofs.Triggers.Reloads

/-!
# No request is lost

Requests may come from any number of senders and before anyone listens. As long as no listener is
cut off, each request that was accepted leads to one reload, and none that was not accepted does.
-/

namespace HotSwap.Server

open Standing

variable {s t : Server} {id : ChannelId} {ch : Channel} {l c : CallId} {act : Action}
  {actions : List Action}

/-- A listener that is let on often enough serves all requests, and goes on to listen. -/
theorem drain {n : Nat} (distinct : s.standing.Distinct) (there : s.channel? id = some ch)
    (pending : ch.pending = n) (active : s.activity? l = some (.listener (.channel id))) :
    ((s.run (proceeds n l)).served id).length = (s.served id).length + n ∧
      (s.run (proceeds n l)).waiting id = 0 ∧
        (s.run (proceeds n l)).activity? l = some (.listener (.channel id)) := by
  induction n generalizing s ch with
  | zero =>
    refine ⟨rfl, ?_, active⟩
    change ((s.channel? id).map Channel.pending).getD 0 = 0
    rw [there]
    exact pending
  | succ n inductionHypothesis =>
    have distinct' := distinct.move (s.move_step (.proceed l))
    have stays : (s.step (.proceed l)).activity? l = some (.listener (.channel id)) := by
      rcases listener_stays distinct there active (.proceed l) with stays | ⟨-, -, idle⟩ | cancels
      · exact stays
      · obtain ⟨other, same, served, -⟩ := idle
        cases there.symm.trans same
        omega
      · cases cancels
    have does := listens_proceed active there
    have unfolds : s.run (proceeds (n + 1) l) = (s.step (.proceed l)).run (proceeds n l) := rfl
    rw [unfolds]
    generalize s.step (.proceed l) = t at does distinct' stays ⊢
    cases does with
    | waits served => omega
    | ends served => omega
    | serves _ after =>
      have fewer : ch.pending - 1 = n := by omega
      obtain ⟨served, rest⟩ :=
        inductionHypothesis distinct' (channel?_traffic after) fewer stays
      refine ⟨?_, rest⟩
      rw [served, served_traffic after, List.length_cons]
      omega

/-- What has become of the requests that a channel accepted, and of who listens to it. -/
structure Delivers (t : Server) (id : ChannelId) (actions : List Action) : Prop where
  /-- No request is lost, and nothing else makes the trigger reload. -/
  accounted : ((t.run actions).served id).length + (t.run actions).waiting id =
    t.accepted id actions
  /-- Every request that was served has a call of its own. -/
  distinct : ((t.run actions).served id).Nodup
  called : ∀ c ∈ (t.run actions).served id,
    .called c (.reload (.trigger channelName (some id)) .arriving) ∈ (t.run actions).journal
  underway : ∀ c ∈ (t.run actions).served id, (t.run actions).sequel c = .underway →
    ∃ stage, (t.run actions).activity? c = some (.reload (.trigger channelName (some id)) stage)
  cutOff : ∀ c ∈ (t.run actions).served id, (t.run actions).sequel c = .cutOff →
    .cancel c ∈ actions
  /-- Once everything has run, all requests have come to an end. -/
  concluded : (t.run actions).waiting id = 0 →
    (∀ c ∈ (t.run actions).served id, (t.run actions).activity? c = none ∧ .cancel c ∉ actions) →
      (t.run actions).concluded id = t.accepted id actions
  refused : ¬ (t.run actions).Accepts id →
    (∃ l, t.LetsOn actions l (·.Idles id l)) ∧ (t.run actions).waiting id = 0
  listens : ∀ early late l, actions = early ++ late →
    (t.run early).activity? l = some (.listener (.channel id)) →
      (t.run actions).activity? l = some (.listener (.channel id)) ∨
        t.LetsOn actions l (·.Idles id l)
  drains : ∀ l, (t.run actions).activity? l = some (.listener (.channel id)) →
    let u := (t.run actions).run (proceeds ((t.run actions).waiting id) l)
    (u.served id).length = t.accepted id actions ∧ u.waiting id = 0

theorem Accounts.total {n : Nat} (accounts : s.Accounts id n) :
    (s.served id).length + s.waiting id = n := by
  obtain ⟨ch, there, total, -⟩ := accounts
  rw [waiting, there]
  exact total

theorem sequel_of_active {a : Activity} (active : s.activity? c = some a) :
    s.sequel c = .underway := by
  rw [sequel, active]

theorem sequel_of_answer {x : Answer} (stopped : s.activity? c = none)
    (answer : s.answer? c = some x) : s.sequel c = x.sequel := by
  rw [sequel, stopped, answer]
  rfl

theorem Follows.underway_of_sequel (follows : s.Follows id c) (goes : s.sequel c = .underway) :
    ∃ stage, s.activity? c = some (.reload (.trigger channelName (some id)) stage) := by
  cases follows with
  | underway active => exact ⟨_, active⟩
  | ended stopped answer finite =>
    rw [sequel_of_answer stopped answer] at goes
    exact absurd goes finite
  | cut stopped answer =>
    rw [sequel_of_answer stopped answer] at goes
    cases goes

theorem Follows.cut_of_sequel (follows : s.Follows id c) (went : s.sequel c = .cutOff) :
    s.answer? c = some .cancelled := by
  cases follows with
  | underway active =>
    rw [sequel_of_active active] at went
    cases went
  | ended stopped answer _ uncut =>
    rw [sequel_of_answer stopped answer] at went
    exact absurd went uncut
  | cut _ answer => exact answer

/-! ## Over every run -/

/-- Nothing has gone through a channel that was just opened. -/
theorem traffic_opened (setup : Setup) (before : List Action) :
    let s := (start setup).run before
    (s.step .openChannel).traffic s.fresh = ⟨some ⟨0, 1, true⟩, []⟩ := by
  intro s
  have unopened : s.traffic s.fresh = ⟨none, []⟩ := unopened_run setup before _ (Nat.le_refl _)
  exact (s.traffic_openChannel (channel?_traffic unopened)).trans
    (congrArg (Traffic.mk _) (served_traffic unopened))

theorem accounts_run (opened : t.traffic id = ⟨some ⟨0, 1, true⟩, []⟩)
    (heard : t.Heard id actions) : (t.run actions).Accounts id (t.accepted id actions) := by
  induction actions using List.reverseRecOn with
  | nil =>
    refine ⟨⟨0, 1, true⟩, channel?_traffic opened, ?_, fun _ => rfl⟩
    change (t.served id).length + 0 = 0
    rw [served_traffic opened]
    rfl
  | append_singleton actions act inductionHypothesis =>
    rw [run_concat, accepted_concat]
    exact (inductionHypothesis (heard_of_append heard)).step (heeds_of_heard heard)

theorem gone_run (opened : t.traffic id = ⟨some ⟨0, 1, true⟩, []⟩) (actions : List Action) :
    ∃ ch, (t.run actions).channel? id = some ch ∧ (ch.received = false → t.Gone id actions) := by
  induction actions using List.reverseRecOn with
  | nil => exact ⟨_, channel?_traffic opened, nofun⟩
  | append_singleton actions act inductionHypothesis => exact gone_step inductionHypothesis act

theorem not_cut_of_heard {early late : List Action} (heard : t.Heard id actions)
    (split : actions = early ++ .cancel l :: late) :
    (t.run early).activity? l ≠ some (.listener (.channel id)) := by
  intro active
  have heeds : (t.run early).Heeds id (.cancel l) := heeds_of_heard (split ▸ heard)
  have listens : ((t.run early).activity? l).bind Activity.source? = some (.channel id) :=
    congrArg (·.bind Activity.source?) active
  exact heeds listens

/-- As long as no one is cut off who listens, it takes a listener with nothing to do for requests to
be refused. -/
theorem refused_run (opened : t.traffic id = ⟨some ⟨0, 1, true⟩, []⟩) (heard : t.Heard id actions)
    (refused : ¬ (t.run actions).Accepts id) :
    (∃ l, t.LetsOn actions l (·.Idles id l)) ∧ (t.run actions).waiting id = 0 := by
  obtain ⟨ch, there, -, none⟩ := accounts_run opened heard
  obtain ⟨other, same, gone⟩ := gone_run opened actions
  cases there.symm.trans same
  have unheard : ch.received = false := by
    cases received : ch.received with
    | false => rfl
    | true => exact absurd ⟨ch, there, received⟩ refused
  constructor
  · cases gone unheard with
    | idle ended => exact ⟨_, ended⟩
    | cut split active => exact absurd active (not_cut_of_heard heard split)
    | dropped split unheard =>
      have heeds := heeds_of_heard (split ▸ heard)
      exact absurd unheard (heeds rfl)
  · rw [waiting, there]
    exact none unheard

/-- Who listens goes on to listen, however the reloads go. -/
theorem listens_run {early late : List Action} (opened : t.traffic id = ⟨some ⟨0, 1, true⟩, []⟩)
    (distinct : ∀ actions, (t.run actions).standing.Distinct) (heard : t.Heard id (early ++ late))
    (active : (t.run early).activity? l = some (.listener (.channel id))) :
    (t.run (early ++ late)).activity? l = some (.listener (.channel id)) ∨
      t.LetsOn (early ++ late) l (·.Idles id l) := by
  induction late using List.reverseRecOn with
  | nil =>
    rw [List.append_nil]
    exact .inl active
  | append_singleton late act inductionHypothesis =>
    rw [← List.append_assoc] at heard ⊢
    rcases inductionHypothesis (heard_of_append heard) with listens | ended
    · obtain ⟨ch, there, -⟩ := gone_run opened (early ++ late)
      rcases listener_stays (distinct _) there listens act with stays | ⟨rfl, idle⟩ | cancels
      · rw [run_concat]
        exact .inl stays
      · exact .inr (.last idle)
      · subst cancels
        exact absurd listens (not_cut_of_heard heard rfl)
    · exact .inr (ended.later act)

theorem distinct_opened (setup : Setup) (before actions : List Action) :
    ((((start setup).run before).step .openChannel).run actions).standing.Distinct := by
  have reached := run_append (start setup) before (.openChannel :: actions)
  exact reached ▸ distinct_run setup (before ++ .openChannel :: actions)

theorem serves_run (setup : Setup) (before actions : List Action) :
    let s := (start setup).run before
    let t := s.step .openChannel
    t.Serves (t.run actions) s.fresh := by
  intro s t
  induction actions using List.reverseRecOn with
  | nil =>
    have none : t.served s.fresh = [] := served_traffic (traffic_opened setup before)
    have empty {P : CallId → Prop} : ∀ c ∈ t.served s.fresh, P c := by
      rw [none]
      exact List.forall_mem_nil _
    exact ⟨empty, none ▸ List.nodup_nil, empty, empty⟩
  | append_singleton actions act inductionHypothesis =>
    rw [run_concat]
    exact inductionHypothesis.step (distinct_opened setup before actions) (fresh_le_run t actions)
      act

/-- Only what was cut off is answered so. -/
theorem Serves.cancels (serves : t.Serves (t.run actions) id) (prompt : t.standing.Prompt)
    (there : c ∈ (t.run actions).served id) (went : (t.run actions).sequel c = .cutOff) :
    .cancel c ∈ actions := by
  have answer := (serves.follows c there).cut_of_sequel went
  obtain ⟨first, last, answers, -⟩ := List.lookup_eq_some_iff.mp answer
  have answered : (c, .cancelled) ∈ (t.run actions).standing.answers := by
    change _ ∈ (t.run actions).answers
    rw [answers]
    exact List.mem_append_right _ List.mem_cons_self
  rcases cancelled_run actions answered with earlier | cancels
  · exact absurd (prompt _ earlier) (Nat.not_lt.mpr (serves.recent c there).1)
  · exact cancels

/-- A request that a channel accepts leads to one reload, whichever way it goes and whatever else
runs, and nothing else makes the trigger reload. Requests are refused only where there is no one to
receive them, and as long as no listener is cut off it goes on until nothing is left to do. -/
theorem requests_are_served_once (setup : Setup) (before actions : List Action) :
    let s := (start setup).run before
    let t := s.step .openChannel
    (¬ (t.run actions).Accepts s.fresh → t.Gone s.fresh actions) ∧
      (t.Heard s.fresh actions → t.Delivers s.fresh actions) := by
  intro s t
  have opened : t.traffic s.fresh = ⟨some ⟨0, 1, true⟩, []⟩ := traffic_opened setup before
  have serves : t.Serves (t.run actions) s.fresh := serves_run setup before actions
  have prompt : t.standing.Prompt := by
    have prompt := prompt_run setup (before ++ [.openChannel])
    rwa [run_concat] at prompt
  constructor
  · intro refused
    obtain ⟨ch, there, gone⟩ := gone_run opened actions
    cases received : ch.received with
    | false => exact gone received
    | true => exact absurd ⟨ch, there, received⟩ refused
  · intro heard
    have accounts := accounts_run opened heard
    have total := accounts.total
    have underway (c : CallId) (there : c ∈ (t.run actions).served s.fresh) :=
      (serves.follows c there).underway_of_sequel
    have cutOff (c : CallId) (there : c ∈ (t.run actions).served s.fresh) :=
      serves.cancels prompt there
    refine ⟨total, serves.nodup, fun c there => (mem_history.mp (serves.called c there)).1,
      underway, cutOff, ?_, refused_run opened heard, ?_, ?_⟩
    · intro served stopped
      have ended : (t.run actions).cameTo s.fresh .underway = 0 := by
        refine cameTo_eq_zero fun c there goes => ?_
        obtain ⟨stage, active⟩ := underway c there goes
        cases active.symm.trans (stopped c there).1
      have uncut : (t.run actions).cameTo s.fresh .cutOff = 0 :=
        cameTo_eq_zero fun c there went => (stopped c there).2 (cutOff c there went)
      have all := (t.run actions).concluded_add s.fresh
      omega
    · rintro early late l rfl active
      exact listens_run opened (distinct_opened setup before) heard active
    · intro l active
      obtain ⟨ch, there, -⟩ := accounts
      have pending : ch.pending = (t.run actions).waiting s.fresh := by
        rw [waiting, there]
        rfl
      obtain ⟨served, none, -⟩ := drain (distinct_opened setup before actions) there pending active
      exact ⟨served.trans total, none⟩

/-! Two requests overlap, one of them made before anyone listens. A third comes later and panics,
and there is a fourth when both senders are gone. -/

def secondPanics : Setup := .trial fun generation =>
  if generation = 1 then .made (.trial generation) else .panic .other

def fourRequests : List Action :=
  [.send 0, .addSender 0, .demand (.listen (.channel 0)), .proceed 1, .send 0, .proceed 1] ++
    proceeds 2 2 ++ .proceed 3 :: proceeds 7 2 ++ [.send 0, .proceed 1] ++ proceeds 7 6 ++
    [.dropSender 0, .proceed 1, .dropSender 0, .proceed 1, .send 0]

theorem four_requests :
    let t := ((start secondPanics).run []).step .openChannel
    let u := t.run fourRequests
    t.Heard 0 fourRequests ∧ t.Delivers 0 fourRequests ∧ t.accepted 0 fourRequests = 3 ∧
      u.cameTo 0 .completed = 1 ∧ u.cameTo 0 .rejected = 1 ∧ u.cameTo 0 .panicked = 1 ∧
        ¬ u.Accepts 0 ∧ t.Gone 0 fourRequests := by
  intro t u
  have heard : t.Heard 0 fourRequests := by decide
  have refused : ¬ u.Accepts 0 := by decide +kernel
  obtain ⟨gone, delivers⟩ := requests_are_served_once secondPanics [] fourRequests
  exact ⟨heard, delivers heard, by decide +kernel, by decide +kernel, by decide +kernel,
    by decide +kernel, refused, gone refused⟩

end HotSwap.Server

import HotSwap.Proofs.Admission.Flight
import HotSwap.Proofs.Admission.Waiting
import HotSwap.Proofs.Generations.Numbers
import HotSwap.Proofs.Requests.Execution

/-!
# Shutdowns among reloads

From when a shutdown is called until it returns, all reloads that are called are refused. It waits
for the reload past the guard, and takes what that leaves in the slot. Of shutdowns that overlap,
only the first finds an engine. Both are called with their first step.
-/

namespace HotSwap

namespace Standing

variable {v w u : Standing} {c d : CallId} {a b : Activity} {es : List Note} {x : Answer}
  {act : Server.Action} {i : Installation}

/-! ## Who has released something -/

theorem Goes.releaser (goes : Goes v c a u es b) (there : .released d i ∈ es) :
    d = c ∧ ∃ r, a.retirement? = some r := by
  cases goes with
  | release hK =>
    cases List.mem_singleton.mp there
    exact ⟨rfl, _, hK.retirement?_eq _⟩
  | _ => simp at there

theorem Stops.unreleased (stops : Stops v c a u es x) : .released d i ∉ es := by
  cases stops <;> simp

/-- Who releases an engine retires it. -/
theorem Move.releaser (moved : v.Move act w) (there : .released c i ∈ w.history) :
    .released c i ∈ v.history ∨ ∃ a r, ⟨c, a⟩ ∈ v.calls ∧ a.retirement? = some r := by
  rcases moved.noted there with old | clerical | ⟨d, a, u, es, known, new, ⟨b, goes⟩ | ⟨x, stops⟩⟩
  · exact .inl old
  · exact clerical.elim
  · obtain ⟨rfl, r, retires⟩ := goes.releaser new
    exact .inr ⟨a, r, known, retires⟩
  · exact absurd new stops.unreleased

/-- Who has released an engine was called. -/
def Unstarted (v : Standing) : Prop :=
  ∀ c i, .released c i ∈ v.history → c < v.fresh ∧ ⟨c, .shutdown .arriving⟩ ∉ v.calls

theorem Unstarted.move (unstarted : v.Unstarted) (distinct : v.Distinct) (moved : v.Move act w) :
    w.Unstarted := by
  intro c i released
  have before : c < v.fresh ∧ ⟨c, .shutdown .arriving⟩ ∉ v.calls := by
    rcases moved.releaser released with old | ⟨a, r, known, retires⟩
    · exact unstarted c i old
    · refine ⟨distinct.lt_fresh _ known, fun arriving => ?_⟩
      cases distinct.activity_eq known arriving
      cases retires
  refine ⟨Nat.lt_of_lt_of_le before.1 moved.fresh_le, fun present => ?_⟩
  cases moved.comes present with
  | stays known => exact before.2 known
  | begins new | handed new => exact absurd new (Nat.ne_of_lt before.1)
  | completes _ completing => cases completing
  | proceeds known goes =>
    rcases goes.to_shutdown with ⟨-, waits⟩ | ⟨r, retires, -⟩
    · cases waits
    · cases retires

/-! ## The reload ahead -/

/-- The shutdown waits as long as the other call goes on. -/
def Yields (v : Standing) (c d : CallId) : Prop :=
  (∃ b, ⟨d, b⟩ ∈ v.calls) → ⟨c, .shutdown .queued⟩ ∈ v.calls

theorem Yields.move (yields : v.Yields c d) (orderly : v.Orderly) (sparing : v.Sparing act)
    (reloads : v.Since Activity.Reloads d) (moved : v.Move act w) : w.Yields c d := by
  rintro ⟨b, present⟩
  obtain ⟨a, known⟩ := moved.was_call reloads.early present
  have past : a.Reloads := reloads.holds a known
  have waits := yields ⟨a, known⟩
  refine moved.waits orderly.lined.distinct sparing waits fun turn => ?_
  have holds := orderly.guarded _ known past.inside
  obtain rfl : d = c := Option.some.inj (holds.symm.trans turn)
  cases orderly.lined.distinct.activity_eq known waits
  exact past

/-- As long as the shutdown waits it is its turn, and the slot is the given one. -/
def Inherits (v : Standing) (c : CallId) (slot : Option Installation) : Prop :=
  ⟨c, .shutdown .queued⟩ ∈ v.calls → v.slot = slot ∧ v.guard.holder = some c

theorem Inherits.move {slot : Option Installation} (inherits : v.Inherits c slot)
    (orderly : v.Orderly) (since : v.Since Activity.ShutsDown c) (moved : v.Move act w) :
    w.Inherits c slot := by
  intro waits
  have known := moved.was_queued since waits
  obtain ⟨same, holds⟩ := inherits known
  obtain ⟨still, turn⟩ :=
    moved.keeps_turn orderly.lined.distinct orderly.guarded holds known waits
  exact ⟨still.trans same, turn⟩

end Standing

namespace Server

open Standing

variable {setup : Setup} {s t u : Server} {c d : CallId} {a b : Activity} {o : Origin}
  {i : Installation} {act : Action} {actions : List Action}

theorem unstarted_run (setup : Setup) (actions : List Action) :
    ((start setup).run actions).standing.Unstarted :=
  (standing_run (P := fun v => v.Distinct ∧ v.Unstarted) actions
    ⟨distinct_run setup [], fun _ _ released => absurd released List.not_mem_nil⟩
    fun moved ⟨distinct, unstarted⟩ => ⟨distinct.move moved, unstarted.move distinct moved⟩).2

/-! ## Taking over -/

/-- The shutdown takes what is in the slot and retires it, or returns if there is nothing. -/
inductive TakesOver (s u : Server) (c : CallId) : Prop
  | takes {i : Installation} (slot : s.slot = some i) (empty : u.slot = none)
      (noted : u.history = .taken i :: s.history)
      (retires : u.activity? c = some (.shutdown (.retiring (s.retire i))))
  | returns (vacant : s.slot = none) (empty : u.slot = none) (ended : u.activity? c = none)
      (answer : u.answer? c = some .done)

theorem takesOver_queued (waits : s.activity? c = some (.shutdown .queued))
    (holds : s.guard.holder = some c) : s.TakesOver (s.step (.proceed c)) c := by
  have goes : s.step (.proceed c) = s.takeDown c := step_proceed waits rfl fun free => free holds
  cases slot : s.slot with
  | some i =>
    simp only [goes, takeDown, slot]
    exact .takes slot rfl rfl (activity?_proceedTo waits)
  | none =>
    have gone := s.standing_finish c .done
    obtain ⟨ended, answer, -⟩ := stopped gone
    simp only [goes, takeDown, slot]
    exact .returns slot ((congrArg Standing.slot gone).trans slot) ended answer

/-! ## From the call of a shutdown to its return -/

/-- The shutdown finds no engine: the slot is empty by its turn, and it returns at once. -/
inductive Vain (s : Server) (c : CallId) : Prop
  | waits (active : s.activity? c = some (.shutdown .queued))
      (empty : s.guard.holder = some c → s.slot = none)
  | returned (ended : s.activity? c = none) (answer : s.answer? c = some .done)

/-- The shutdown waits behind another one, or has returned. -/
inductive Trails (s : Server) (c : CallId) : Prop
  | waits (active : s.activity? c = some (.shutdown .queued)) (behind : s.standing.Behind c)
  | returned (ended : s.activity? c = none) (answer : s.answer? c = some .done)

namespace Trails

theorem vain (trails : s.Trails c) (orderly : s.standing.Orderly) : s.Vain c := by
  cases trails with
  | waits active behind => exact .waits active fun turn => behind.empty orderly turn
  | returned ended answer => exact .returned ended answer

theorem step (trails : s.Trails c) (orderly : s.standing.Orderly) (known : c < s.fresh)
    (sparing : s.standing.Sparing act) : (s.step act).Trails c := by
  have distinct := orderly.lined.distinct
  cases trails with
  | waits active behind =>
    have present := mem_calls_of_activity? active
    have moved := s.move_step act
    have waiting := moved.waiting distinct present
    generalize next : (s.step act).standing = w at moved waiting
    cases waiting with
    | waits still =>
      have there := activity?_of_mem (next ▸ distinct.move moved) (next ▸ still)
      exact .waits there (next ▸ behind.move orderly moved sparing present still)
    | takes turn slot => cases slot.symm.trans (behind.empty orderly turn)
    | returns =>
      obtain ⟨ended, answer, -⟩ := stopped next
      exact .returned ended answer
    | cut => exact absurd trivial (sparing c _ rfl present)
  | returned ended answer =>
    have untouched := untouched_ended distinct known ended act
    exact .returned (untouched.activity.trans ended) (untouched.answer.trans answer)

/-- Neither who waits nor who has returned releases anything. -/
theorem unreleased (trails : s.Trails c) (orderly : s.standing.Orderly)
    (released : .released c i ∈ (s.step act).standing.history) :
    .released c i ∈ s.standing.history := by
  rcases (s.move_step act).releaser released with old | ⟨a, r, known, retires⟩
  · exact old
  · have active := activity?_of_mem orderly.lined.distinct known
    cases trails with
    | waits there =>
      cases there.symm.trans active
      cases retires
    | returned ended => cases ended.symm.trans active

end Trails

theorem standing_called (arrived : s.activity? c = some (.shutdown .arriving)) :
    (s.step (.proceed c)).standing =
      ({ s.standing with guard := s.guard.join c } : Standing).proceedTo c (.shutdown .queued) :=
  congrArg standing (step_proceed arrived rfl id)

theorem queued_called (arrived : s.activity? c = some (.shutdown .arriving)) :
    ⟨c, .shutdown .queued⟩ ∈ (s.step (.proceed c)).standing.calls := by
  rw [standing_called arrived]
  exact mem_proceedTo (mem_calls_of_activity? arrived)

/-- Whoever is called during another shutdown is behind it. -/
theorem behind_called (orderly : s.standing.Orderly)
    (arrived : s.activity? c = some (.shutdown .arriving))
    (active : s.activity? d = some a) (shuts : a.ShutsDown) :
    (s.step (.proceed c)).standing.Behind c := by
  have known := mem_calls_of_activity? active
  have there : d ∈ s.guard.line := (orderly.lined.mem_line d).mpr ⟨a, known, shuts.contends⟩
  have line : (s.step (.proceed c)).standing.guard.line = s.guard.line ++ [c] := by
    rw [standing_called arrived]
    exact Guard.line_join orderly.lined.tight
  refine ⟨s.guard.line, [], line, fun alone => ?_, fun e only => ?_⟩
  · exact absurd (alone ▸ there) List.not_mem_nil
  · obtain rfl : d = e := List.mem_singleton.mp (only ▸ there)
    exact (orderly.lined.distinct.since known shuts).shutsDown (s.move_step _)

/-- What the call of a shutdown at `s` is to those who come at `u`. -/
structure Fences (s u : Server) (c : CallId) : Prop where
  /-- Until it returns, reloads that are called are refused. -/
  refuses : ∀ a d o, u.activity? c = some a → u.activity? d = some (.reload o .arriving) →
    u.Refuses (u.step (.proceed d)) d o
  /-- A reload that was past the guard ends before it goes on. -/
  waits : ∀ d a b, s.activity? d = some a → a.Reloads → u.activity? d = some b →
    u.activity? c = some (.shutdown .queued)
  /-- If another shutdown was called and had not returned, it finds and releases nothing. -/
  vain : ∀ d a, s.activity? d = some a → a.ShutsDown →
    u.Vain c ∧ ∀ i, .released c i ∉ u.journal

theorem refuses_run (orderly : s.standing.Orderly)
    (shuts : s.standing.Since Activity.ShutsDown c)
    (faithful : ∀ call ∈ s.standing.calls, call.activity.Faithful s.standing.setup)
    (active : s.activity? c = some a) (arrived : s.activity? d = some (.reload o .arriving)) :
    s.Refuses (s.step (.proceed d)) d o := by
  have known := mem_calls_of_activity? active
  have there : c ∈ s.guard.line :=
    (orderly.lined.mem_line c).mpr ⟨a, known, (shuts.holds a known).contends⟩
  have posted := faithful _ (mem_calls_of_activity? arrived)
  exact refuses_arriving orderly.lined posted.1 arrived (List.ne_nil_of_mem there)

theorem shutsDown_run (shuts : s.standing.Since Activity.ShutsDown c) (actions : List Action) :
    (s.run actions).standing.Since Activity.ShutsDown c :=
  standing_run (P := fun v => v.Since Activity.ShutsDown c) actions shuts
    fun moved held => held.shutsDown moved

/-- As long as a reload past the guard goes on, a shutdown behind it waits. -/
theorem yields_run (orderly : s.standing.Orderly) (uncut : s.Uncut actions)
    (reloads : s.standing.Since Activity.Reloads d)
    (waits : ⟨c, .shutdown .queued⟩ ∈ s.standing.calls) : (s.run actions).standing.Yields c d := by
  have kept := uncut_run (P := fun u => u.standing.Since Activity.Reloads d ∧
    u.standing.Yields c d) orderly uncut ⟨reloads, fun _ => waits⟩ ?_
  · exact kept.2
  · rintro u act orderly sparing ⟨reloads, yields⟩
    have moved := u.move_step act
    exact ⟨reloads.reloads moved, yields.move orderly sparing reloads moved⟩

/-- A shutdown behind another one releases nothing, however it goes on. -/
theorem trails_run (orderly : s.standing.Orderly) (uncut : s.Uncut actions) (known : c < s.fresh)
    (trails : s.Trails c) (unreleased : ∀ i, .released c i ∉ s.standing.history) :
    (s.run actions).Trails c ∧ ∀ i, .released c i ∉ (s.run actions).standing.history := by
  have kept := uncut_run (P := fun u => c < u.fresh ∧ u.Trails c ∧
    ∀ i, .released c i ∉ u.standing.history) orderly uncut ⟨known, trails, unreleased⟩ ?_
  · exact kept.2
  · rintro u act orderly sparing ⟨known, trails, unreleased⟩
    refine ⟨?_, trails.step orderly known sparing, fun i released => ?_⟩
    · exact Nat.lt_of_lt_of_le known (u.move_step act).fresh_le
    · exact unreleased i (trails.unreleased orderly released)

theorem fences_run {before after : List Action}
    (uncut : ((start setup).run before).Uncut (.proceed c :: after))
    (arrived : ((start setup).run before).activity? c = some (.shutdown .arriving)) :
    let s := (start setup).run before
    s.Fences ((s.step (.proceed c)).run after) c := by
  intro s
  let t := s.step (.proceed c)
  have orderly : s.standing.Orderly := orderly_run setup before
  have moved : s.standing.Move (.proceed c) t.standing := s.move_step _
  have next : t.standing.Orderly := orderly.move moved
  have queued : ⟨c, .shutdown .queued⟩ ∈ t.standing.calls := queued_called arrived
  have shuts : t.standing.Since Activity.ShutsDown c := next.lined.distinct.since queued trivial
  have last : (t.run after).standing.Orderly :=
    standing_run after next fun moved held => held.move moved
  constructor
  · intro a d o active arrived
    have faithful := standing_run (s := t)
      (P := fun v => ∀ call ∈ v.calls, call.activity.Faithful v.setup) after
      (moved.faithful (faithful_run setup before)) fun moved held => moved.faithful held
    exact refuses_run last (shutsDown_run shuts after) faithful active arrived
  · intro d a b active past present
    have reloads : t.standing.Since Activity.Reloads d :=
      (orderly.lined.distinct.since (mem_calls_of_activity? active) past).reloads moved
    have yields := yields_run next uncut.2 reloads queued
    exact activity?_of_mem last.lined.distinct (yields ⟨b, mem_calls_of_activity? present⟩)
  · intro d a active past
    have behind := behind_called orderly arrived active past
    have trails : t.Trails c := .waits (activity?_of_mem next.lined.distinct queued) behind
    have before (i : Installation) : .released c i ∉ t.standing.history := by
      intro released
      rw [standing_called arrived] at released
      exact (unstarted_run setup before c i released).2 (mem_calls_of_activity? arrived)
    obtain ⟨trails, unreleased⟩ := trails_run next uncut.2 shuts.early trails before
    exact ⟨trails.vain last, fun i released => unreleased i (mem_history.mpr ⟨released, rfl⟩)⟩

/-! ## After the return of a shutdown -/

/-- The reload is called in the course of the actions. -/
def Calls (s : Server) (actions : List Action) (d : CallId) : Prop :=
  ∃ o early late, actions = early ++ .proceed d :: late ∧
    (s.run early).activity? d = some (.reload o .arriving)

theorem Calls.later (calls : s.Calls actions d) (act : Action) : s.Calls (actions ++ [act]) d := by
  obtain ⟨o, early, late, rfl, arrived⟩ := calls
  exact ⟨o, early, late ++ [act], by rw [List.append_assoc, List.cons_append], arrived⟩

/-- A reload that is called in the course of the actions installs the engine anew. -/
structure Supplies (s : Server) (actions : List Action) (i : Installation) : Prop where
  called : ∃ d, s.Calls actions d ∧ .begun d i.generation ∈ (s.run actions).history
  installed : ∃ prev, .installed i prev ∈ (s.run actions).history ∧ .installed i prev ∉ s.history

/-- Who is past the guard was called in the course of the actions, and what is in the slot was
installed by someone who was. -/
structure Renewed (s : Server) (actions : List Action) : Prop where
  attempts : ∀ d o stage a, ⟨d, .reload o stage⟩ ∈ (s.run actions).standing.calls →
    stage.attempt? = some a → s.Calls actions d
  slot : ∀ i, (s.run actions).slot = some i → s.Supplies actions i

theorem Supplies.later (supplies : s.Supplies actions i) (act : Action) :
    s.Supplies (actions ++ [act]) i := by
  have grown := ((s.run actions).move_step act).suffix.subset
  obtain ⟨⟨d, called, begun⟩, prev, installed, new⟩ := supplies
  constructor
  · exact ⟨d, called.later act, run_concat s actions act ▸ grown begun⟩
  · exact ⟨prev, run_concat s actions act ▸ grown installed, new⟩

namespace Renewed

theorem attempts_step (renewed : s.Renewed actions) {stage : Reload.Stage} {attempt : Attempt}
    (numbered : (s.run actions).standing.Numbered)
    (present : ⟨d, .reload o stage⟩ ∈ ((s.run actions).step act).standing.calls)
    (attempted : stage.attempt? = some attempt) : s.Calls (actions ++ [act]) d := by
  have moved := (s.run actions).move_step act
  rcases moved.was_attempt present attempted with
      ⟨before, earlier, known, attempted'⟩ | ⟨g, -, -, -, arriving, entered⟩
  · exact (renewed.attempts d o before earlier known attempted').later act
  · have begun : .begun d (s.run actions).standing.nextGeneration ∈
        ((s.run actions).step act).standing.history := entered ▸ List.mem_cons_self
    rcases moved.shift.mem_begun begun with old | ⟨-, rfl, -⟩
    · exact absurd arriving (numbered.not_arriving old)
    · exact ⟨o, actions, [], rfl, activity?_of_mem numbered.distinct arriving⟩

theorem slot_step (renewed : s.Renewed actions) (numbered : (s.run actions).standing.Numbered)
    (custody : (s.run actions).standing.Custody) (slot : ((s.run actions).step act).slot = some i) :
    s.Supplies (actions ++ [act]) i := by
  have moved := (s.run actions).move_step act
  cases moved.shift with
  | still same | enter _ same => exact (renewed.slot i (same.symm.trans slot)).later _
  | take _ _ empty => cases slot.symm.trans empty
  | install known generation installed _ noted =>
    cases slot.symm.trans installed
    have grown := moved.suffix.subset
    have begun := (numbered.attempt known rfl).2
    have calls := renewed.attempts _ _ _ _ known rfl
    -- what has just been installed was not before
    have once := (custody.move moved).once i
    rw [Standing.times, noted, List.countP_cons_of_pos (Note.installs_self i _)] at once
    have none : (s.run actions).standing.times (Note.installs i) = 0 :=
      Nat.le_zero.mp (Nat.le_of_succ_le_succ once)
    constructor
    · exact ⟨_, calls.later _, run_concat s actions _ ▸ grown (generation ▸ begun)⟩
    · refine ⟨_, run_concat s actions _ ▸ noted ▸ List.mem_cons_self, fun earlier => ?_⟩
      have there := (suffix_run s actions).subset earlier
      exact List.countP_eq_zero.mp none _ there (Note.installs_self i _)

end Renewed

/-- If no one is past the guard and the slot is empty, whatever comes there comes later. -/
theorem renewed_run {before : List Action} (reached : s = (start setup).run before)
    (empty : s.slot = none) (outside : ∀ call ∈ s.standing.calls, ¬ call.activity.Inside)
    (actions : List Action) : s.Renewed actions := by
  induction actions using List.reverseRecOn with
  | nil =>
    constructor
    · intro d o stage a present attempted
      exact absurd (Activity.inside_of_attempt attempted) (outside _ present)
    · intro i slot
      cases empty.symm.trans slot
  | append_singleton actions act inductionHypothesis =>
    have whole : s.run actions = (start setup).run (before ++ actions) := by
      rw [reached, run_append]
    have numbered : (s.run actions).standing.Numbered := whole ▸ numbered_run setup _
    have custody : (s.run actions).standing.Custody := whole ▸ custody_run setup _
    constructor
    · intro d o stage a present attempted
      rw [run_concat] at present
      exact inductionHypothesis.attempts_step numbered present attempted
    · intro i slot
      rw [run_concat] at slot
      exact inductionHypothesis.slot_step numbered custody slot

/-! ## Shutdowns in order -/

/-- How the step at `s` is in order with what follows, if it belongs to a shutdown or lets one go
on. -/
structure ShutsInOrder (s : Server) (act : Action) (after : List Action) : Prop where
  /-- A shutdown that is called keeps others out until it returns. -/
  called : ∀ c, act = .proceed c → s.activity? c = some (.shutdown .arriving) →
    s.Fences ((s.step act).run after) c
  /-- What the reload past the guard leaves in the slot stays there until the first shutdown that
  waits takes it. -/
  inherited : ∀ c d a, s.activity? d = some a → a.Reloads → (s.step act).activity? d = none →
    s.guard.queue.head? = some c →
    ((s.step act).run after).activity? c = some (.shutdown .queued) →
      ((s.step act).run after).slot = (s.step act).slot ∧
        ((s.step act).run after).TakesOver (((s.step act).run after).step (.proceed c)) c
  /-- Whose turn it is takes what is in the slot. -/
  taken : ∀ c, s.activity? c = some (.shutdown .queued) → s.guard.holder = some c →
    s.TakesOver (s.step (.proceed c)) c
  /-- When a shutdown returns the slot is empty until a reload that is called later fills it. -/
  returned : ∀ c a, s.activity? c = some a → a.ShutsDown → (s.step act).activity? c = none →
    (s.step act).slot = none ∧
      ∀ i, ((s.step act).run after).slot = some i → (s.step act).Supplies after i
  /-- No engine leaves the slot twice. -/
  once : ∀ i, ((s.step act).run after).times (Note.vacates i) ≤ 1

theorem gone_of_activity? (distinct : s.standing.Distinct) (ended : s.activity? c = none)
    (a : Activity) : ⟨c, a⟩ ∉ s.standing.calls := by
  intro present
  cases ended.symm.trans (activity?_of_mem distinct present)

theorem inherited_run {before after : List Action}
    (uncut : ((start setup).run before).Uncut (act :: after)) :
    let s := (start setup).run before
    let t := s.step act
    s.activity? d = some a → a.Reloads → t.activity? d = none → s.guard.queue.head? = some c →
      (t.run after).activity? c = some (.shutdown .queued) →
        (t.run after).slot = t.slot ∧
          (t.run after).TakesOver ((t.run after).step (.proceed c)) c := by
  intro s t active past ended next waits
  have orderly : s.standing.Orderly := orderly_run setup before
  have moved : s.standing.Move act t.standing := s.move_step act
  have orderly' : t.standing.Orderly := orderly.move moved
  have holds := orderly.guarded _ (mem_calls_of_activity? active) past.inside
  obtain ⟨turn, queued⟩ := moved.hands_over orderly
    (sparing_of_spares orderly.lined.distinct uncut.1) holds
    (gone_of_activity? orderly'.lined.distinct ended) next
  have kept := standing_run (P := fun v => v.Orderly ∧ v.Since Activity.ShutsDown c ∧
    v.Inherits c t.slot) after
    ⟨orderly', orderly'.lined.distinct.since queued trivial, fun _ => ⟨rfl, turn⟩⟩ ?_
  · obtain ⟨same, holds⟩ := kept.2.2 (mem_calls_of_activity? waits)
    exact ⟨same, takesOver_queued waits holds⟩
  · rintro v act w moved ⟨orderly, since, inherits⟩
    exact ⟨orderly.move moved, since.shutsDown moved, inherits.move orderly since moved⟩

/-- Shutdowns are in order with reloads. While no call that handles engines is cut off, a shutdown
that was called keeps all later reloads out until it returns, waits for the reload past the guard,
and takes what that leaves in the slot. When it returns the slot is empty until a later reload
fills it. Of shutdowns that overlap, those called after the first find no engine, and no engine is
taken twice. -/
theorem shutdowns_are_in_order {before after : List Action}
    (uncut : ((start setup).run before).Uncut (act :: after)) :
    ((start setup).run before).ShutsInOrder act after := by
  have orderly := orderly_run setup before
  have distinct := orderly.lined.distinct
  have moved := ((start setup).run before).move_step act
  constructor
  · rintro c rfl arrived
    exact fences_run uncut arrived
  · intro c d a
    exact inherited_run uncut
  · intro c
    exact takesOver_queued
  · intro c a active past ended
    obtain ⟨empty, outside⟩ := moved.returned orderly (sparing_of_spares distinct uncut.1)
      (mem_calls_of_activity? active) past (gone_of_activity? (distinct.move moved) ended)
    have reached := (run_concat (start setup) before act).symm
    exact ⟨empty, (renewed_run reached empty outside after).slot⟩
  · intro i
    have whole : (((start setup).run before).step act).run after =
        (start setup).run (before ++ act :: after) := (run_append _ _ (act :: after)).symm
    rw [whole]
    exact vacates_once setup _ i

/-- A shutdown waits for a reload when another one is called. It takes the engine that the reload
installs, and the other one finds none. -/
theorem second_shutdown_finds_none :
    let s := (start (.trial fun generation => .made (.trial generation))).run
      (.demand .reload :: proceeds 2 0 ++ [.demand .shutdown, .proceed 1, .demand .shutdown])
    let u := (s.step (.proceed 2)).run (proceeds 6 0 ++ proceeds 6 1 ++ proceeds 2 2)
    let engine : Installation := ⟨4, ⟨3, .trial 1⟩, "trial", 1, .ofMillis 0⟩
    u.times (Note.vacates engine) = 1 ∧ u.Vain 2 ∧ ∀ i, .released 2 i ∉ u.journal := by
  intro s u engine
  have order : s.ShutsInOrder (.proceed 2) (proceeds 6 0 ++ proceeds 6 1 ++ proceeds 2 2) :=
    shutdowns_are_in_order (by decide)
  exact ⟨by decide +kernel, (order.called 2 rfl rfl).vain 1 _ rfl trivial⟩

end Server

end HotSwap

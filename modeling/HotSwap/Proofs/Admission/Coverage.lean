import HotSwap.Proofs.Admission.Flight
import HotSwap.Proofs.Admission.Waiting
import HotSwap.Proofs.Reload.Abandoned
import HotSwap.Proofs.Requests.Execution

/-!
# What a refused reload is about

A reload is refused because another call holds the guard. If that call is an attempt that is yet to
obtain its engine, whatever it installs is obtained after the refusal, and so of what the refused
reload was about. Otherwise nothing made after the refusal is installed until another reload passes.
-/

namespace HotSwap

namespace Standing

variable {v₀ v w u : Standing} {c : CallId} {a b : Activity} {es : List Note} {x : Answer}
  {o : Origin} {stage : Reload.Stage} {t : Attempt} {p : String} {product : Product}
  {i : Installation} {prev : Option Installation} {act : Server.Action}

/-! ## Where engines come from -/

/-- An attempt that is yet to obtain its engine was one before, or took a generation. -/
theorem Goes.of_unmade (goes : Goes v c a u es (.reload o stage)) (unmade : stage.Unmade) :
    (∃ before, a = .reload o before ∧ before.Unmade) ∨
      u.nextGeneration = v.nextGeneration + 1 := by
  generalize reloads : Activity.reload o stage = b at goes
  cases goes with
  | enter => exact .inr rfl
  | mark | construct | ask =>
    cases reloads
    exact .inl ⟨_, rfl, trivial⟩
  | sleep hK | wake hK | clear hK | release hK =>
    cases hK with
    | reload =>
      cases reloads
      exact unmade.elim
    | _ => cases reloads
  | _ =>
    cases reloads
    try exact unmade.elim

/-- What an attempt is about to install was obtained by asking for it. -/
theorem Goes.obtains (goes : Goes v c a u es (.reload o (.installing t p product))) :
    ∃ k recipe, a = .reload o (.asking t p k recipe) := by
  generalize reloads : Activity.reload o (.installing t p product) = b at goes
  cases goes with
  | obtain =>
    cases reloads
    exact ⟨_, _, rfl⟩
  | sleep hK | wake hK | clear hK | release hK => cases hK <;> cases reloads
  | _ => cases reloads

theorem Goes.installer (goes : Goes v c a u es b) (there : .installed i prev ∈ es) :
    ∃ o t p, a = .reload o (.installing t p i.product) ∧ i.generation = t.generation := by
  cases goes with
  | replace | install =>
    cases List.mem_singleton.mp there
    exact ⟨_, _, _, rfl, rfl⟩
  | _ => simp at there

theorem Stops.not_installer (stops : Stops v c a u es x) : .installed i prev ∉ es := by
  cases stops <;> simp

/-- An attempt installs what it is about to install. -/
theorem Move.installer (moved : v.Move act w) (there : .installed i prev ∈ w.history) :
    .installed i prev ∈ v.history ∨
      ∃ c o t p, ⟨c, .reload o (.installing t p i.product)⟩ ∈ v.calls ∧
        i.generation = t.generation := by
  rcases moved.noted there with old | clerical | ⟨c, a, u, es, known, new, ⟨b, goes⟩ | ⟨x, stops⟩⟩
  · exact .inl old
  · exact clerical.elim
  · obtain ⟨o, t, p, rfl, generation⟩ := goes.installer new
    exact .inr ⟨c, o, t, p, known, generation⟩
  · exact absurd new stops.not_installer

theorem Move.was_unmade (moved : v.Move act w) (next : w.nextGeneration = v.nextGeneration)
    (present : ⟨c, .reload o stage⟩ ∈ w.calls) (unmade : stage.Unmade) :
    ∃ before, ⟨c, .reload o before⟩ ∈ v.calls ∧ before.Unmade := by
  cases moved.comes present with
  | stays known => exact ⟨stage, known, unmade⟩
  | begins _ opens =>
    cases opens
    exact unmade.elim
  | proceeds known goes same =>
    rcases goes.of_unmade unmade with ⟨before, rfl, earlier⟩ | enters
    · exact ⟨before, known, earlier⟩
    · rw [same] at next
      exact absurd (enters.symm.trans next) (Nat.succ_ne_self _)
  | handed _ retires => cases retires
  | completes _ completing =>
    cases completing
    exact unmade.elim

/-- What an attempt is about to install it was about to install before, or it asked for it. -/
theorem Move.was_installing (moved : v.Move act w)
    (present : ⟨c, .reload o (.installing t p product)⟩ ∈ w.calls) :
    ⟨c, .reload o (.installing t p product)⟩ ∈ v.calls ∨
      ∃ k recipe, ⟨c, .reload o (.asking t p k recipe)⟩ ∈ v.calls := by
  cases moved.comes present with
  | stays known => exact .inl known
  | begins _ opens => cases opens
  | proceeds known goes =>
    obtain ⟨k, recipe, rfl⟩ := goes.obtains
    exact .inr ⟨k, recipe, known⟩
  | handed _ retires => cases retires
  | completes _ completing => cases completing

/-! ## Nothing new is made -/

/-- Who called providers, the latest first. -/
def callers (v : Standing) : List CallId := v.history.filterMap Note.caller?

/-- No attempt is yet to obtain its engine, and since `v₀` none was. -/
structure Stale (v₀ v : Standing) : Prop where
  made : ∀ c o stage, ⟨c, .reload o stage⟩ ∈ v.calls → ¬ stage.Unmade
  callers : v.callers = v₀.callers
  installing : ∀ c o t p product, ⟨c, .reload o (.installing t p product)⟩ ∈ v.calls →
    ⟨c, .reload o (.installing t p product)⟩ ∈ v₀.calls
  installed : ∀ i prev, .installed i prev ∈ v.history → .installed i prev ∈ v₀.history ∨
    ∃ c o t p, ⟨c, .reload o (.installing t p i.product)⟩ ∈ v₀.calls ∧ i.generation = t.generation

/-- Until another attempt passes the guard, nothing new is made. -/
theorem Stale.move (stale : Stale v₀ v) (moved : v.Move act w)
    (next : w.nextGeneration = v.nextGeneration) : Stale v₀ w := by
  constructor
  · intro c o stage present unmade
    obtain ⟨before, known, earlier⟩ := moved.was_unmade next present unmade
    exact stale.made c o before known earlier
  · obtain ⟨ns, grown, callers⟩ := moved.caller
    have none : ns.filterMap Note.caller? = [] := by
      apply List.filterMap_eq_nil_iff.mpr
      intro n there
      apply Option.eq_none_iff_forall_ne_some.mpr
      intro c calls
      obtain ⟨o, stage, known, unmade⟩ := callers n there c calls
      exact stale.made c o stage known unmade
    rw [Standing.callers, grown, List.filterMap_append, none]
    exact stale.callers
  · intro c o t p product present
    rcases moved.was_installing present with known | ⟨k, recipe, known⟩
    · exact stale.installing c o t p product known
    · exact absurd trivial (stale.made c o _ known)
  · intro i prev there
    rcases moved.installer there with old | ⟨c, o, t, p, known, generation⟩
    · exact stale.installed i prev old
    · exact .inr ⟨c, o, t, p, stale.installing c o t p _ known, generation⟩

end Standing

namespace Server

variable {s w : Server} {c d : CallId} {a : Activity} {o : Origin} {stage : Reload.Stage}
  {t : Attempt} {p : String} {product : Product} {g : Nat} {actions : List Action}

/-! ## Engines that are obtained later -/

/-- In the course of the actions the provider gives the product to the attempt of the generation. -/
def Obtains (s : Server) (actions : List Action) (g : Nat) (product : Product) : Prop :=
  ∃ d, s.LetsOn actions d fun u => ∃ o t p k recipe, t.generation = g ∧
    u.activity? d = some (.reload o (.asking t p k recipe)) ∧
    (u.step (.proceed d)).activity? d = some (.reload o (.installing t p product))

theorem Obtains.later (obtains : s.Obtains actions g product) (act : Action) :
    s.Obtains (actions ++ [act]) g product := by
  obtain ⟨d, lets⟩ := obtains
  exact ⟨d, lets.later act⟩

/-- A step from asking to installing is one of the attempt itself. -/
theorem obtains_of_step {k : Nat} {recipe : Recipe} (act : Action)
    (distinct : (s.run actions).standing.Distinct)
    (asking : (s.run actions).activity? d = some (.reload o (.asking t p k recipe)))
    (installing : ((s.run actions).step act).activity? d =
      some (.reload o (.installing t p product))) :
    s.Obtains (actions ++ [act]) t.generation product := by
  rcases step_active distinct asking act with rfl | ⟨gone, -⟩ | untouched
  · exact ⟨d, .last ⟨o, t, p, k, recipe, rfl, asking, installing⟩⟩
  · rw [gone] at installing
    cases installing
  · rw [untouched.activity, asking] at installing
    cases installing

/-- What there is under the generation, installed or about to be, was obtained in the course of the
actions. -/
structure Covered (s : Server) (g : Nat) (actions : List Action) : Prop where
  installing : ∀ d o t p product,
    ⟨d, .reload o (.installing t p product)⟩ ∈ (s.run actions).standing.calls →
      t.generation = g → s.Obtains actions g product
  installed : ∀ i prev, .installed i prev ∈ (s.run actions).standing.history →
    i.generation = g → s.Obtains actions g i.product

theorem Covered.step (covered : s.Covered g actions)
    (distinct : (s.run actions).standing.Distinct) (act : Action) :
    s.Covered g (actions ++ [act]) := by
  have moved := (s.run actions).move_step act
  constructor
  · intro d o t p product present generation
    rw [run_concat] at present
    rcases moved.was_installing present with known | ⟨k, recipe, known⟩
    · exact (covered.installing d o t p product known generation).later act
    · subst generation
      apply obtains_of_step act distinct (activity?_of_mem distinct known)
      exact activity?_of_mem (distinct.move moved) present
  · intro i prev there generation
    rw [run_concat] at there
    rcases moved.installer there with old | ⟨d, o, t, p, known, same⟩
    · exact (covered.installed i prev old generation).later act
    · exact (covered.installing d o t p _ known (same ▸ generation)).later act

/-- What an attempt installs that is yet to obtain its engine, it obtains later. -/
theorem covered_run (numbered : s.standing.Numbered)
    (active : s.activity? d = some (.reload o stage)) (unmade : stage.Unmade)
    (attempted : stage.attempt? = some t) (actions : List Action) :
    s.Covered t.generation actions := by
  have known := mem_calls_of_activity? active
  induction actions using List.reverseRecOn with
  | nil =>
    constructor
    · -- whoever is about to install something is past the guard too, and further on
      intro e o' t' p product present _
      cases numbered.guarded.unique known (Activity.inside_of_attempt attempted) present trivial
      cases numbered.distinct.activity_eq known present
      exact unmade.elim
    · intro i prev there generation
      have installed : i.generation ∈ s.standing.installed :=
        List.mem_filterMap.mpr ⟨_, there, rfl⟩
      have newer := numbered.ahead known attempted unmade.tries _ installed
      exact absurd generation (Nat.ne_of_lt newer)
  | append_singleton actions act inductionHypothesis =>
    have distinct : (s.run actions).standing.Distinct :=
      standing_run actions numbered.distinct fun moved held => held.move moved
    exact inductionHypothesis.step distinct act

/-! ## What becomes of a refused reload -/

/-- Who called providers, the latest first. -/
def callers (s : Server) : List CallId := s.journal.filterMap Note.caller?

/-- Since `s` no provider was called, and what was installed had been obtained by then. -/
structure Misses (s w : Server) : Prop where
  callers : w.callers = s.callers
  installed : ∀ i prev, .installed i prev ∈ w.journal → .installed i prev ∈ s.journal ∨
    ∃ d o t p, s.activity? d = some (.reload o (.installing t p i.product)) ∧
      i.generation = t.generation

/-- What becomes of what a reload was about that is refused at `s`, while the call `d` is at `a`. -/
inductive Fate (s : Server) (a : Activity) : Prop
  /-- The attempt in progress is yet to obtain its engine, and installs what it obtains later. -/
  | covered {o : Origin} {stage : Reload.Stage} {t : Attempt} (reloads : a = .reload o stage)
      (unmade : stage.Unmade) (attempted : stage.attempt? = some t)
      (obtains : ∀ after i prev, .installed i prev ∈ (s.run after).journal →
        i.generation = t.generation → s.Obtains after t.generation i.product)
  /-- Nothing new is made until another reload passes the guard. -/
  | missed (made : ∀ o stage, a = .reload o stage → ¬ stage.Unmade)
      (misses : ∀ after, (s.run after).nextGeneration = s.nextGeneration → s.Misses (s.run after))

theorem misses_run (distinct : s.standing.Distinct)
    (made : ∀ c o stage, ⟨c, .reload o stage⟩ ∈ s.standing.calls → ¬ stage.Unmade)
    (after : List Action) (same : (s.run after).nextGeneration = s.nextGeneration) :
    s.Misses (s.run after) := by
  have stale : Standing.Stale s.standing (s.run after).standing := by
    induction after using List.reverseRecOn with
    | nil => exact ⟨made, rfl, fun _ _ _ _ _ present => present, fun _ _ there => .inl there⟩
    | append_singleton before act inductionHypothesis =>
      -- the next generation only grows, so that it was the same all along
      have moved := (s.run before).move_step act
      have first := s.next_le_run before
      have second : (s.run before).nextGeneration ≤ ((s.run before).step act).nextGeneration :=
        moved.shift.next_le
      rw [run_concat] at same ⊢
      apply (inductionHypothesis (by omega)).move moved
      change ((s.run before).step act).nextGeneration = (s.run before).nextGeneration
      omega
  constructor
  · rw [callers, callers, ← filterMap_history (s.run after) fun _ _ => rfl,
      ← filterMap_history s fun _ _ => rfl]
    exact stale.callers
  · intro i prev there
    rcases stale.installed i prev (mem_history.mpr ⟨there, rfl⟩) with
        old | ⟨d, o, t, p, known, generation⟩
    · exact .inl (mem_history.mp old).1
    · exact .inr ⟨d, o, t, p, activity?_of_mem distinct known, generation⟩

/-- Whoever holds the guard decides what becomes of a reload that is refused. -/
theorem fate_of_holder (numbered : s.standing.Numbered) (holds : s.guard.holder = some d)
    (active : s.activity? d = some a) : s.Fate a := by
  have known := mem_calls_of_activity? active
  by_cases unmade : ∃ o stage, a = .reload o stage ∧ stage.Unmade
  · obtain ⟨o, stage, rfl, unmade⟩ := unmade
    obtain ⟨t, attempted⟩ := unmade.attempt?
    apply Fate.covered rfl unmade attempted
    intro after i prev there
    exact (covered_run numbered active unmade attempted after).installed i prev
      (mem_history.mpr ⟨there, rfl⟩)
  · have made (o : Origin) (stage : Reload.Stage) (reloads : a = .reload o stage) :
        ¬ stage.Unmade := fun here => unmade ⟨o, stage, reloads, here⟩
    apply Fate.missed made
    apply misses_run numbered.distinct
    intro e o stage present here
    obtain ⟨t, attempted⟩ := here.attempt?
    have holder := numbered.guarded _ present (Activity.inside_of_attempt attempted)
    obtain rfl : d = e := Option.some.inj (holds.symm.trans holder)
    exact made o stage (numbered.distinct.activity_eq known present) here

/-- A reload that is refused has just arrived, while another call is past the guard or about to
pass. If that is an attempt that is yet to obtain its engine, whatever it installs was obtained
after the refusal. Otherwise the refused reload is missed: until another one passes the guard no
provider is called, and nothing is installed but what was obtained before. -/
theorem refused_reload_is_covered_or_missed (setup : Setup) (before : List Action) (act : Action)
    (c : CallId) :
    let s := (start setup).run before
    .returned c (.error .alreadyInProgress) ∈ (s.step act).journal →
    .returned c (.error .alreadyInProgress) ∉ s.journal →
      (∃ o, s.activity? c = some (.reload o .arriving)) ∧
      ∃ d a, s.guard.holder = some d ∧ s.activity? d = some a ∧ a.Contends ∧ s.Fate a := by
  intro s refused new
  have lined : s.standing.Lined := lined_run setup before
  have moved := s.move_step act
  rcases moved.refused (faithful_run setup before) (mem_history.mpr ⟨refused, rfl⟩) with
      old | ⟨o, arrived, taken⟩
  · exact absurd (mem_history.mp old).1 new
  · refine ⟨⟨o, activity?_of_mem lined.distinct arrived⟩, ?_⟩
    obtain ⟨d, rest, line⟩ := List.exists_cons_of_ne_nil taken
    have holds : s.standing.guard.holder = some d := by
      rw [lined.tight.holder_eq, line]
      rfl
    obtain ⟨a, present, contends⟩ := (lined.mem_line d).mp (Guard.mem_line_of_holder holds)
    have active := activity?_of_mem lined.distinct present
    exact ⟨d, a, holds, active, contends, fate_of_holder (numbered_run setup before) holds active⟩

/-- While a reload drains the engine before, another one is refused, and is missed. -/
theorem reload_is_missed_during_drain :
    let actions : List Action := untilDrain ++ [.demand .reload]
    let s := (start .patient).run actions
    ∀ after, (s.run after).nextGeneration = s.nextGeneration → s.Misses (s.run after) := by
  intro actions s
  have refused : .returned 6 (.error .alreadyInProgress) ∈ (s.step (.proceed 6)).journal :=
    .tail _ (.head _)
  have new : .returned 6 (.error .alreadyInProgress) ∉ s.journal := by
    have quiet : s.times (Note.returns 6) = 0 := rfl
    intro there
    exact List.countP_eq_zero.mp quiet _ there rfl
  have holder : s.guard.holder = some 3 := rfl
  have draining : ∃ t p r, s.activity? 3 = some (.reload .program (.retiring t p r)) :=
    ⟨_, _, _, rfl⟩
  obtain ⟨-, d, a, holds, active, -, fate⟩ :=
    refused_reload_is_covered_or_missed .patient actions (.proceed 6) 6 refused new
  obtain rfl : d = 3 := Option.some.inj (holds.symm.trans holder)
  obtain ⟨t, p, r, draining⟩ := draining
  obtain rfl : a = _ := Option.some.inj (active.symm.trans draining)
  cases fate with
  | covered reloads unmade =>
    cases reloads
    exact unmade.elim
  | missed _ misses => exact misses

end Server

end HotSwap

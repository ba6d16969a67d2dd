import HotSwap.Proofs.Custody.Ownership
import HotSwap.Proofs.Generations.Chain

/-!
# Engines that are handed out again

A provider may hand out an engine that is installed already, which makes another installation of
it. Draining waits for those who refer to one installation, so that the engine is released once for
each of them that goes out of service, whoever is served by another.
-/

namespace HotSwap

namespace Note

/-! What a note tells of an engine, whichever installation of it. -/

variable (p : Nat)

def installsProduct : Note → Bool
  | .installed i _ => i.product.id = p
  | _ => false

def releasesProduct : Note → Bool
  | .released _ i => i.product.id = p
  | _ => false

end Note

/-- The call has yet to release an installation of the engine. -/
def Activity.PendsProduct (p : Nat) (a : Activity) : Prop :=
  ∃ r ∈ a.retirement?, r.installation.product.id = p ∧ r.stage ≠ .releasing

instance (p : Nat) (a : Activity) : Decidable (a.PendsProduct p) :=
  inferInstanceAs (Decidable (∃ r ∈ a.retirement?, _))

namespace Standing

variable {v w : Standing} {act : Server.Action} {i j : Installation} {p : Nat}

/-- The slot, a call or the program refers to the installation. -/
inductive Refers (v : Standing) (i : Installation) : Prop
  | slot (current : v.slot = some i)
  | held {call : Call} (known : call ∈ v.calls) (holds : i ∈ call.activity.held?)
  | kept {k : String × Installation} (keeps : k ∈ v.kept) (same : k.2 = i)

theorem Refers.inUse (refers : v.Refers i) : v.InUse i := by
  cases refers with
  | slot current => exact .inl ⟨i, current, rfl⟩
  | held known holds => exact inUse_of_held known holds
  | kept keeps same => exact .inr (.inr ⟨_, keeps, congrArg _ same⟩)

/-- References come from earlier ones, or from an installation. -/
theorem Move.refers (moved : v.Move act w) (refers : w.Refers i) :
    v.Refers i ∨ w.slot = some i := by
  cases refers with
  | slot current => exact .inr current
  | held present holds =>
    left
    cases moved.comes present with
    | stays known => exact .held known holds
    | begins _ opens =>
      obtain ⟨k, keeps, same⟩ := opens.held holds
      exact .kept keeps same
    | proceeds known goes =>
      rcases goes.held holds with earlier | slot
      · exact .held known earlier
      · exact .slot slot
    | handed _ retires =>
      rw [retires] at holds
      cases holds
    | completes _ completing =>
      rw [completing] at holds
      cases holds
  | @kept k keeps same =>
    left
    rcases moved.kept keeps with earlier | slot
    · exact .kept earlier same
    · exact .slot (slot.trans (congrArg some same))

/-- What is referred to was installed. -/
def Sourced (v : Standing) : Prop := ∀ i, v.Refers i → ∃ prev, .installed i prev ∈ v.history

theorem Sourced.move (sourced : v.Sourced) (stocked : v.Stocked) (moved : v.Move act w) :
    w.Sourced := by
  intro i refers
  rcases moved.refers refers with earlier | current
  · obtain ⟨prev, installed⟩ := sourced i earlier
    exact ⟨prev, moved.suffix.subset installed⟩
  · exact stocked.move moved i current

/-- Someone is served by the engine. -/
def Serves (v : Standing) (p : Nat) : Prop := ∃ i, v.Refers i ∧ i.product.id = p

/-- An engine that was installed once serves through that installation only. -/
theorem Sourced.inUse_of_serves (sourced : v.Sourced)
    (once : v.times (Note.installsProduct i.product.id) ≤ 1) {prev : Option Installation}
    (installed : .installed i prev ∈ v.history) (serves : v.Serves i.product.id) : v.InUse i := by
  obtain ⟨j, refers, same⟩ := serves
  obtain ⟨prev', there⟩ := sourced j refers
  have only : Note.installed i prev = .installed j prev' :=
    eq_of_countP_le_one once installed (by simp [Note.installsProduct]) there
      (by simp [Note.installsProduct, same])
  cases only
  exact refers.inUse

/-- Whoever releases an engine while it reloads has put another installation into the slot. -/
theorem Chained.slot_of_idle (chained : v.Chained) (custody : v.Custody) (idle : v.Idle i)
    {c : CallId} {o : Origin} {stage : Reload.Stage} (known : ⟨c, .reload o stage⟩ ∈ v.calls)
    (late : stage.Late) : ∃ j, v.slot = some j ∧ j.id ≠ i.id := by
  obtain ⟨t, attempted⟩ := Reload.Stage.attempt?_of_late late
  obtain ⟨j, current, -⟩ := chained.current known late attempted
  refine ⟨j, current, fun same => ?_⟩
  exact custody.idle i idle (.inl ⟨j, current, same⟩)

end Standing

namespace Server

open Standing

/-- How many calls have yet to release an installation of the engine. -/
def pendingOf (s : Server) (p : Nat) : Nat := s.calls.countP (·.activity.PendsProduct p)

/-- One if the engine is in service. -/
def inServiceOf (s : Server) (p : Nat) : Nat := if ∃ i ∈ s.slot, i.product.id = p then 1 else 0

theorem sourced_run (setup : Setup) (actions : List Action) :
    ((start setup).run actions).standing.Sourced := by
  have stocked : (start setup).standing.Stocked := stocked_run setup []
  refine (standing_run (P := fun v => v.Stocked ∧ v.Sourced) actions ⟨stocked, ?_⟩
    fun moved held => ⟨held.1.move moved, held.2.move held.1 moved⟩).2
  intro i refers
  cases refers with
  | slot current => cases current
  | held known => cases known
  | kept keeps => cases keeps

/-- Of what is installed, nothing goes astray but with the calls that are cut off. -/
theorem balanced_run {setup : Setup} {actions : List Action}
    (uncut : (start setup).Uncut actions) (q : Installation → Prop) [DecidablePred q] :
    (Ledger.keeping q).total ((start setup).run actions).standing =
      (Ledger.keeping q).entered ((start setup).run actions).standing := by
  refine run_induction (P := fun s =>
    (Ledger.keeping q).total s.standing = (Ledger.keeping q).entered s.standing) actions rfl ?_
  intro before act after split even
  have distinct := distinct_run setup before
  have sound : (Ledger.keeping q).Sound := Ledger.sound_keeping
  obtain ⟨lost, balanced, none | ⟨c, a, cancels, known, r, retires, -⟩ | dropped⟩ :=
    sound.balance distinct (((start setup).run before).move_step act)
  · omega
  · subst cancels
    have spares := spares_of_uncut (split ▸ uncut)
    exact absurd (Activity.handles_of_retires retires)
      (spares a (activity?_of_mem distinct known))
  · obtain ⟨c, a, u, es, p, stops, partly, -⟩ := dropped
    exact absurd (Ledger.keeping_stops stops) partly

/-- An engine is released once for each of its installations. -/
theorem released_of_installed {setup : Setup} {actions : List Action}
    (uncut : (start setup).Uncut actions) (p : Nat) :
    let s := (start setup).run actions
    s.times (Note.releasesProduct p) + s.pendingOf p + s.inServiceOf p =
      s.times (Note.installsProduct p) := by
  intro s
  have unlogged (n : Note) :
      (n.releasesProduct p → n.isLine = false) ∧ (n.installsProduct p → n.isLine = false) := by
    cases n <;> simp [Note.releasesProduct, Note.installsProduct, Note.isLine]
  rw [← s.standing_times fun n => (unlogged n).1, ← s.standing_times fun n => (unlogged n).2]
  have balanced : s.inServiceOf p + s.pendingOf p + s.standing.times (Note.releasesProduct p) =
      s.standing.times (Note.installsProduct p) := balanced_run uncut (·.product.id = p)
  omega

/-- What is so when an installation is released, in a run that goes from `s` to `u`. -/
structure Drained (s u : Server) (i : Installation) : Prop where
  /-- No one refers to the installation, though others of the engine may be referred to. -/
  unreferred : ∀ j, s.standing.Refers j → j.id ≠ i.id
  once : u.times (Note.installsProduct i.product.id) ≤ 1 →
    ¬ s.standing.Serves i.product.id ∧ ¬ u.standing.Serves i.product.id
  /-- A reload releases what it replaced while what it installed is in service. -/
  replaced : ∀ c o stage, s.activity? c = some (.reload o stage) → stage.Late →
    ∃ j, s.slot = some j ∧ j.id ≠ i.id

/-- Engines are released by their installations. Unless calls that handle engines are cut off, an
engine is released once for each of its installations, but for the one in service and those that
drain. A release waits until no one refers to the installation, so that an engine that was installed
once serves no one any more. One that was handed out again may be in the slot at its release, and is
if a reload replaced it by itself. -/
theorem released_per_installation {setup : Setup} {before after : List Action} {act : Action}
    {i : Installation} {prev : Option Installation}
    (uncut : (start setup).Uncut (before ++ act :: after))
    (installed : .installed i prev ∈ ((start setup).run before).journal) :
    let s := (start setup).run before
    let u := (s.step act).run after
    let p := i.product.id
    u.times (Note.releasesProduct p) + u.pendingOf p + u.inServiceOf p =
        u.times (Note.installsProduct p) ∧
      (s.times (Note.releases i) < (s.step act).times (Note.releases i) → s.Drained u i) := by
  intro s u p
  have reached : (start setup).run (before ++ act :: after) = u := run_append _ _ _
  have custody : s.standing.Custody := custody_run setup before
  have chained : s.standing.Chained := chained_run setup before
  have moved : s.standing.Move act (s.step act).standing := s.move_step act
  refine ⟨reached ▸ released_of_installed uncut p, fun released => ?_⟩
  have unlogged (n : Note) :
      (n.releases i → n.isLine = false) ∧ (n.installsProduct p → n.isLine = false) := by
    cases n <;> simp [Note.releases, Note.installsProduct, Note.isLine]
  rw [← s.standing_times fun n => (unlogged n).1,
    ← (s.step act).standing_times fun n => (unlogged n).1] at released
  have idle := moved.idle_of_releases released
  have unused := custody.idle i idle
  refine ⟨fun j refers same => ?_, fun once => ?_, fun c o stage active late => ?_⟩
  · exact unused ((inUse_congr same).mp refers.inUse)
  · rw [← u.standing_times fun n => (unlogged n).2] at once
    have noted : .installed i prev ∈ s.standing.history := mem_history.mpr ⟨installed, rfl⟩
    have grown : s.standing.history <:+ u.standing.history := suffix_run s (act :: after)
    constructor
    · intro serves
      have earlier : s.standing.times (Note.installsProduct p) ≤ 1 :=
        Nat.le_trans grown.sublist.countP_le once
      exact unused ((sourced_run setup before).inUse_of_serves earlier noted serves)
    · intro serves
      have sourced : u.standing.Sourced := reached ▸ sourced_run setup _
      have later : ¬ u.InUse i :=
        (idle_run (custody.move moved) (Nat.zero_lt_of_lt released) after).1
      exact later (sourced.inUse_of_serves once (grown.subset noted) serves)
  · exact chained.slot_of_idle custody idle (mem_calls_of_activity? active) late

end Server

/-- A server whose one provider makes one engine and hands it out again and again. -/
def Setup.sharing : Setup where
  registry := Registry.empty.register ⟨"trial", .provider ⟨0, fun _ context =>
    ⟨false, .made (), context.generation, none, .made (.trial 1), true⟩⟩⟩
  classpath := []
  drainTimeout := 0
  cors := false
  clock := fun _ => ""

namespace Server

/-- The second of two reloads releases the engine that it has just installed again. -/
theorem shared_engine_is_released_in_service :
    let twice := .demand .reload :: proceeds 7 0 ++ .demand .reload :: proceeds 7 3
    let first : Installation := ⟨2, ⟨1, .trial 1⟩, "trial", 1, .ofMillis 0⟩
    let second : Installation := ⟨4, ⟨1, .trial 1⟩, "trial", 2, .ofMillis 0⟩
    let s := (start .sharing).run twice
    let u := s.step (.proceed 3)
    s.slot = some second ∧ s.Drained u first ∧ u.inServiceOf 1 = 1 ∧
      u.times (Note.releasesProduct 1) + 1 = u.times (Note.installsProduct 1) := by
  intro twice first second s u
  have installed : .installed first none ∈ s.journal := List.mem_of_getElem? (i := 14) rfl
  have uncut : (start .sharing).Uncut (twice ++ .proceed 3 :: []) := by decide
  have released : s.times (Note.releases first) < u.times (Note.releases first) := by decide
  obtain ⟨counted, drained⟩ := released_per_installation uncut installed
  exact ⟨rfl, drained released, by decide, counted⟩

end Server

end HotSwap

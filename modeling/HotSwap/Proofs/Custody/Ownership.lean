import HotSwap.Proofs.Custody.Release
import HotSwap.Proofs.Standing.Slot

/-!
# Owning engines

While no call that retires engines is cut off or panics, every engine that was installed is in
service, or one call is at its retirement, or it has been released.
-/

namespace HotSwap

/-- Whether a call ended in a panic. -/
def Note.panics : Note → Bool
  | .ended _ (.panic _) => true
  | _ => false

/-- The call makes, replaces or releases engines. One in the background has no caller who could cut
it off. -/
def Activity.Handles : Activity → Prop
  | .reload _ _ | .shutdown _ | .retirement _ => True
  | _ => False

instance (a : Activity) : Decidable a.Handles := by
  unfold Activity.Handles
  split <;> infer_instance

/-- Whoever retires an engine handles it. -/
theorem Activity.handles_of_retires {a : Activity} {r : Retirement} (retires : r ∈ a.retirement?) :
    a.Handles := by
  cases a with
  | reload | shutdown | retirement => trivial
  | _ => cases retires

/-- No other call panics. What an engine does to a request is told in the answer. -/
theorem Standing.Stops.handles {v u : Standing} {c : CallId} {a : Activity} {es : List Note}
    {x : Answer} {p : Payload} (stops : v.Stops c a u es x) (panicked : x = .panic p) :
    a.Handles := by
  cases stops with
  | releasePanic retires =>
    cases retires with
    | reload | shutdown | background => trivial
  | refuse | constructorPanic | makerPanic | succeed | fail | vacant | shutdown | background =>
    trivial
  | _ => cases panicked

namespace Server

/-- No call that handles engines is cut off. -/
def Spares (s : Server) : Action → Prop
  | .cancel c => ∀ a ∈ s.activity? c, ¬ a.Handles
  | _ => True

instance (s : Server) (act : Action) : Decidable (s.Spares act) := by
  unfold Spares
  split <;> infer_instance

/-- No call that handles engines is ever cut off. -/
def Uncut (s : Server) : List Action → Prop
  | [] => True
  | act :: rest => s.Spares act ∧ (s.step act).Uncut rest

instance decidableUncut (s : Server) : (actions : List Action) → Decidable (s.Uncut actions)
  | [] => inferInstanceAs (Decidable True)
  | act :: rest =>
    have := decidableUncut (s.step act) rest
    inferInstanceAs (Decidable (s.Spares act ∧ (s.step act).Uncut rest))

/-- How many calls are at the retirement of the engine. -/
def owners (s : Server) (i : Installation) : Nat := s.calls.countP (·.activity.Owns i)

/-! Where an engine can be. -/

def InService (s : Server) (i : Installation) : Prop :=
  s.slot = some i ∧ s.owners i = 0 ∧ s.times (Note.releases i) = 0

/-- A reload, a shutdown or a call in the background waits to release the engine, or releases it. -/
def InRetirement (s : Server) (i : Installation) : Prop :=
  s.slot ≠ some i ∧ s.owners i = 1 ∧ s.times (Note.endsRelease i) = 0

def Released (s : Server) (i : Installation) : Prop :=
  s.slot ≠ some i ∧ s.owners i = 0 ∧
    s.times (Note.releases i) = 1 ∧ s.times (Note.endsRelease i) = 1

theorem spares_of_uncut {s : Server} {before after : List Action} {act : Action}
    (uncut : s.Uncut (before ++ act :: after)) : (s.run before).Spares act := by
  induction before generalizing s with
  | nil => exact uncut.1
  | cons first rest inductionHypothesis => exact inductionHypothesis uncut.2

end Server

namespace Standing

/-- What is in service was installed, and nothing that was installed is missing. -/
structure Settled (v : Standing) : Prop where
  custody : v.Custody
  stocked : v.Stocked
  kept (i : Installation) : (Ledger.custody i).total v = v.times (Note.installs i)
  released (i : Installation) : (Ledger.releasing i).total v = v.times (Note.releases i)

variable {v w : Standing} {act : Server.Action} {i : Installation}

theorem Settled.move (settled : v.Settled) (moved : v.Move act w)
    (spared : ∀ c a, act = .cancel c → ⟨c, a⟩ ∈ v.calls → ¬ a.Handles)
    (calm : w.times Note.panics = 0) : w.Settled := by
  have unpanicked (c : CallId) (p : Payload) : .ended c (.panic p) ∉ w.history := fun noted =>
    (List.countP_eq_zero.mp calm) _ noted rfl
  refine ⟨settled.custody.move moved, settled.stocked.move moved, ?_, ?_⟩
  · intro i
    refine Ledger.sound_custody.total_eq settled.custody.distinct moved ?_ (settled.kept i)
    rintro (⟨c, a, rfl, present, r, retires, -⟩ | ⟨c, p, noted⟩)
    · exact spared c a rfl present (Activity.handles_of_retires retires)
    · exact unpanicked c p noted
  · intro i
    refine Ledger.sound_releasing.total_eq settled.custody.distinct moved ?_ (settled.released i)
    rintro (⟨c, a, rfl, present, r, retires, -⟩ | ⟨c, p, noted⟩)
    · exact spared c a rfl present (Activity.handles_of_retires retires)
    · exact unpanicked c p noted

/-- What is there once at most is the same wherever it is found. -/
theorem eq_of_countP_le_one {α : Type} {xs : List α} {p : α → Bool} (once : xs.countP p ≤ 1)
    {x y : α} (first : x ∈ xs) (here : p x) (second : y ∈ xs) (there : p y) : x = y := by
  rw [List.countP_eq_length_filter] at once
  have first := List.mem_filter.mpr ⟨first, here⟩
  have second := List.mem_filter.mpr ⟨second, there⟩
  obtain ⟨k, only⟩ := List.length_eq_one_iff.mp
    (Nat.le_antisymm once (List.length_pos_of_mem first))
  rw [only, List.mem_singleton] at first second
  exact first.trans second.symm

/-- What was installed under the same number is the same. -/
theorem Custody.installed_inj (custody : v.Custody) {j : Installation}
    {prev prev' : Option Installation} (first : .installed i prev ∈ v.history)
    (second : .installed j prev' ∈ v.history) (same : j.id = i.id) : i = j := by
  have only : Note.installed i prev = .installed j prev' :=
    eq_of_countP_le_one (custody.once i) first (by simp [Note.installs]) second
      (by simp [Note.installs, same])
  cases only
  rfl

theorem Custody.inSlot_iff (custody : v.Custody) (stocked : v.Stocked)
    {prev : Option Installation} (installed : .installed i prev ∈ v.history) :
    v.InSlot i ↔ v.slot = some i := by
  constructor
  · rintro ⟨j, current, same⟩
    obtain ⟨prev', there⟩ := stocked j current
    exact custody.installed_inj installed there same ▸ current
  · exact fun current => ⟨i, current, rfl⟩

end Standing

namespace Server

open Standing

theorem settled_run {setup : Setup} {actions : List Action}
    (uncut : (start setup).Uncut actions)
    (calm : ((start setup).run actions).standing.times Note.panics = 0) :
    ((start setup).run actions).standing.Settled := by
  refine run_induction (P := fun s => s.standing.Settled) actions ?_ ?_
  · refine ⟨custody_start setup, by simp [Stocked], ?_, ?_⟩
    · simp [Ledger.total, Ledger.left, Ledger.custody, Standing.tally]
    · simp [Ledger.total, Ledger.left, Ledger.releasing, Standing.tally]
  · intro before act after split settled
    apply settled.move (((start setup).run before).move_step act)
    · rintro c a rfl present
      have spared := spares_of_uncut (split ▸ uncut)
      exact spared a (activity?_of_mem settled.custody.distinct present)
    · have later := suffix_run (((start setup).run before).step act) after
      rw [split, run_append] at calm
      exact Nat.le_zero.mp (calm ▸ later.sublist.countP_le)

theorem inSlot_custody {s : Server} (settled : s.standing.Settled) {i : Installation}
    {prev : Option Installation} (installed : .installed i prev ∈ s.standing.history) :
    (Ledger.custody i).inSlot s.slot = 1 ∧ s.slot = some i ∨
      (Ledger.custody i).inSlot s.slot = 0 ∧ s.slot ≠ some i := by
  by_cases slot : ∃ j ∈ s.slot, j.id = i.id
  · exact .inl ⟨if_pos slot, (settled.custody.inSlot_iff settled.stocked installed).mp slot⟩
  · exact .inr ⟨if_neg slot, fun current => slot ⟨i, current, rfl⟩⟩

/-- No engine is lost. In a run that cuts off no call that handles engines, and in which none of
these panics, every engine that was installed is in exactly one place, so that whatever is not in
service was released once nothing is under way. -/
theorem installed_in_one_place {setup : Setup} {actions : List Action}
    (uncut : (start setup).Uncut actions)
    (calm : ((start setup).run actions).times Note.panics = 0) {i : Installation}
    {prev : Option Installation}
    (installed : .installed i prev ∈ ((start setup).run actions).journal) :
    let s := (start setup).run actions
    (s.InService i ∨ s.InRetirement i ∨ s.Released i) ∧
      ((∀ call ∈ s.calls, call.activity.retirement? = none) →
        (s.slot = some i ∨ s.Released i) ∧ (s.slot = none → s.Released i)) := by
  intro s
  have unlogged (n : Note) :
      (n.releases i → n.isLine = false) ∧ (n.endsRelease i → n.isLine = false) ∧
        (n.panics → n.isLine = false) := by
    cases n <;> simp [Note.releases, Note.endsRelease, Note.panics, Note.isLine]
  have releases := s.standing_times fun n => (unlogged n).1
  have ends := s.standing_times fun n => (unlogged n).2.1
  rw [← standing_times _ fun n => (unlogged n).2.2] at calm
  have settled : s.standing.Settled := settled_run uncut calm
  have noted : .installed i prev ∈ s.standing.history := mem_history.mpr ⟨installed, rfl⟩
  have once : s.standing.times (Note.installs i) = 1 := by
    refine Nat.le_antisymm (settled.custody.once i) (List.countP_pos_iff.mpr ⟨_, noted, ?_⟩)
    simp [Note.installs]
  have kept : (Ledger.custody i).inSlot s.slot + s.standing.tally (·.Pends i) +
      s.standing.times (Note.releases i) = s.standing.times (Note.installs i) := settled.kept i
  have released : 0 + s.standing.tally (·.Releases i) + s.standing.times (Note.endsRelease i) =
      s.standing.times (Note.releases i) := settled.released i
  have owned : s.owners i = s.standing.tally (·.Pends i) + s.standing.tally (·.Releases i) :=
    s.standing.tally_owns i
  have somewhere : s.InService i ∨ s.InRetirement i ∨ s.Released i := by
    rcases inSlot_custody settled noted with ⟨here, current⟩ | ⟨elsewhere, other⟩
    · exact .inl ⟨current, by omega, by omega⟩
    · by_cases unended : s.times (Note.endsRelease i) = 0
      · exact .inr (.inl ⟨other, by omega, unended⟩)
      · exact .inr (.inr ⟨other, by omega, by omega, by omega⟩)
  refine ⟨somewhere, fun resting => ?_⟩
  have unowned : s.owners i = 0 := by
    apply List.countP_eq_zero.mpr
    intro call present owns
    obtain ⟨r, retires, -⟩ := of_decide_eq_true owns
    rw [resting call present] at retires
    cases retires
  rcases somewhere with ⟨current, -⟩ | ⟨-, one, -⟩ | gone
  · exact ⟨.inl current, fun empty => by rw [current] at empty; cases empty⟩
  · omega
  · exact ⟨.inr gone, fun _ => gone⟩

/-- A shutdown empties the slot while a request executes, so that the engine is left to the
background, which releases it. -/
theorem shutdown_leaves_nothing :
    let busy : List Action :=
      .demand .reload :: proceeds 7 0 ++ .keep "held" :: .demand .shutdown :: proceeds 4 3 ++
        .letGo "held" :: proceeds 4 4
    let only : Installation := ⟨2, ⟨1, .trial 1⟩, "trial", 1, .ofMillis 0⟩
    let s := (start (.trial fun generation => .made (.trial generation))).run busy
    .installed only none ∈ s.journal ∧ s.slot = none ∧ s.Released only := by
  intro busy only s
  have installed : .installed only none ∈ s.journal := List.mem_of_getElem? (i := 14) rfl
  have resting : ∀ call ∈ s.calls, call.activity.retirement? = none := by
    have none : s.calls = [] := rfl
    simp [none]
  have empty : s.slot = none := by rfl
  exact ⟨installed, empty,
    ((installed_in_one_place (by decide) (by decide) installed).2 resting).2 empty⟩

end Server

end HotSwap

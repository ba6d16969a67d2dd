import HotSwap.Proofs.Custody.Ownership

/-!
# Losing engines

A call that is cut off takes along the engine that it was to release. Such an engine is never
released, even if no one refers to it any more. Nothing else loses an engine, and a panic does not.
-/

namespace HotSwap

namespace Standing

variable {v w : Standing} {act : Server.Action} {i : Installation}

/-- An engine that was installed is in one place at most, and is released once at most. -/
structure Tended (v : Standing) : Prop where
  custody : v.Custody
  stocked : v.Stocked
  released (i : Installation) : (Ledger.releasing i).total v ≤ v.times (Note.releases i)

theorem Tended.move (tended : v.Tended) (moved : v.Move act w) : w.Tended where
  custody := tended.custody.move moved
  stocked := tended.stocked.move moved
  released i :=
    Ledger.sound_releasing.total_le tended.custody.distinct moved (tended.released i)

/-- Engines go astray with the calls that are cut off, and only with them. -/
theorem Tended.balance (tended : v.Tended) (moved : v.Move act w) (i : Installation) :
    ∃ lost, (Ledger.custody i).total w + lost + v.times (Note.installs i) =
        (Ledger.custody i).total v + w.times (Note.installs i) ∧
      (lost = 0 ∨ ∃ c a, act = .cancel c ∧ ⟨c, a⟩ ∈ v.calls ∧ a.Pends i) := by
  obtain ⟨lost, balanced, none | cut | ⟨c, a, u, es, p, stops, partly, -⟩⟩ :=
    Ledger.sound_custody.balance tended.custody.distinct moved
  · exact ⟨lost, balanced, .inl none⟩
  · exact ⟨lost, balanced, .inr cut⟩
  · exact absurd (Ledger.custody_stops stops) partly

/-- What is nowhere has left the slot, and no call releases it. -/
theorem Tended.total_eq_zero_iff (tended : v.Tended) {prev : Option Installation}
    (installed : .installed i prev ∈ v.history) :
    (Ledger.custody i).total v = 0 ↔
      v.slot ≠ some i ∧ v.tally (·.Owns i) = 0 ∧ v.times (Note.releases i) = 0 := by
  have inSlot := tended.custody.inSlot_iff tended.stocked installed
  have total : (Ledger.custody i).total v = (Ledger.custody i).inSlot v.slot +
    v.tally (·.Pends i) + v.times (Note.releases i) := rfl
  have ended : 0 + v.tally (·.Releases i) + v.times (Note.endsRelease i) ≤
    v.times (Note.releases i) := tended.released i
  have owned := v.tally_owns i
  rw [Ne, ← inSlot]
  by_cases here : v.InSlot i
  · have one : (Ledger.custody i).inSlot v.slot = 1 := if_pos here
    exact ⟨by omega, fun gone => absurd here gone.1⟩
  · have none : (Ledger.custody i).inSlot v.slot = 0 := if_neg here
    simp only [here, not_false_eq_true, true_and]
    omega

end Standing

namespace Server

open Standing

/-- The engine is out of service without having been released, and no call is to release it. -/
def Lost (s : Server) (i : Installation) : Prop :=
  s.slot ≠ some i ∧ s.owners i = 0 ∧ s.times (Note.releases i) = 0

/-- The action cuts off a call that waits to release the engine. -/
def CutsOff (s : Server) (act : Action) (i : Installation) : Prop :=
  ∃ c a, act = .cancel c ∧ s.activity? c = some a ∧ a.Pends i

theorem tended_run (setup : Setup) (actions : List Action) :
    ((start setup).run actions).standing.Tended := by
  refine standing_run actions ⟨custody_start setup, ?_, fun i => ?_⟩ fun moved held =>
    held.move moved
  · exact fun i slot => by cases slot
  · simp [Ledger.total, Ledger.left, Ledger.releasing, Standing.tally]

variable {s : Server} {i : Installation}

theorem lost_iff (tended : s.standing.Tended) {prev : Option Installation}
    (installed : .installed i prev ∈ s.standing.history) :
    s.Lost i ↔ (Ledger.custody i).total s.standing = 0 := by
  have unlogged (n : Note) : n.releases i → n.isLine = false := by
    cases n <;> simp [Note.releases, Note.isLine]
  rw [tended.total_eq_zero_iff installed, s.standing_times unlogged]
  rfl

/-- While no call is cut off that waits to release the engine, it is somewhere. -/
theorem kept_run {setup : Setup} {actions : List Action}
    (uncut : ∀ before act after, actions = before ++ act :: after →
      ¬ ((start setup).run before).CutsOff act i) :
    (Ledger.custody i).total ((start setup).run actions).standing =
      ((start setup).run actions).standing.times (Note.installs i) := by
  refine run_induction (P := fun s => (Ledger.custody i).total s.standing =
    s.standing.times (Note.installs i)) actions ?_ ?_
  · simp [Ledger.total, Ledger.left, Ledger.custody, Standing.tally]
  · intro before act after split kept
    have tended := tended_run setup before
    obtain ⟨lost, balanced, rfl | ⟨c, a, rfl, present, pends⟩⟩ :=
      tended.balance (((start setup).run before).move_step act) i
    · omega
    · exact absurd ⟨c, a, rfl, activity?_of_mem tended.custody.distinct present, pends⟩
        (uncut before _ after split)

/-- Who is cut off takes along the engine, which then is nowhere. -/
theorem total_cancel (tended : s.standing.Tended) {act : Action} (cuts : s.CutsOff act i) :
    (Ledger.custody i).total (s.step act).standing = 0 ∧
      (s.step act).standing.times (Note.installs i) = 1 := by
  obtain ⟨c, a, rfl, active, pends⟩ := cuts
  have known : ⟨c, a⟩ ∈ s.standing.calls := mem_calls_of_activity? active
  have held : (Ledger.custody i).held a = 1 := if_pos pends
  have finished := (Ledger.sound_custody (i := i)).total_finish (x := .cancelled)
    tended.custody.distinct known
  have entered := (Ledger.sound_custody (i := i)).entered_finish (v := s.standing) (c := c)
    (x := .cancelled)
  have accounted := tended.custody.accounted i
  have once := tended.custody.once i
  have ended : (s.step (.cancel c)).standing = s.standing.finish c .cancelled :=
    standing_cancel active
  change (s.standing.finish c .cancelled).times (Note.installs i) =
    s.standing.times (Note.installs i) at entered
  rw [ended]
  omega

/-- What is nowhere comes back no more. -/
theorem total_run (tended : s.standing.Tended) (nowhere : (Ledger.custody i).total s.standing = 0)
    (installed : s.standing.times (Note.installs i) = 1) (actions : List Action) :
    (Ledger.custody i).total (s.run actions).standing = 0 := by
  have kept := standing_run (s := s) (P := fun v => v.Tended ∧ (Ledger.custody i).total v = 0 ∧
    v.times (Note.installs i) = 1) actions ⟨tended, nowhere, installed⟩ ?_
  · exact kept.2.1
  · rintro v act w moved ⟨tended, nowhere, installed⟩
    have next := tended.move moved
    obtain ⟨lost, balanced, -⟩ := tended.balance moved i
    have once := next.custody.once i
    have grown := moved.times_le (Note.installs i)
    exact ⟨next, by omega, by omega⟩

/-- An engine is lost exactly if a call was cut off that waited to release it. So a reload or a
shutdown that is dropped while it drains an engine leaves that engine unreleased for good, whatever
runs later. -/
theorem lost_iff_cut_off {setup : Setup} {actions : List Action} {i : Installation}
    {prev : Option Installation}
    (installed : .installed i prev ∈ ((start setup).run actions).journal) :
    ((start setup).run actions).Lost i ↔ ∃ before act after, actions = before ++ act :: after ∧
      ((start setup).run before).CutsOff act i := by
  have noted : .installed i prev ∈ ((start setup).run actions).standing.history :=
    mem_history.mpr ⟨installed, rfl⟩
  rw [lost_iff (tended_run setup actions) noted]
  constructor
  · -- what no cut took along is somewhere, since it was installed
    intro nowhere
    by_contra uncut
    have kept : (Ledger.custody i).total ((start setup).run actions).standing =
        ((start setup).run actions).standing.times (Note.installs i) :=
      kept_run fun before act after split cuts => uncut ⟨before, act, after, split, cuts⟩
    have counted : 0 < ((start setup).run actions).standing.times (Note.installs i) :=
      List.countP_pos_iff.mpr ⟨_, noted, by simp [Note.installs]⟩
    omega
  · rintro ⟨before, act, after, rfl, cuts⟩
    obtain ⟨nowhere, once⟩ := total_cancel (tended_run setup before) cuts
    have tended := (tended_run setup before).move (((start setup).run before).move_step act)
    rw [run_append]
    exact total_run tended nowhere once after

/-- The reload is dropped while it sleeps, then the request lets go, and time passes. -/
theorem dropped_drain_leaks :
    let first : Installation := ⟨2, ⟨1, .trial 1⟩, "trial", 1, .ofMillis 0⟩
    let s := (start .patient).run (untilDrain ++ [.cancel 3, .letGo "held", .elapse 60000])
    .installed first none ∈ s.journal ∧ ¬ s.InUse first ∧ s.Lost first := by
  intro first s
  have installed : .installed first none ∈ s.journal := List.mem_of_getElem? (i := 15) rfl
  have cuts : ((start .patient).run untilDrain).CutsOff (.cancel 3) first :=
    ⟨3, _, rfl, rfl, _, rfl, rfl, nofun⟩
  exact ⟨installed, by decide, (lost_iff_cut_off installed).mpr ⟨untilDrain, _, _, rfl, cuts⟩⟩

end Server

end HotSwap

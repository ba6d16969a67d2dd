import HotSwap.Proofs.Custody.Places
import HotSwap.Proofs.Standing.Run

/-!
# Releasing engines

An engine whose last look found no one referring to it is idle, and stays so: what is in service
is never idle, and what is idle is out of reach. Only an idle engine is released, and only once.
-/

namespace HotSwap

namespace Standing

variable {v w u : Standing} {c : CallId} {a b : Activity} {es : List Note} {i j : Installation}
  {act : Server.Action}

def InSlot (v : Standing) (i : Installation) : Prop := ∃ j ∈ v.slot, j.id = i.id

/-- No one was found to refer to the engine, which is released next or already was. -/
def Idle (v : Standing) (i : Installation) : Prop :=
  0 < v.times (Note.releases i) ∨
    ∃ call ∈ v.calls, ∃ r ∈ call.activity.retirement?,
      r.installation.id = i.id ∧ r.stage = .free

/-! A reference to an engine comes from the slot or from an earlier reference. -/

theorem Goes.held (goes : Goes v c a u es b) (held : j ∈ b.held?) : j ∈ a.held? ∨ j ∈ v.slot := by
  cases goes with
  | hold slot =>
    cases held
    exact .inr slot
  | look => exact .inr held
  | execute | call => exact .inl held
  | sleep hK | wake hK | clear hK | release hK =>
    rw [hK.held?_eq] at held
    cases held
  | _ => cases held

theorem Opens.held (opens : v.Opens a) (held : j ∈ a.held?) : ∃ k ∈ v.kept, k.2 = j := by
  cases opens with
  | execution input kept =>
    cases held
    exact ⟨_, kept, rfl⟩
  | _ => cases held

theorem inUse_of_held {call : Call} (present : call ∈ v.calls) (held : j ∈ call.activity.held?) :
    v.InUse j :=
  .inr (.inl ⟨call, present, j, held, rfl⟩)

theorem inUse_congr (same : j.id = i.id) : v.InUse j ↔ v.InUse i := by
  simp only [InUse, same]

theorem Move.inUse_of_held (moved : v.Move act w) {call : Call} (present : call ∈ w.calls)
    (held : j ∈ call.activity.held?) : v.InUse j := by
  cases moved.comes present with
  | stays known => exact Standing.inUse_of_held known held
  | begins _ opens =>
    obtain ⟨k, kept, rfl⟩ := opens.held held
    exact .inr (.inr ⟨k, kept, rfl⟩)
  | proceeds known goes =>
    rcases goes.held held with earlier | slot
    · exact Standing.inUse_of_held known earlier
    · exact .inl ⟨j, slot, rfl⟩
  | handed _ retires =>
    rw [retires] at held
    cases held
  | completes _ completing =>
    rw [completing] at held
    cases held

theorem Move.kept (moved : v.Move act w) {k : String × Installation} (kept : k ∈ w.kept) :
    k ∈ v.kept ∨ v.slot = some k.2 := by
  cases moved with
  | keep kept' => exact kept' k kept
  | go _ goes => exact .inl (goes.frame.kept ▸ kept)
  | stop _ stops => exact .inl (stops.frame.kept ▸ kept)
  | _ => exact .inl kept

theorem Move.inUse (moved : v.Move act w) (inUse : w.InUse i) : w.InSlot i ∨ v.InUse i := by
  rcases inUse with slot | ⟨call, present, j, held, same⟩ | ⟨k, kept, same⟩
  · exact .inl slot
  · exact .inr ((inUse_congr same).mp (moved.inUse_of_held present held))
  · rcases moved.kept kept with earlier | slot
    · exact .inr (.inr (.inr ⟨k, earlier, same⟩))
    · exact .inr (.inl ⟨k.2, slot, same⟩)

/-! Only an engine that is idle is released, and only one that is in use executes. -/

theorem Goes.free (goes : Goes v c a u es b) {r : Retirement} (retires : r ∈ b.retirement?)
    (free : r.stage = .free) : ¬ v.InUse r.installation := by
  cases goes with
  | clear hK unused =>
    rw [hK.retirement?_eq] at retires
    cases retires
    exact unused
  | sleep hK | wake hK | release hK =>
    rw [hK.retirement?_eq] at retires
    cases retires
    cases free
  | replace | take =>
    cases retires
    cases free
  | _ => cases retires

theorem Goes.releases (goes : Goes v c a u es b) (released : 0 < es.countP (Note.releases i)) :
    ∃ r ∈ a.retirement?, r.installation.id = i.id ∧ r.stage = .free := by
  cases goes with
  | @release K hK j d =>
    refine ⟨⟨j, d, .free⟩, hK.retirement?_eq _, ?_, rfl⟩
    simpa [Note.releases, Nat.pos_iff_ne_zero] using released
  | _ => simp [Note.releases] at released

theorem Stops.releases {x : Answer} (stops : Stops v c a u es x) :
    es.countP (Note.releases i) = 0 := by
  cases stops <;> simp [Note.releases]

theorem Goes.executes (goes : Goes v c a u es b) (executed : 0 < es.countP (Note.executes i)) :
    ∃ j ∈ a.held?, j.id = i.id := by
  cases goes with
  | @execute r input j =>
    refine ⟨j, rfl, ?_⟩
    simpa [Note.executes, Nat.pos_iff_ne_zero] using executed
  | @call input j =>
    refine ⟨j, rfl, ?_⟩
    simpa [Note.executes, Nat.pos_iff_ne_zero] using executed
  | _ => simp [Note.executes] at executed

theorem Stops.executes {x : Answer} (stops : Stops v c a u es x) :
    es.countP (Note.executes i) = 0 := by
  cases stops <;> simp [Note.executes]

theorem Goes.installs (goes : Goes v c a u es b) (i : Installation) :
    es.countP (Note.installs i) = 0 ∨
      es.countP (Note.installs i) = 1 ∧ i.id = v.fresh ∧ u.fresh = v.fresh + 1 := by
  cases goes with
  | replace | install =>
    by_cases new : v.fresh = i.id
    · exact .inr ⟨by simp [Note.installs, new], new.symm, rfl⟩
    · exact .inl (by simp [Note.installs, new])
  | _ => exact .inl (by simp [Note.installs])

theorem Stops.installs {x : Answer} (stops : Stops v c a u es x) :
    es.countP (Note.installs i) = 0 := by
  cases stops <;> simp [Note.installs]

theorem Move.idle_of_releases (moved : v.Move act w)
    (released : v.times (Note.releases i) < w.times (Note.releases i)) : v.Idle i := by
  have plain (n : Note) : n.Clerical → ¬ n.releases i := by
    cases n <;> simp [Note.Clerical, Note.releases]
  rcases moved.times plain with
    same | ⟨c, a, u, es, known, -, counted, ⟨b, goes⟩ | ⟨x, stops⟩⟩
  · omega
  · exact .inr ⟨_, known, goes.releases (by omega)⟩
  · rw [stops.releases] at counted
    omega

theorem Move.inUse_of_executes (moved : v.Move act w)
    (executed : v.times (Note.executes i) < w.times (Note.executes i)) : v.InUse i := by
  have plain (n : Note) : n.Clerical → ¬ n.executes i := by
    cases n <;> simp [Note.Clerical, Note.executes]
  rcases moved.times plain with
    same | ⟨c, a, u, es, known, -, counted, ⟨b, goes⟩ | ⟨x, stops⟩⟩
  · omega
  · exact .inr (.inl ⟨_, known, goes.executes (by omega)⟩)
  · rw [stops.executes] at counted
    omega

theorem Move.installs (moved : v.Move act w) (i : Installation) :
    w.times (Note.installs i) = v.times (Note.installs i) ∨
      w.times (Note.installs i) = v.times (Note.installs i) + 1 ∧ i.id = v.fresh ∧
        v.fresh < w.fresh := by
  have plain (n : Note) : n.Clerical → ¬ n.installs i := by
    cases n <;> simp [Note.Clerical, Note.installs]
  rcases moved.times plain with
    same | ⟨c, a, u, es, known, le, counted, ⟨b, goes⟩ | ⟨x, stops⟩⟩
  · exact .inl same
  · rcases goes.installs i with none | ⟨one, new, next⟩
    · exact .inl (by omega)
    · exact .inr ⟨by omega, new, by omega⟩
  · rw [stops.installs] at counted
    exact .inl (by omega)

theorem Move.idle (moved : v.Move act w) (idle : w.Idle i) : v.Idle i ∨ ¬ v.InUse i := by
  rcases idle with released | ⟨call, present, r, retires, same, free⟩
  · by_cases earlier : 0 < v.times (Note.releases i)
    · exact .inl (.inl earlier)
    · exact .inl (moved.idle_of_releases (by omega))
  · cases moved.comes present with
    | stays known => exact .inl (.inr ⟨call, known, r, retires, same, free⟩)
    | begins _ opens =>
      rw [opens.retirement?_eq] at retires
      cases retires
    | proceeds known goes =>
      exact .inr fun inUse => goes.free retires free ((inUse_congr same).mpr inUse)
    | handed _ handed =>
      rw [handed] at retires
      cases retires
      cases free
    | completes _ completing =>
      rw [completing] at retires
      cases retires

/-- What is installed has a number of its own and is in one place at most, and what is idle is out
of reach. -/
structure Custody (v : Standing) : Prop where
  distinct : v.Distinct
  unused (i : Installation) : v.fresh ≤ i.id → v.times (Note.installs i) = 0
  once (i : Installation) : v.times (Note.installs i) ≤ 1
  accounted (i : Installation) : (Ledger.custody i).total v ≤ v.times (Note.installs i)
  idle (i : Installation) : v.Idle i → ¬ v.InUse i

namespace Custody

/-- What is in the slot was not found out of use. -/
theorem not_idle (accounted : (Ledger.custody i).total v ≤ 1) (slot : v.InSlot i) :
    ¬ v.Idle i := by
  intro idle
  have inSlot : (Ledger.custody i).inSlot v.slot = 1 := if_pos slot
  have counted : 0 < v.tally (·.Pends i) + v.times (Note.releases i) := by
    rcases idle with released | ⟨call, present, r, retires, same, free⟩
    · omega
    · have pends : call.activity.Pends i := ⟨r, retires, same, by rw [free]; exact nofun⟩
      have positive : 0 < v.tally (·.Pends i) :=
        List.countP_pos_iff.mpr ⟨call, present, decide_eq_true pends⟩
      omega
  have total : (Ledger.custody i).total v =
    (Ledger.custody i).inSlot v.slot + v.tally (·.Pends i) + v.times (Note.releases i) := rfl
  omega

theorem move (custody : v.Custody) (moved : v.Move act w) : w.Custody := by
  have once (i : Installation) : w.times (Note.installs i) ≤ 1 := by
    rcases moved.installs i with same | ⟨more, new, -⟩
    · exact same ▸ custody.once i
    · have none := custody.unused i (by omega)
      omega
  have accounted (i : Installation) : (Ledger.custody i).total w ≤ w.times (Note.installs i) :=
    Ledger.sound_custody.total_le custody.distinct moved (custody.accounted i)
  refine ⟨custody.distinct.move moved, ?_, once, accounted, ?_⟩
  · intro i high
    have grown := moved.fresh_le
    have none := custody.unused i (by omega)
    rcases moved.installs i with same | ⟨-, new, next⟩
    · omega
    · omega
  · intro i idle inUse
    rcases moved.inUse inUse with slot | earlier
    · exact not_idle (Nat.le_trans (accounted i) (once i)) slot idle
    · rcases moved.idle idle with idle | unused
      · exact custody.idle i idle earlier
      · exact unused earlier

end Custody

end Standing

namespace Server

open Standing

theorem custody_start (setup : Setup) : (start setup).standing.Custody := by
  constructor
  · exact distinct_run setup []
  · simp
  · simp
  · simp [Ledger.total, Ledger.left, Ledger.custody, Standing.tally]
  · simp [Standing.Idle]

theorem custody_run (setup : Setup) (actions : List Action) :
    ((start setup).run actions).standing.Custody :=
  standing_run actions (custody_start setup) fun moved held => held.move moved

/-- An engine leaves the slot once at most. -/
theorem vacates_once (setup : Setup) (actions : List Action) (i : Installation) :
    ((start setup).run actions).times (Note.vacates i) ≤ 1 := by
  have unlogged (n : Note) : n.vacates i → n.isLine = false := by
    cases n <;> simp [Note.vacates, Note.isLine]
  have kept := standing_run (s := start setup) (P := fun v => v.Custody ∧
    (Ledger.service i).total v ≤ v.times (Note.installs i)) actions ⟨custody_start setup, ?_⟩ ?_
  · obtain ⟨custody, covered⟩ := kept
    have once := custody.once i
    have total : (Ledger.service i).total ((start setup).run actions).standing = _ + _ + _ := rfl
    rw [← standing_times _ unlogged]
    change (Ledger.service i).left _ ≤ 1
    omega
  · simp [Ledger.total, Ledger.left, Ledger.service, Standing.tally]
  · rintro v act w moved ⟨custody, covered⟩
    exact ⟨custody.move moved,
      Ledger.sound_service.total_le custody.distinct moved covered⟩

/-- Once an engine is idle no one refers to it, and none of its executions is to come. -/
theorem idle_run {s : Server} (custody : s.standing.Custody) {i : Installation}
    (idle : 0 < s.standing.times (Note.releases i)) (actions : List Action) :
    ¬ (s.run actions).InUse i ∧
      (s.run actions).standing.times (Note.executes i) = s.standing.times (Note.executes i) := by
  have kept := standing_run (s := s) (P := fun v => v.Custody ∧ 0 < v.times (Note.releases i) ∧
    v.times (Note.executes i) = s.standing.times (Note.executes i)) actions ⟨custody, idle, rfl⟩ ?_
  · obtain ⟨after, released, same⟩ := kept
    exact ⟨after.idle i (.inl released), same⟩
  · rintro v act w moved ⟨before, released, same⟩
    have unused := before.idle i (.inl released)
    have none : ¬ v.times (Note.executes i) < w.times (Note.executes i) :=
      fun executed => unused (moved.inUse_of_executes executed)
    have grown := moved.times_le (Note.executes i)
    have still := moved.times_le (Note.releases i)
    exact ⟨before.move moved, by omega, by omega⟩

/-- Engines drain before they are released. Whatever runs, an engine is released once at most, and
when it is, neither the slot nor any request refers to it, then or ever after, and it executes
nothing more. -/
theorem released_once_and_idle (setup : Setup) (before : List Action) (act : Action)
    (after : List Action) (i : Installation) :
    let s := (start setup).run before
    let t := s.step act
    let u := t.run after
    u.times (Note.releases i) ≤ 1 ∧
      (s.times (Note.releases i) < t.times (Note.releases i) →
        ¬ s.InUse i ∧ ¬ t.InUse i ∧ ¬ u.InUse i ∧
          u.times (Note.executes i) = s.times (Note.executes i)) := by
  intro s t u
  have unlogged (n : Note) :
      (n.releases i → n.isLine = false) ∧ (n.executes i → n.isLine = false) := by
    cases n <;> simp [Note.releases, Note.executes, Note.isLine]
  have releases (s : Server) := s.standing_times fun n => (unlogged n).1
  have executes (s : Server) := s.standing_times fun n => (unlogged n).2
  have custody : s.standing.Custody := custody_run setup before
  have moved : s.standing.Move act t.standing := s.move_step act
  have next : t.standing.Custody := custody.move moved
  constructor
  · have last : u.standing.Custody :=
      standing_run after next fun moved held => held.move moved
    have accounted := last.accounted i
    have once := last.once i
    have total : (Ledger.custody i).total u.standing = (Ledger.custody i).inSlot u.slot +
      u.standing.tally (·.Pends i) + u.standing.times (Note.releases i) := rfl
    rw [releases] at total
    omega
  · intro released
    rw [← releases s, ← releases t] at released
    have idle := moved.idle_of_releases released
    have unused := custody.idle i idle
    have none : ¬ s.standing.times (Note.executes i) < t.standing.times (Note.executes i) :=
      fun executed => unused (moved.inUse_of_executes executed)
    have grown := moved.times_le (Note.executes i)
    obtain ⟨later, same⟩ : ¬ u.InUse i ∧
        u.standing.times (Note.executes i) = t.standing.times (Note.executes i) :=
      idle_run next (by omega) after
    rw [← executes s, ← executes u]
    exact ⟨unused, next.idle i (.inl (by omega)), later, by omega⟩

/-- The second of two reloads is about to release the engine that the first one installed. -/
theorem reload_releases_idle :
    let twice := .demand .reload :: proceeds 7 0 ++ .demand .reload :: proceeds 7 3
    let first : Installation := ⟨2, ⟨1, .trial 1⟩, "trial", 1, .ofMillis 0⟩
    let s := (start (.trial fun generation => .made (.trial generation))).run twice
    let t := s.step (.proceed 3)
    s.times (Note.releases first) < t.times (Note.releases first) ∧ ¬ t.InUse first := by
  intro twice first s t
  have released : s.times (Note.releases first) < t.times (Note.releases first) := by decide
  exact ⟨released, ((released_once_and_idle _ twice (.proceed 3) [] first).2 released).2.1⟩

end Server

end HotSwap

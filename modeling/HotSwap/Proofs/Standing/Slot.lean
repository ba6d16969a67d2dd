import HotSwap.Proofs.Standing.Run

/-!
# The slot and the generations

Only a reload that passes the guard takes a generation, and only an attempt that installs what it
made and a shutdown that takes what is there change the slot. All three are noted.
-/

namespace HotSwap

/-- A generation is taken, or the slot is filled or emptied. -/
def Note.Shifts : Note → Prop
  | .begun _ _ | .installed _ _ | .taken _ => True
  | _ => False

/-- What was made is installed. -/
def Reload.Stage.Late : Reload.Stage → Prop
  | .retiring _ _ _ | .completing _ _ _ => True
  | _ => False

namespace Standing

variable {v w u : Standing} {c : CallId} {a b : Activity} {es : List Note} {x : Answer}
  {act : Server.Action}

/-- What a move is to the slot and the generations. -/
inductive Shift (v : Standing) : Server.Action → Standing → Prop
  | still {act : Server.Action} {w : Standing} (slot : w.slot = v.slot)
      (next : w.nextGeneration = v.nextGeneration)
      (plain : ∃ ns, w.history = ns ++ v.history ∧ ∀ n ∈ ns, ¬ n.Shifts) : Shift v act w
  | enter {c : CallId} {o : Origin} {w : Standing} (known : ⟨c, .reload o .arriving⟩ ∈ v.calls)
      (slot : w.slot = v.slot) (next : w.nextGeneration = v.nextGeneration + 1)
      (noted : w.history = .begun c v.nextGeneration :: v.history)
      (entered : ∀ a, ⟨c, a⟩ ∈ w.calls →
        ∃ t : Attempt, a = .reload o (.numbered t) ∧ t.generation = v.nextGeneration) :
      Shift v (.proceed c) w
  | install {c : CallId} {o : Origin} {t : Attempt} {p : String} {product : Product}
      {i : Installation} {w : Standing}
      (known : ⟨c, .reload o (.installing t p product)⟩ ∈ v.calls)
      (generation : i.generation = t.generation) (slot : w.slot = some i)
      (next : w.nextGeneration = v.nextGeneration)
      (noted : w.history = .installed i v.slot :: v.history)
      (late : ∃ stage, ⟨c, .reload o stage⟩ ∈ w.calls ∧ stage.Late) : Shift v (.proceed c) w
  | take {c : CallId} {i : Installation} {w : Standing} (known : ⟨c, .shutdown .queued⟩ ∈ v.calls)
      (slot : v.slot = some i) (empty : w.slot = none)
      (next : w.nextGeneration = v.nextGeneration)
      (noted : w.history = .taken i :: v.history) : Shift v (.proceed c) w

theorem Goes.shift (goes : Goes v c a u es b) (known : ⟨c, a⟩ ∈ v.calls) :
    v.Shift (.proceed c) ((u.notes es).proceedTo c b) := by
  have grown : ((u.notes es).proceedTo c b).history = es ++ v.history :=
    congrArg (es ++ ·) goes.frame.history
  have there : ⟨c, b⟩ ∈ ((u.notes es).proceedTo c b).calls :=
    mem_proceedTo (v := u.notes es) (goes.frame.calls ▸ known)
  cases goes with
  | enter =>
    refine .enter known rfl rfl grown fun a present => ?_
    rcases mem_calls_proceedTo.mp present with ⟨-, other⟩ | ⟨same, -⟩
    · exact absurd rfl other
    · cases same
      exact ⟨_, rfl, rfl⟩
  | replace slot =>
    exact .install known rfl rfl rfl (by rw [slot]; exact grown) ⟨_, there, trivial⟩
  | install slot =>
    exact .install known rfl rfl rfl (by rw [slot]; exact grown) ⟨_, there, trivial⟩
  | take holds slot => exact .take known slot rfl rfl grown
  | _ => exact .still rfl rfl ⟨_, grown, by simp [Note.Shifts]⟩

theorem Stops.still (stops : Stops v c a u es x) :
    u.slot = v.slot ∧ u.nextGeneration = v.nextGeneration ∧ ∀ n ∈ es, ¬ n.Shifts := by
  cases stops <;> exact ⟨rfl, rfl, by simp [Note.Shifts]⟩

theorem Move.shift (moved : v.Move act w) : v.Shift act w := by
  cases moved with
  | rest => exact .still rfl rfl ⟨[], rfl, List.forall_mem_nil _⟩
  | number => exact .still rfl rfl ⟨[], rfl, List.forall_mem_nil _⟩
  | keep => exact .still rfl rfl ⟨[], rfl, List.forall_mem_nil _⟩
  | @start _ a => exact .still rfl rfl ⟨[.called v.fresh a], rfl, by simp [Note.Shifts]⟩
  | @cut c => exact .still rfl rfl ⟨[.ended c .cancelled], rfl, by simp [Note.Shifts]⟩
  | go known goes => exact goes.shift known
  | @stop c a u es x known stops =>
    obtain ⟨slot, next, plain⟩ := stops.still
    have grown := congrArg (.ended c x :: es ++ ·) stops.frame.history
    exact .still slot next ⟨.ended c x :: es, grown, List.forall_mem_cons.mpr ⟨id, plain⟩⟩
  | @leave c o a p i =>
    exact .still rfl rfl ⟨[.called v.fresh (.retirement ⟨i, none, .polling⟩)], rfl,
      by simp [Note.Shifts]⟩
  | @leaveAll c K _ _ i =>
    exact .still rfl rfl ⟨[.ended c .done, .called v.fresh (.retirement ⟨i, none, .polling⟩)], rfl,
      by simp [Note.Shifts]⟩

theorem Shift.next_le (shift : v.Shift act w) : v.nextGeneration ≤ w.nextGeneration := by
  cases shift with
  | still _ next | install _ _ _ next | take _ _ _ next => exact Nat.le_of_eq next.symm
  | enter _ _ next => exact next ▸ Nat.le_succ _

/-- What is in the slot was installed. -/
def Stocked (v : Standing) : Prop := ∀ i, v.slot = some i → ∃ prev, .installed i prev ∈ v.history

theorem Stocked.move (stocked : v.Stocked) (moved : v.Move act w) : w.Stocked := by
  intro i slot
  cases moved.shift with
  | still same | enter _ same =>
    obtain ⟨prev, noted⟩ := stocked i (same ▸ slot)
    exact ⟨prev, moved.suffix.subset noted⟩
  | install _ _ installed _ noted =>
    cases installed.symm.trans slot
    exact ⟨v.slot, noted ▸ List.mem_cons_self⟩
  | take _ _ empty =>
    rw [empty] at slot
    cases slot

end Standing

theorem Server.next_le_run (s : Server) (actions : List Server.Action) :
    s.nextGeneration ≤ (s.run actions).nextGeneration :=
  Server.standing_run (P := fun v => s.nextGeneration ≤ v.nextGeneration) actions (Nat.le_refl _)
    fun moved held => Nat.le_trans held moved.shift.next_le

theorem Server.stocked_run (setup : Setup) (actions : List Server.Action) :
    ((Server.start setup).run actions).standing.Stocked :=
  Server.standing_run (P := Standing.Stocked) actions (fun _ slot => by cases slot)
    fun moved held => held.move moved

end HotSwap

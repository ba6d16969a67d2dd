import HotSwap.Proofs.Admission.Line
import HotSwap.Proofs.Custody.Ownership

/-!
# Waiting for the guard

A shutdown waits behind those who contend for the guard, and takes what it finds in the slot when it
is its turn. All behind the first in line are shutdowns, and as long as none of them is cut off they
go on in that order.
-/

namespace HotSwap

namespace Guard

variable {g : Guard} {c : CallId} {rest : List CallId}

/-- The first in line holds the guard. -/
theorem Tight.holder_eq (tight : g.Tight) : g.holder = g.line.head? := by
  cases holds : g.holder with
  | some d => simp [line, holds]
  | none => simp [line, holds, tight holds]

theorem line_of_holder (holds : g.holder = some c) : g.line = c :: g.queue := by
  simp [line, holds]

end Guard

namespace Activity

/-- A shutdown was called and has not returned. It is called with its first step. -/
def ShutsDown : Activity → Prop
  | .shutdown .arriving => False
  | .shutdown _ => True
  | _ => False

/-- A reload is past the guard. -/
def Reloads : Activity → Prop
  | .reload _ .arriving => False
  | .reload _ _ => True
  | _ => False

variable {a : Activity}

theorem Contends.handles (contends : a.Contends) : a.Handles := by
  rcases contends with rfl | inside
  · trivial
  · cases a with
    | reload | shutdown => trivial
    | _ => exact inside.elim

theorem ShutsDown.contends (shuts : a.ShutsDown) : a.Contends := by
  cases a with
  | shutdown stage =>
    cases stage with
    | arriving => exact shuts.elim
    | queued => exact .inl rfl
    | retiring r => exact .inr trivial
  | _ => exact shuts.elim

theorem Reloads.inside (reloads : a.Reloads) : a.Inside := by
  cases a with
  | reload o stage =>
    cases stage with
    | arriving => exact reloads.elim
    | _ => trivial
  | _ => exact reloads.elim

theorem Contends.queued (contends : a.Contends) (outside : ¬ a.Inside) : a = .shutdown .queued :=
  contends.resolve_right outside

end Activity

namespace Standing

variable {v w u : Standing} {c d : CallId} {a b : Activity} {es : List Note} {x : Answer}
  {act : Server.Action}

/-- The action cuts off no call that handles engines. -/
def Sparing (v : Standing) (act : Server.Action) : Prop :=
  ∀ c a, act = .cancel c → ⟨c, a⟩ ∈ v.calls → ¬ a.Handles

/-! ## What a call goes on with -/

/-- The call is known, and what it is at has the property until it ends. -/
structure Since (p : Activity → Prop) (v : Standing) (c : CallId) : Prop where
  early : c < v.fresh
  holds : ∀ a, ⟨c, a⟩ ∈ v.calls → p a

variable {p : Activity → Prop}

theorem Distinct.since (distinct : v.Distinct) (known : ⟨c, a⟩ ∈ v.calls) (held : p a) :
    v.Since p c where
  early := distinct.lt_fresh _ known
  holds _ present := distinct.activity_eq known present ▸ held

theorem Since.move (since : v.Since p c) (moved : v.Move act w)
    (go : ∀ {a u es b}, Goes v c a u es b → p a → p b)
    (complete : ∀ {o t q i d}, p (.reload o (.retiring t q ⟨i, d, .polling⟩)) →
      p (.reload o (.completing t q (some i.generation)))) : w.Since p c := by
  refine ⟨Nat.lt_of_lt_of_le since.early moved.fresh_le, fun a present => ?_⟩
  cases moved.comes present with
  | stays known => exact since.holds a known
  | begins new | handed new => exact absurd new (Nat.ne_of_lt since.early)
  | proceeds known goes => exact go goes (since.holds _ known)
  | completes known completing =>
    cases completing
    exact complete (since.holds _ known)

theorem Goes.shutsDown (goes : Goes v c a u es b) (shuts : a.ShutsDown) : b.ShutsDown := by
  cases goes with
  | take => trivial
  | sleep hK | wake hK | clear hK | release hK =>
    cases hK with
    | shutdown => trivial
    | _ => exact shuts.elim
  | _ => exact shuts.elim

theorem Goes.reloads (goes : Goes v c a u es b) (reloads : a.Reloads) : b.Reloads := by
  cases goes with
  | sleep hK | wake hK | clear hK | release hK =>
    cases hK with
    | reload => trivial
    | _ => exact reloads.elim
  | mark | misfind | misconstruct | construct | ask | misask | obtain | replace | install |
    released => trivial
  | _ => exact reloads.elim

theorem Since.shutsDown (since : v.Since Activity.ShutsDown c) (moved : v.Move act w) :
    w.Since Activity.ShutsDown c :=
  since.move moved (fun goes => goes.shutsDown) fun retires => retires.elim

theorem Since.reloads (since : v.Since Activity.Reloads c) (moved : v.Move act w) :
    w.Since Activity.Reloads c :=
  since.move moved (fun goes => goes.reloads) fun _ => trivial

/-! ## Shutdowns in line -/

theorem Goes.of_queued (goes : Goes v c (.shutdown .queued) u es b) :
    v.guard.holder = some c ∧ ∃ i d, v.slot = some i ∧ u = { v with slot := none } ∧
      es = [.taken i] ∧ b = .shutdown (.retiring ⟨i, d, .polling⟩) := by
  generalize queued : Activity.shutdown .queued = a at goes
  cases goes with
  | take holds slot => exact ⟨holds, _, _, slot, rfl, rfl, rfl⟩
  | sleep hK | wake hK | clear hK | release hK => cases hK <;> cases queued
  | _ => cases queued

theorem Stops.of_queued (stops : Stops v c (.shutdown .queued) u es x) :
    v.guard.holder = some c ∧ v.slot = none ∧ u = v ∧ es = [] ∧ x = .done := by
  generalize queued : Activity.shutdown .queued = a at stops
  cases stops with
  | vacant holds empty => exact ⟨holds, empty, rfl, rfl, rfl⟩
  | releasePanic hK => cases hK <;> cases queued
  | _ => cases queued

/-- A shutdown is called, and later goes on with what was in the slot. -/
theorem Goes.to_shutdown {stage : Shutdown.Stage} (goes : Goes v c a u es (.shutdown stage)) :
    a = .shutdown .arriving ∧ stage = .queued ∨
      ∃ r, stage = .retiring r ∧
        (u.slot = none ∨ u.slot = v.slot ∧ ∃ r', a = .shutdown (.retiring r')) := by
  generalize shuts : Activity.shutdown stage = b at goes
  cases goes with
  | join =>
    cases shuts
    exact .inl ⟨rfl, rfl⟩
  | take =>
    cases shuts
    exact .inr ⟨_, rfl, .inl rfl⟩
  | sleep hK | wake hK | clear hK | release hK =>
    cases hK with
    | shutdown =>
      cases shuts
      exact .inr ⟨_, rfl, .inr ⟨rfl, _, rfl⟩⟩
    | _ => cases shuts
  | _ => cases shuts

/-- A shutdown that waits was called before. -/
theorem Move.was_queued (moved : v.Move act w) (since : v.Since Activity.ShutsDown c)
    (waits : ⟨c, .shutdown .queued⟩ ∈ w.calls) : ⟨c, .shutdown .queued⟩ ∈ v.calls := by
  cases moved.comes waits with
  | stays known => exact known
  | begins new | handed new => exact absurd new (Nat.ne_of_lt since.early)
  | completes _ completing => cases completing
  | proceeds known goes =>
    rcases goes.to_shutdown with ⟨rfl, -⟩ | ⟨r, retires, -⟩
    · exact (since.holds _ known).elim
    · cases retires

/-- What becomes of a shutdown that waits: it takes what is in the slot when it is its turn. -/
inductive Waiting (v : Standing) (c : CallId) : Server.Action → Standing → Prop
  | waits {act : Server.Action} {w : Standing} (known : ⟨c, .shutdown .queued⟩ ∈ w.calls) :
      Waiting v c act w
  | takes {i : Installation} {d : Option Time} (holds : v.guard.holder = some c)
      (slot : v.slot = some i) :
      Waiting v c (.proceed c) ((({ v with slot := none } : Standing).notes [.taken i]).proceedTo c
        (.shutdown (.retiring ⟨i, d, .polling⟩)))
  | returns (holds : v.guard.holder = some c) (empty : v.slot = none) :
      Waiting v c (.proceed c) (v.finish c .done)
  | cut : Waiting v c (.cancel c) (v.finish c .cancelled)

theorem Move.waiting (moved : v.Move act w) (distinct : v.Distinct)
    (known : ⟨c, .shutdown .queued⟩ ∈ v.calls) : v.Waiting c act w := by
  cases moved with
  | rest | number | keep => exact .waits known
  | start => exact .waits (mem_calls_begin.mpr (.inl known))
  | @cut d a present =>
    by_cases same : d = c
    · subst same
      exact .cut
    · exact .waits (mem_calls_finish.mpr ⟨known, Ne.symm same⟩)
  | @go d a b u es present goes =>
    by_cases same : d = c
    · subst same
      cases distinct.activity_eq known present
      obtain ⟨holds, i, deadline, slot, rfl, rfl, rfl⟩ := goes.of_queued
      exact .takes holds slot
    · have there : ⟨c, .shutdown .queued⟩ ∈ (u.notes es).calls := goes.frame.calls ▸ known
      exact .waits (mem_calls_proceedTo.mpr (.inl ⟨there, Ne.symm same⟩))
  | @stop d a u es x present stops =>
    by_cases same : d = c
    · subst same
      cases distinct.activity_eq known present
      obtain ⟨holds, empty, rfl, rfl, rfl⟩ := stops.of_queued
      exact .returns holds empty
    · have there : ⟨c, .shutdown .queued⟩ ∈ (u.notes es).calls := stops.frame.calls ▸ known
      exact .waits (mem_calls_finish.mpr ⟨there, Ne.symm same⟩)
  | @leave d o t p i deadline present =>
    have other : c ≠ d := by
      rintro rfl
      cases distinct.activity_eq known present
    exact .waits (mem_calls_proceedTo.mpr (.inl ⟨mem_calls_begin.mpr (.inl known), other⟩))
  | @leaveAll d K hK outside i deadline present =>
    have other : c ≠ d := by
      rintro rfl
      cases hK <;> cases distinct.activity_eq known present
    exact .waits (mem_calls_finish.mpr ⟨mem_calls_begin.mpr (.inl known), other⟩)

/-- A shutdown waits until it is its turn. -/
theorem Move.waits (moved : v.Move act w) (distinct : v.Distinct) (sparing : v.Sparing act)
    (known : ⟨c, .shutdown .queued⟩ ∈ v.calls) (behind : v.guard.holder ≠ some c) :
    ⟨c, .shutdown .queued⟩ ∈ w.calls := by
  cases moved.waiting distinct known with
  | waits there => exact there
  | takes holds | returns holds => exact absurd holds behind
  | cut => exact absurd trivial (sparing c _ rfl known)

/-- While it is the turn of a shutdown that has not gone on yet, the slot stays as it is. -/
theorem Move.keeps_turn (moved : v.Move act w) (distinct : v.Distinct) (guarded : v.Guarded)
    (holds : v.guard.holder = some c) (known : ⟨c, .shutdown .queued⟩ ∈ v.calls)
    (waits : ⟨c, .shutdown .queued⟩ ∈ w.calls) :
    w.slot = v.slot ∧ w.guard.holder = some c := by
  have gone {u : Standing} {x : Answer} : ⟨c, .shutdown .queued⟩ ∉ (u.finish c x).calls :=
    fun there => (mem_calls_finish.mp there).2 rfl
  have after := distinct.move moved
  cases moved.turn distinct guarded holds known with
  | aside aside => exact ⟨aside.slot, aside.holder⟩
  | @go u es b goes =>
    have present : ⟨c, b⟩ ∈ ((u.notes es).proceedTo c b).calls :=
      mem_proceedTo (v := u.notes es) (goes.frame.calls ▸ known)
    obtain ⟨-, i, deadline, -, -, -, rfl⟩ := goes.of_queued
    cases after.activity_eq waits present
  | stop => exact absurd waits gone
  | cut => exact absurd waits gone
  | leave retires => cases retires
  | leaveAll => exact absurd waits gone

/-! ## The order of the line -/

/-- A shutdown that found an engine leaves the slot empty until it returns. -/
def Emptied (v : Standing) : Prop :=
  ∀ c r, ⟨c, .shutdown (.retiring r)⟩ ∈ v.calls → v.slot = none

theorem Emptied.move (emptied : v.Emptied) (distinct : v.Distinct) (guarded : v.Guarded)
    (moved : v.Move act w) : w.Emptied := by
  intro c r present
  cases moved.comes present with
  | stays known =>
    cases moved.shift with
    | still slot | enter _ slot => exact slot.trans (emptied c r known)
    | install installing =>
      cases guarded.unique installing trivial known trivial
      cases distinct.activity_eq installing known
    | take _ _ empty => exact empty
  | begins _ opens => cases opens
  | proceeds known goes same =>
    subst same
    rcases goes.to_shutdown with ⟨-, waits⟩ | ⟨r', -, empty | ⟨still, r', rfl⟩⟩
    · cases waits
    · exact empty
    · exact still.trans (emptied c r' known)
  | handed _ retires => cases retires
  | completes _ completing => cases completing

/-- What is so of the guard and its line wherever a run gets to. -/
structure Orderly (v : Standing) : Prop where
  lined : v.Lined
  guarded : v.Guarded
  emptied : v.Emptied

theorem Orderly.move (orderly : v.Orderly) (moved : v.Move act w) : w.Orderly where
  lined := orderly.lined.move moved
  guarded := orderly.guarded.move moved
  emptied := orderly.emptied.move orderly.lined.distinct orderly.guarded moved

/-- All behind the first in line are shutdowns that wait. -/
theorem Orderly.waits (orderly : v.Orderly) (there : c ∈ v.guard.queue) :
    ⟨c, .shutdown .queued⟩ ∈ v.calls ∧ v.guard.holder ≠ some c := by
  have behind : v.guard.holder ≠ some c := by
    intro holds
    have nodup := orderly.lined.nodup
    rw [Guard.line_of_holder holds] at nodup
    exact (List.nodup_cons.mp nodup).1 there
  obtain ⟨a, known, contends⟩ := (orderly.lined.mem_line c).mp (List.mem_append_right _ there)
  have outside : ¬ a.Inside := fun inside => behind (orderly.guarded _ known inside)
  exact ⟨contends.queued outside ▸ known, behind⟩

/-- What a move is to the line at the guard if it cuts no one off. -/
inductive Lining (v w : Standing) : Prop
  | stays (line : w.guard.line = v.guard.line)
  | joins {c : CallId} (line : w.guard.line = v.guard.line ++ [c])
  | leaves {c : CallId} (holds : v.guard.holder = some c) (line : w.guard.line = v.guard.queue)
      (gone : ∀ a, ⟨c, a⟩ ∉ w.calls)

theorem Stops.turn (stops : Stops v c a u es x) (guarded : v.Guarded) (known : ⟨c, a⟩ ∈ v.calls)
    (contends : a.Contends) : v.guard.holder = some c := by
  rcases contends with rfl | inside
  · exact stops.of_queued.1
  · exact guarded _ known inside

/-- Who ends was the first in line, or not in line at all. -/
theorem Lined.lining_finish (lined : v.Lined) (known : ⟨c, a⟩ ∈ v.calls)
    (turn : a.Contends → v.guard.holder = some c) (same : u.guard = v.guard) :
    Lining v (u.finish c x) := by
  have left : (u.finish c x).guard = v.guard.leave c := congrArg (Guard.leave · c) same
  by_cases contends : a.Contends
  · have holds := turn contends
    refine .leaves holds ?_ fun b there => (mem_calls_finish.mp there).2 rfl
    rw [left, Guard.line_leave, Guard.line_of_holder holds, List.erase_cons_head]
  · have outside : c ∉ v.guard.line := fun there =>
      contends ((lined.distinct.contender_iff known).mp ((lined.mem_line c).mp there))
    exact .stays (by rw [left, Guard.leave_of_not_mem outside])

theorem Move.lining (moved : v.Move act w) (orderly : v.Orderly) (sparing : v.Sparing act) :
    Lining v w := by
  obtain ⟨lined, guarded, -⟩ := orderly
  cases moved with
  | rest | number | keep | start | leave => exact .stays rfl
  | @cut c a known =>
    refine lined.lining_finish known (fun contends => ?_) rfl
    exact absurd contends.handles (sparing c a rfl known)
  | go known goes =>
    obtain ⟨-, ⟨line, -⟩ | ⟨line, -, -⟩⟩ := goes.line lined.tight
    · exact .stays line
    · exact .joins line
  | stop known stops => exact lined.lining_finish known (stops.turn guarded known) stops.guard
  | @leaveAll c K hK outside i d known =>
    refine lined.lining_finish known (fun contends => ?_) rfl
    cases hK with
    | reload => exact absurd rfl (outside _ _ ⟨i, d, .polling⟩)
    | shutdown => exact guarded _ known trivial
    | background => exact (contends.elim nofun id).elim

/-! ## The end of a shutdown -/

/-- Once the call inside has ended no one is. -/
theorem Guarded.none_inside (guarded : v.Guarded) (holds : v.guard.holder = some c)
    (earlier : ∀ call ∈ u.calls, call.activity.Inside → call ∈ v.calls) :
    ∀ call ∈ (u.finish c x).calls, ¬ call.activity.Inside := by
  intro call present inside
  obtain ⟨there, other⟩ := mem_calls_finish.mp present
  have inside' := guarded call (earlier call there inside) inside
  exact other (Option.some.inj (inside'.symm.trans holds))

/-- When a shutdown returns the slot is empty, and no reload is past the guard. -/
theorem Move.returned (moved : v.Move act w) (orderly : v.Orderly) (sparing : v.Sparing act)
    (known : ⟨c, a⟩ ∈ v.calls) (shuts : a.ShutsDown) (gone : ∀ b, ⟨c, b⟩ ∉ w.calls) :
    w.slot = none ∧ ∀ call ∈ w.calls, ¬ call.activity.Inside := by
  obtain ⟨lined, guarded, emptied⟩ := orderly
  obtain ⟨stage, rfl⟩ : ∃ stage, a = .shutdown stage := by
    cases a with
    | shutdown stage => exact ⟨stage, rfl⟩
    | _ => exact shuts.elim
  cases stage with
  | arriving => exact shuts.elim
  | queued =>
    cases moved.waiting lined.distinct known with
    | waits there => exact absurd there (gone _)
    | takes => exact (gone _ (mem_proceedTo known)).elim
    | returns holds empty => exact ⟨empty, guarded.none_inside holds fun _ there _ => there⟩
    | cut => exact absurd shuts.contends.handles (sparing c _ rfl known)
  | retiring r =>
    have empty := emptied c r known
    have holds : v.guard.holder = some c := guarded _ known trivial
    cases moved.turn lined.distinct guarded holds known with
    | aside _ there => exact absurd there (gone _)
    | @go u es b goes =>
      have present : ⟨c, b⟩ ∈ ((u.notes es).proceedTo c b).calls :=
        mem_proceedTo (v := u.notes es) (goes.frame.calls ▸ known)
      exact absurd present (gone _)
    | stop stops =>
      exact ⟨stops.still.1.trans empty,
        guarded.none_inside holds fun _ there _ => stops.frame.calls ▸ there⟩
    | cut => exact ⟨empty, guarded.none_inside holds fun _ there _ => there⟩
    | leave retires => cases retires
    | leaveAll =>
      refine ⟨empty, guarded.none_inside holds fun call there inside => ?_⟩
      rcases mem_calls_begin.mp there with earlier | rfl
      · exact earlier
      · exact inside.elim

/-! ## Behind another shutdown -/

/-- Another shutdown is ahead of this one, or the slot is empty by its turn. -/
def Behind (v : Standing) (c : CallId) : Prop :=
  ∃ front back, v.guard.line = front ++ c :: back ∧ (front = [] → v.slot = none) ∧
    ∀ d, front = [d] → v.Since Activity.ShutsDown d

theorem Behind.empty (behind : v.Behind c) (orderly : v.Orderly) (holds : v.guard.holder = some c) :
    v.slot = none := by
  obtain ⟨front, back, line, empty, -⟩ := behind
  cases front with
  | nil => exact empty rfl
  | cons d front =>
    have nodup := orderly.lined.nodup
    rw [Guard.line_of_holder holds] at line nodup
    obtain ⟨same, rest⟩ := List.cons.inj line
    exact absurd (rest ▸ List.mem_append_right _ List.mem_cons_self) (List.nodup_cons.mp nodup).1

theorem Behind.move (behind : v.Behind c) (orderly : v.Orderly) (moved : v.Move act w)
    (sparing : v.Sparing act) (known : ⟨c, .shutdown .queued⟩ ∈ v.calls)
    (waits : ⟨c, .shutdown .queued⟩ ∈ w.calls) : w.Behind c := by
  obtain ⟨front, back, line, empty, shuts⟩ := behind
  have distinct := orderly.lined.distinct
  have stays (d : CallId) (first : front = [d]) : w.Since Activity.ShutsDown d :=
    (shuts d first).shutsDown moved
  have still (first : front = []) : w.slot = none := by
    have holds : v.guard.holder = some c := by
      rw [orderly.lined.tight.holder_eq, line, first]
      rfl
    rw [(moved.keeps_turn distinct orderly.guarded holds known waits).1]
    exact empty first
  cases moved.lining orderly sparing with
  | stays same => exact ⟨front, back, same.trans line, still, stays⟩
  | @joins d later =>
    refine ⟨front, back ++ [d], ?_, still, stays⟩
    rw [later, line, List.append_assoc, List.cons_append]
  | @leaves d holds later gone =>
    rw [Guard.line_of_holder holds] at line
    cases front with
    | nil =>
      -- who goes on to wait has not left
      obtain ⟨rfl, -⟩ := List.cons.inj line
      exact absurd waits (gone _)
    | cons first front =>
      obtain ⟨rfl, rest⟩ := List.cons.inj line
      refine ⟨front, back, later.trans rest, ?_, ?_⟩
      · rintro rfl
        obtain ⟨a, present, -⟩ :=
          (orderly.lined.mem_line d).mp (Guard.mem_line_of_holder holds)
        exact (moved.returned orderly sparing present ((shuts d rfl).holds a present) gone).1
      · rintro e rfl
        have there : e ∈ v.guard.queue := rest ▸ List.mem_cons_self
        obtain ⟨queued, behind⟩ := orderly.waits there
        exact (distinct.move moved).since (moved.waits distinct sparing queued behind) trivial

/-- When the call inside ends, it is the turn of the first that waits. -/
theorem Move.hands_over (moved : v.Move act w) (orderly : v.Orderly) (sparing : v.Sparing act)
    (holds : v.guard.holder = some d) (gone : ∀ a, ⟨d, a⟩ ∉ w.calls)
    (next : v.guard.queue.head? = some c) :
    w.guard.holder = some c ∧ ⟨c, .shutdown .queued⟩ ∈ w.calls := by
  have after := orderly.move moved
  obtain ⟨queued, behind⟩ := orderly.waits (List.mem_of_mem_head? next)
  refine ⟨?_, moved.waits orderly.lined.distinct sparing queued behind⟩
  have left : d ∉ w.guard.line := by
    intro there
    obtain ⟨a, present, -⟩ := (after.lined.mem_line d).mp there
    exact gone a present
  have first : d ∈ v.guard.line := Guard.mem_line_of_holder holds
  cases moved.lining orderly sparing with
  | stays line => exact absurd (line ▸ first) left
  | joins line => exact absurd (line ▸ List.mem_append_left _ first) left
  | leaves _ line => rw [after.lined.tight.holder_eq, line, next]

end Standing

namespace Server

open Standing

variable {s : Server} {act : Action} {actions : List Action}

theorem orderly_run (setup : Setup) (actions : List Action) :
    ((start setup).run actions).standing.Orderly := by
  refine standing_run (P := Standing.Orderly) actions ?_ fun moved held => held.move moved
  exact ⟨lined_run setup [], guarded_run setup [], fun c r known => absurd known List.not_mem_nil⟩

theorem sparing_of_spares (distinct : s.standing.Distinct) (spares : s.Spares act) :
    s.standing.Sparing act := by
  rintro c a rfl known
  exact spares a (activity?_of_mem distinct known)

/-- What stays so as long as no call that handles engines is cut off. -/
theorem uncut_run {P : Server → Prop} (orderly : s.standing.Orderly) (uncut : s.Uncut actions)
    (base : P s) (kept : ∀ {u act}, u.standing.Orderly → u.standing.Sparing act → P u →
      P (u.step act)) : P (s.run actions) := by
  refine (run_induction (P := fun u => u.standing.Orderly ∧ P u) actions ⟨orderly, base⟩ ?_).2
  rintro before act after split ⟨orderly, held⟩
  have spares : (s.run before).Spares act := spares_of_uncut (split ▸ uncut)
  exact ⟨orderly.move (move_step _ act),
    kept orderly (sparing_of_spares orderly.lined.distinct spares) held⟩

end Server

end HotSwap

import HotSwap.Proofs.Standing.Run

/-!
# Inside the guard

A reload past its arrival and a shutdown that empties the slot hold the guard, so that there is one
of them at a time. The slot, the status and the next generation change by the hands of that call.
-/

namespace HotSwap

namespace Guard

variable {g : Guard} {c d : CallId}

theorem holder_leave (holds : g.holder = some d) (other : d ≠ c) : (g.leave c).holder = some d := by
  have free : g.holder ≠ some c := fun same => other (Option.some.inj (holds.symm.trans same))
  rw [leave, if_neg free, holds]

theorem holder_join (holds : g.holder = some d) : (g.join c).holder = some d := by
  simp [join, holds]

theorem enter?_eq {inside : Guard} (enters : g.enter? c = some inside) :
    g.holder = none ∧ inside.holder = some c := by
  unfold enter? at enters
  split at enters
  · next free =>
    cases enters
    exact ⟨free.1, rfl⟩
  · cases enters

end Guard

/-- The call is past the guard. -/
def Activity.Inside : Activity → Prop
  | .reload _ .arriving => False
  | .reload _ _ => True
  | .shutdown (.retiring _) => True
  | _ => False

/-- What others note while the call holds the guard. -/
def Note.Outside (c : CallId) : Note → Prop
  | .called _ _ | .executed _ _ _ => True
  | .ended d _ | .released d _ | .releaseEnded d _ | .returned d (.error _) => d ≠ c
  | _ => False

namespace Standing

variable {v w u : Standing} {c d : CallId} {a b : Activity} {es : List Note} {x : Answer}
  {act : Server.Action}

/-- Whoever is inside holds the guard. -/
def Guarded (v : Standing) : Prop :=
  ∀ call ∈ v.calls, call.activity.Inside → v.guard.holder = some call.id

theorem Goes.holder (goes : Goes v c a u es b) (holds : v.guard.holder = some d) :
    u.guard.holder = some d := by
  cases goes with
  | enter enters =>
    rw [(Guard.enter?_eq enters).1] at holds
    cases holds
  | join => exact Guard.holder_join holds
  | _ => exact holds

theorem Goes.inside (goes : Goes v c a u es b) (inside : b.Inside) :
    a.Inside ∨ u.guard.holder = some c := by
  cases goes with
  | enter enters => exact .inr (Guard.enter?_eq enters).2
  | take holds => exact .inr holds
  | sleep hK | wake hK | clear hK | release hK =>
    left
    cases hK with
    | reload | shutdown => trivial
    | background => cases inside
  | _ => first | exact .inl trivial | cases inside

theorem Stops.guard (stops : Stops v c a u es x) : u.guard = v.guard := by
  cases stops <;> rfl

theorem Opens.not_inside (opens : v.Opens a) : ¬ a.Inside := by
  cases opens <;> exact id

namespace Guarded

/-- There is one call inside at a time. -/
theorem unique (guarded : v.Guarded) (first : ⟨c, a⟩ ∈ v.calls) (inside : a.Inside)
    (second : ⟨d, b⟩ ∈ v.calls) (inside' : b.Inside) : d = c :=
  Option.some.inj ((guarded _ second inside').symm.trans (guarded _ first inside))

theorem holder_finish (holds : v.guard.holder = some d) (other : d ≠ c) :
    (v.finish c x).guard.holder = some d :=
  Guard.holder_leave holds other

theorem begin (guarded : v.Guarded) (outside : ¬ a.Inside) : (v.begin a).Guarded := by
  intro call present inside
  rcases mem_calls_begin.mp present with known | rfl
  · exact guarded call known inside
  · exact absurd inside outside

theorem finish (guarded : v.Guarded) : (v.finish c x).Guarded := by
  intro call present inside
  obtain ⟨known, other⟩ := mem_calls_finish.mp present
  exact holder_finish (guarded call known inside) other

theorem move (guarded : v.Guarded) (moved : Move v act w) : w.Guarded := by
  cases moved with
  | rest => exact guarded
  | number => exact guarded
  | keep => exact guarded
  | start opens => exact guarded.begin opens.not_inside
  | cut => exact guarded.finish
  | @go c a b u es known goes =>
    intro call present inside
    rcases mem_calls_proceedTo.mp present with ⟨other, -⟩ | ⟨rfl, -⟩
    · exact goes.holder (guarded call (goes.frame.calls ▸ other) inside)
    · rcases goes.inside inside with earlier | holds
      · exact goes.holder (guarded ⟨c, a⟩ known earlier)
      · exact holds
  | @stop c a u es x known stops =>
    apply finish (v := u.notes es)
    intro call present inside
    exact stops.guard ▸ guarded call (stops.frame.calls ▸ present) inside
  | @leave c o a p i d known =>
    intro call present inside
    rcases mem_calls_proceedTo.mp present with ⟨other, -⟩ | ⟨rfl, -⟩
    · exact guarded.begin id call other inside
    · exact guarded ⟨c, .reload o (.retiring a p ⟨i, d, .polling⟩)⟩ known trivial
  | leaveAll => exact (guarded.begin id).finish

end Guarded

/-- What others do while a call holds the guard. -/
structure Aside (c : CallId) (v w : Standing) : Prop where
  slot : w.slot = v.slot
  status : w.status = v.status
  nextGeneration : w.nextGeneration = v.nextGeneration
  holder : w.guard.holder = some c
  notes : ∃ ns, w.history = ns ++ v.history ∧ ∀ n ∈ ns, n.Outside c

/-- What a move is to the call that holds the guard. -/
inductive Turn (v : Standing) (c : CallId) (a : Activity) : Standing → Prop
  | aside {w : Standing} (aside : Aside c v w) (known : ⟨c, a⟩ ∈ w.calls) : Turn v c a w
  | go {u : Standing} {es : List Note} {b : Activity} (goes : Goes v c a u es b) :
      Turn v c a ((u.notes es).proceedTo c b)
  | stop {u : Standing} {es : List Note} {x : Answer} (stops : Stops v c a u es x) :
      Turn v c a ((u.notes es).finish c x)
  | cut : Turn v c a (v.finish c .cancelled)
  | leave {o : Origin} {t : Attempt} {p : String} {i : Installation} {d : Option Time}
      (retires : a = .reload o (.retiring t p ⟨i, d, .polling⟩)) :
      Turn v c a ((v.begin (.retirement ⟨i, none, .polling⟩)).proceedTo c
        (.reload o (.completing t p (some i.generation))))
  | leaveAll {i : Installation} (outside : ∀ o stage, a ≠ .reload o stage) :
      Turn v c a ((v.begin (.retirement ⟨i, none, .polling⟩)).finish c .done)

variable {t : Standing}

theorem Goes.outside (goes : Goes v d a u es b) (outside : ¬ a.Inside)
    (holds : v.guard.holder = some c) (other : d ≠ c) :
    u.slot = v.slot ∧ u.status = v.status ∧ u.nextGeneration = v.nextGeneration ∧
      ∀ n ∈ es, n.Outside c := by
  cases goes with
  | enter enters =>
    rw [(Guard.enter?_eq enters).1] at holds
    cases holds
  | take owns => exact absurd (Option.some.inj (owns.symm.trans holds)) other
  | mark | misfind | misconstruct | construct | ask | misask | obtain | replace | install |
    released =>
    exact absurd trivial outside
  | _ => exact ⟨rfl, rfl, rfl, by simp [Note.Outside, other]⟩

theorem Stops.outside (stops : Stops v d a u es x) (outside : ¬ a.Inside) (other : d ≠ c) :
    u.slot = v.slot ∧ u.status = v.status ∧ u.nextGeneration = v.nextGeneration ∧
      ∀ n ∈ es, n.Outside c := by
  cases stops with
  | constructorPanic | makerPanic | succeed | fail | shutdown => exact absurd trivial outside
  | _ => exact ⟨rfl, rfl, rfl, by simp [Note.Outside, other]⟩

/-- A move of others leaves what the guard is about to its holder. -/
theorem Move.turn (moved : Move v act w) (distinct : v.Distinct) (guarded : v.Guarded)
    (holds : v.guard.holder = some c) (known : ⟨c, a⟩ ∈ v.calls) : Turn v c a w := by
  have outside {d : CallId} {b : Activity} (present : ⟨d, b⟩ ∈ v.calls) (other : d ≠ c) :
      ¬ b.Inside := fun inside =>
    other (Option.some.inj ((guarded _ present inside).symm.trans holds))
  have none : ∃ ns, v.history = ns ++ v.history ∧ ∀ n ∈ ns, n.Outside c :=
    ⟨[], rfl, List.forall_mem_nil _⟩
  cases moved with
  | rest => exact .aside ⟨rfl, rfl, rfl, holds, none⟩ known
  | number => exact .aside ⟨rfl, rfl, rfl, holds, none⟩ known
  | keep => exact .aside ⟨rfl, rfl, rfl, holds, none⟩ known
  | @start _ b opens =>
    refine .aside ⟨rfl, rfl, rfl, holds, [.called v.fresh b], rfl, ?_⟩ ?_
    · simp [Note.Outside]
    · exact mem_calls_begin.mpr (.inl known)
  | @cut d b present =>
    by_cases other : d = c
    · subst other
      exact .cut
    · refine .aside ⟨rfl, rfl, rfl, ?_, [.ended d .cancelled], rfl, ?_⟩ ?_
      · exact Guarded.holder_finish holds (Ne.symm other)
      · simp [Note.Outside, other]
      · exact mem_calls_finish.mpr ⟨known, Ne.symm other⟩
  | @go d b b' u es present goes =>
    by_cases other : d = c
    · subst other
      cases distinct.activity_eq known present
      exact .go goes
    · obtain ⟨slot, status, next, noted⟩ := goes.outside (outside present other) holds other
      refine .aside ⟨slot, status, next, goes.holder holds, es, ?_, noted⟩ ?_
      · exact congrArg (es ++ ·) goes.frame.history
      · exact mem_calls_proceedTo.mpr (.inl ⟨goes.frame.calls ▸ known, Ne.symm other⟩)
  | @stop d b u es x present stops =>
    by_cases other : d = c
    · subst other
      cases distinct.activity_eq known present
      exact .stop stops
    · obtain ⟨slot, status, next, noted⟩ := stops.outside (outside present other) other
      refine .aside ⟨slot, status, next, ?_, .ended d x :: es, ?_, ?_⟩ ?_
      · exact Guarded.holder_finish (v := u.notes es) (stops.guard ▸ holds) (Ne.symm other)
      · exact congrArg (.ended d x :: es ++ ·) stops.frame.history
      · exact List.forall_mem_cons.mpr ⟨other, noted⟩
      · exact mem_calls_finish.mpr ⟨stops.frame.calls ▸ known, Ne.symm other⟩
  | @leave d o b p i deadline present =>
    by_cases other : d = c
    · subst other
      exact .leave (distinct.activity_eq known present)
    · exact absurd trivial (outside present other)
  | @leaveAll d K hK hother i deadline present =>
    by_cases other : d = c
    · subst other
      cases distinct.activity_eq known present
      exact .leaveAll fun o stage => hother o stage _
    · refine .aside ⟨rfl, rfl, rfl, ?_, [.ended d .done, .called v.fresh _], rfl, ?_⟩ ?_
      · exact Guarded.holder_finish holds (Ne.symm other)
      · simp [Note.Outside, other]
      · exact mem_calls_finish.mpr ⟨mem_calls_begin.mpr (.inl known), Ne.symm other⟩

end Standing

theorem Server.guarded_run (setup : Setup) (actions : List Server.Action) :
    ((Server.start setup).run actions).standing.Guarded :=
  Server.standing_run (P := Standing.Guarded) actions (List.forall_mem_nil _) fun moved held =>
    held.move moved

end HotSwap

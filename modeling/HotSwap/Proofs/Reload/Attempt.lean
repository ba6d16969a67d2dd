import HotSwap.Proofs.Standing.Guard

/-!
# Attempts

A reload past the guard is an attempt, which keeps its generation until it ends. Until it installs
what it made, it leaves the slot alone and shows in the status only that it began.
-/

namespace HotSwap

namespace Reload.Stage

def attempt? : Stage → Option Attempt
  | arriving => none
  | numbered a | building a | constructed a _ _ _ | asking a _ _ _ | installing a _ _ |
    retiring a _ _ | completing a _ _ | failing a _ => some a

/-- What was made, if anything, is not installed yet. -/
def Tries : Stage → Prop
  | numbered _ | building _ | constructed _ _ _ _ | asking _ _ _ _ | installing _ _ _ |
    failing _ _ => True
  | _ => False

/-- The provider is yet to give the engine. -/
def Unmade : Stage → Prop
  | numbered _ | building _ | constructed _ _ _ _ | asking _ _ _ _ => True
  | _ => False

variable {stage : Stage}

theorem Unmade.tries (unmade : stage.Unmade) : stage.Tries := by
  cases stage with
  | numbered | building | constructed | asking => trivial
  | _ => exact unmade.elim

theorem Unmade.attempt? (unmade : stage.Unmade) : ∃ t, stage.attempt? = some t := by
  cases stage with
  | numbered t | building t | constructed t | asking t => exact ⟨t, rfl⟩
  | _ => exact unmade.elim

end Reload.Stage

theorem Activity.inside_of_attempt {o : Origin} {stage : Reload.Stage} {t : Attempt}
    (attempts : stage.attempt? = some t) : (Activity.reload o stage).Inside := by
  cases stage with
  | arriving => cases attempts
  | _ => trivial

/-- Something that is noted of making an engine. -/
def Note.Makes : Note → Prop
  | .constructed _ _ _ _ | .asked _ _ _ _ => True
  | _ => False

/-- The status is as it was, but for the beginning of an attempt. -/
def Status.Begun (before now : Status) : Prop :=
  now = { before with phase := now.phase, lastStartedAt := now.lastStartedAt }

theorem Status.Begun.trans {s s' s'' : Status} (first : s.Begun s') (second : s'.Begun s'') :
    s.Begun s'' := by
  unfold Status.Begun at *
  rw [second, first]

namespace Standing

variable {v₀ v w u : Standing} {c : CallId} {a b : Activity} {es : List Note} {o : Origin}
  {stage : Reload.Stage} {t : Attempt} {act : Server.Action}

/-- An attempt goes on as the same attempt, and touches nothing before it installs. -/
theorem Goes.attempt (goes : Goes v c a u es b) (reloads : a = .reload o stage)
    (attempted : stage.attempt? = some t) :
    u.nextGeneration = v.nextGeneration ∧ ∃ next, b = .reload o next ∧ next.attempt? = some t ∧
      (next.Tries → stage.Tries ∧ u.slot = v.slot ∧ v.status.Begun u.status ∧
        ∀ n ∈ es, n.Makes) := by
  cases goes with
  | sleep hK | wake hK | clear hK | release hK =>
    cases hK with
    | reload =>
      cases reloads
      exact ⟨rfl, _, rfl, attempted, False.elim⟩
    | _ => cases reloads
  | mark | misfind | misconstruct | construct | ask | misask | obtain =>
    cases reloads
    exact ⟨rfl, _, rfl, attempted, fun _ => ⟨trivial, rfl, rfl, by simp [Note.Makes]⟩⟩
  | replace | install | released =>
    cases reloads
    exact ⟨rfl, _, rfl, attempted, False.elim⟩
  | enter =>
    cases reloads
    cases attempted
  | _ => cases reloads

/-- How an attempt comes from one stage to the next in a move. -/
inductive Advances (v : Standing) (c : CallId) (o : Origin) (stage : Reload.Stage) :
    Reload.Stage → Standing → Prop
  | aside {w : Standing} (aside : Aside c v w) : Advances v c o stage stage w
  | go {u : Standing} {es : List Note} {next : Reload.Stage}
      (goes : Goes v c (.reload o stage) u es (.reload o next)) :
      Advances v c o stage next ((u.notes es).proceedTo c (.reload o next))
  | leave {t : Attempt} {p : String} {i : Installation} {d : Option Time}
      (retires : stage = .retiring t p ⟨i, d, .polling⟩) :
      Advances v c o stage (.completing t p (some i.generation))
        ((v.begin (.retirement ⟨i, none, .polling⟩)).proceedTo c
          (.reload o (.completing t p (some i.generation))))

theorem Move.advances (moved : v.Move act w) (distinct : v.Distinct) (guarded : v.Guarded)
    (known : ⟨c, .reload o stage⟩ ∈ v.calls) (attempted : stage.attempt? = some t)
    (present : ⟨c, b⟩ ∈ w.calls) :
    ∃ next, b = .reload o next ∧ next.attempt? = some t ∧ Advances v c o stage next w := by
  have holds : v.guard.holder = some c :=
    guarded _ known (Activity.inside_of_attempt attempted)
  cases moved.turn distinct guarded holds known with
  | aside aside still =>
    cases (distinct.move moved).activity_eq still present
    exact ⟨stage, rfl, attempted, .aside aside⟩
  | @go u es b' goes =>
    rcases mem_calls_proceedTo.mp present with ⟨-, other⟩ | ⟨same, -⟩
    · exact absurd rfl other
    · cases same
      obtain ⟨-, next, rfl, still, -⟩ := goes.attempt rfl attempted
      exact ⟨next, rfl, still, .go goes⟩
  | leave retires =>
    rcases mem_calls_proceedTo.mp present with ⟨-, other⟩ | ⟨same, -⟩
    · exact absurd rfl other
    · cases same
      cases retires
      exact ⟨_, rfl, attempted, .leave rfl⟩
  | stop => exact absurd rfl (mem_calls_finish.mp present).2
  | cut => exact absurd rfl (mem_calls_finish.mp present).2
  | leaveAll => exact absurd rfl (mem_calls_finish.mp present).2

/-- A call that was there before was at something. -/
theorem Move.was_call (moved : v.Move act w) (known : c < v.fresh) (present : ⟨c, b⟩ ∈ w.calls) :
    ∃ a, ⟨c, a⟩ ∈ v.calls := by
  cases moved.comes present with
  | stays old => exact ⟨b, old⟩
  | begins new => exact absurd new (Nat.ne_of_lt known)
  | proceeds old => exact ⟨_, old⟩
  | handed new => exact absurd new (Nat.ne_of_lt known)
  | completes old => exact ⟨_, old⟩

/-- An attempt was one before, or has just passed the guard. -/
theorem Move.was_attempt (moved : v.Move act w) (present : ⟨c, .reload o stage⟩ ∈ w.calls)
    (attempted : stage.attempt? = some t) :
    (∃ before t', ⟨c, .reload o before⟩ ∈ v.calls ∧ before.attempt? = some t') ∨
    ∃ g, v.guard.enter? c = some g ∧ stage = .numbered t ∧ t.generation = v.nextGeneration ∧
      ⟨c, .reload o .arriving⟩ ∈ v.calls ∧
      w = (({ v with guard := g, nextGeneration := v.nextGeneration + 1 } : Standing).notes
        [.begun c v.nextGeneration]).proceedTo c (.reload o (.numbered t)) := by
  cases moved.comes present with
  | stays old => exact .inl ⟨stage, t, old, attempted⟩
  | begins _ opens =>
    cases opens
    cases attempted
  | handed _ retires => cases retires
  | completes old completing =>
    cases completing
    exact .inl ⟨_, _, old, rfl⟩
  | proceeds old goes same =>
    subst same
    generalize reloads : Activity.reload o stage = b at goes
    cases goes with
    | sleep hK | wake hK | clear hK | release hK =>
      cases hK with
      | reload =>
        cases reloads
        exact .inl ⟨_, _, old, rfl⟩
      | _ => cases reloads
    | mark | misfind | misconstruct | construct | ask | misask | obtain | replace | install |
      released =>
      cases reloads
      exact .inl ⟨_, _, old, rfl⟩
    | enter enters =>
      cases reloads
      cases attempted
      exact .inr ⟨_, enters, rfl, rfl, old, rfl⟩
    | reload =>
      cases reloads
      cases attempted
    | _ => cases reloads

/-- An attempt has changed nothing but the next generation, and when the latest attempt began. -/
structure Trying (v₀ v : Standing) (c : CallId) : Prop where
  slot : v.slot = v₀.slot
  nextGeneration : v.nextGeneration = v₀.nextGeneration + 1
  status : v₀.status.Begun v.status
  released : ∀ i, .released c i ∈ v.history → .released c i ∈ v₀.history

/-- The call is an attempt that passed the guard, or has ended. -/
structure Attempts (v₀ : Standing) (c : CallId) (o : Origin) (v : Standing) : Prop where
  distinct : v.Distinct
  guarded : v.Guarded
  known : c < v.fresh
  stage : ∀ a, ⟨c, a⟩ ∈ v.calls → ∃ stage t, a = .reload o stage ∧ stage.attempt? = some t ∧
    t.generation = v₀.nextGeneration ∧ (stage.Tries → Trying v₀ v c)

namespace Trying

theorem aside (trying : Trying v₀ v c) (aside : Aside c v w) : Trying v₀ w c where
  slot := aside.slot.trans trying.slot
  nextGeneration := aside.nextGeneration.trans trying.nextGeneration
  status := aside.status ▸ trying.status
  released i noted := by
    obtain ⟨ns, grown, outside⟩ := aside.notes
    rw [grown] at noted
    rcases List.mem_append.mp noted with new | old
    · exact absurd rfl (outside _ new)
    · exact trying.released i old

theorem go {next : Reload.Stage} (trying : stage.Tries → Trying v₀ v c)
    (goes : Goes v c (.reload o stage) u es (.reload o next)) (attempted : stage.attempt? = some t)
    (tries : next.Tries) : Trying v₀ ((u.notes es).proceedTo c b) c := by
  obtain ⟨number, next', same, -, touched⟩ := goes.attempt rfl attempted
  cases same
  obtain ⟨before, slot, status, made⟩ := touched tries
  have trying := trying before
  refine ⟨slot.trans trying.slot, number.trans trying.nextGeneration,
    Status.Begun.trans trying.status status, fun i noted => ?_⟩
  rcases List.mem_append.mp noted with new | old
  · exact (made _ new).elim
  · exact trying.released i (goes.frame.history ▸ old)

end Trying

namespace Attempts

theorem move (attempts : Attempts v₀ c o v) (moved : v.Move act w) : Attempts v₀ c o w := by
  refine ⟨attempts.distinct.move moved, attempts.guarded.move moved,
    Nat.lt_of_lt_of_le attempts.known moved.fresh_le, fun b present => ?_⟩
  obtain ⟨a, known⟩ := moved.was_call attempts.known present
  obtain ⟨stage, t, rfl, attempted, generation, tries⟩ := attempts.stage a known
  obtain ⟨next, rfl, still, advances⟩ :=
    moved.advances attempts.distinct attempts.guarded known attempted present
  refine ⟨next, t, rfl, still, generation, fun here => ?_⟩
  cases advances with
  | aside aside => exact (tries here).aside aside
  | go goes => exact Trying.go tries goes attempted here
  | leave => exact here.elim

end Attempts

end Standing

end HotSwap

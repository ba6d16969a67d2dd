import HotSwap.Proofs.Generations.Chain
import HotSwap.Proofs.Reload.Cause
import HotSwap.Server.Embedding

/-!
# Reloads that break off

The status shows an attempt from its beginning until it succeeds or fails. An attempt that is cut
off or panics in between does neither, so that the status goes on to show it.
-/

namespace HotSwap

namespace Note

/-- The call returns what its reload came to. -/
def returns (c : CallId) : Note → Bool
  | .returned d _ => d = c
  | _ => false

/-- An attempt returns, and the status was told how it ended. -/
def settles : Note → Bool
  | .returned _ (.error .alreadyInProgress) => false
  | .returned _ _ => true
  | _ => false

end Note

namespace Reload.Stage

/-- The status was told that the attempt began. -/
def Shown : Stage → Prop
  | arriving | numbered _ => False
  | _ => True

variable {stage : Stage} {t : Attempt}

theorem attempt?_of_shown (shown : stage.Shown) : ∃ t, stage.attempt? = some t := by
  cases stage with
  | arriving => exact shown.elim
  | _ => exact ⟨_, rfl⟩

theorem numbered_or_shown (attempted : stage.attempt? = some t) :
    stage = .numbered t ∨ stage.Shown := by
  cases stage with
  | arriving => cases attempted
  | numbered =>
    cases attempted
    exact .inl rfl
  | _ => exact .inr trivial

end Reload.Stage

namespace Standing

variable {v w u : Standing} {c : CallId} {a b : Activity} {es : List Note} {x : Answer}
  {o : Origin} {stage next : Reload.Stage} {t : Attempt} {act : Server.Action}

/-! What the moves do to the status. -/

theorem Goes.begins (goes : Goes v c a u es b) :
    u.status.generation = v.status.generation ∧
      (u.status.phase = v.status.phase ∨ u.status.phase = .reloading) := by
  cases goes with
  | mark => exact ⟨rfl, .inr rfl⟩
  | _ => exact ⟨rfl, .inl rfl⟩

theorem Goes.shown (goes : Goes v c a u es b) (starts : a = .reload o stage)
    (ends : b = .reload o next) (shown : next.Shown) :
    u.status.phase = .reloading ∨ u.status = v.status ∧ stage.Shown := by
  cases goes with
  | mark => exact .inl rfl
  | sleep hK | wake hK | clear hK | release hK =>
    cases hK with
    | reload =>
      cases starts
      exact .inr ⟨rfl, trivial⟩
    | _ => cases starts
  | enter =>
    cases ends
    exact shown.elim
  | misfind | misconstruct | construct | ask | misask | obtain | replace | install | released =>
    cases starts
    exact .inr ⟨rfl, trivial⟩
  | _ => cases starts

namespace Advances

theorem shown (advances : Advances v c o stage next w) (shown : next.Shown)
    (before : stage.Shown → v.status.phase = .reloading) : w.status.phase = .reloading := by
  cases advances with
  | aside aside => exact aside.status ▸ before shown
  | go goes =>
    rcases goes.shown rfl rfl shown with begun | ⟨same, earlier⟩
    · exact begun
    · exact (congrArg Status.phase same).trans (before earlier)
  | leave retires =>
    subst retires
    exact before trivial

theorem statusGeneration (advances : Advances v c o stage next w) :
    w.status.generation = v.status.generation := by
  cases advances with
  | aside aside => rw [aside.status]
  | go goes => exact goes.begins.1
  | leave => rfl

end Advances

theorem Stops.generation (stops : Stops v c a u es x) :
    u.status.generation = v.status.generation ∨
      ∃ o t p previous, a = .reload o (.completing t p previous) ∧
        u.status.generation = t.generation := by
  cases stops with
  | succeed => exact .inr ⟨_, _, _, _, rfl, rfl⟩
  | _ => exact .inl rfl

/-- The status tells of the generation that an attempt reports, and of no other. -/
theorem Move.generation (moved : v.Move act w) :
    w.status.generation = v.status.generation ∨
      ∃ c o t p previous, ⟨c, .reload o (.completing t p previous)⟩ ∈ v.calls ∧
        w.status.generation = t.generation := by
  cases moved with
  | go _ goes => exact .inl goes.begins.1
  | stop known stops =>
    rcases stops.generation with same | ⟨o, t, p, previous, rfl, told⟩
    · exact .inl same
    · exact .inr ⟨_, o, t, p, previous, known, told⟩
  | _ => exact .inl rfl

/-- The status shows whoever tries for a new engine, and tells of an older one. -/
structure Followed (v : Standing) : Prop where
  shown {c : CallId} {o : Origin} {stage : Reload.Stage} :
    ⟨c, .reload o stage⟩ ∈ v.calls → stage.Shown → v.status.phase = .reloading
  older {c : CallId} {o : Origin} {stage : Reload.Stage} {t : Attempt} :
    ⟨c, .reload o stage⟩ ∈ v.calls → stage.attempt? = some t →
      v.status.generation < t.generation
  below : v.status.generation < v.nextGeneration

theorem Followed.move (followed : v.Followed) (numbered : v.Numbered) (moved : v.Move act w) :
    w.Followed := by
  constructor
  · intro c o stage present shown
    obtain ⟨t, attempted⟩ := Reload.Stage.attempt?_of_shown shown
    rcases moved.was_attempt present attempted with ⟨before, t', known, attempted'⟩ | ⟨g, -, rfl, -⟩
    · obtain ⟨next, same, -, advances⟩ :=
        moved.advances numbered.distinct numbered.guarded known attempted' present
      cases same
      exact advances.shown shown (followed.shown known)
    · exact shown.elim
  · intro c o stage t present attempted
    rcases moved.was_attempt present attempted with
        ⟨before, t', known, attempted'⟩ | ⟨g, -, -, generation, -, rfl⟩
    · obtain ⟨next, same, still, advances⟩ :=
        moved.advances numbered.distinct numbered.guarded known attempted' present
      cases same
      obtain rfl : t' = t := Option.some.inj (still.symm.trans attempted)
      rw [advances.statusGeneration]
      exact followed.older known attempted'
    · rw [generation]
      exact followed.below
  · -- a generation that is told was taken by an attempt, so that the next one is above it
    have grown := moved.shift.next_le
    have below := followed.below
    rcases moved.generation with same | ⟨c, o, t, p, previous, known, told⟩
    · omega
    · obtain ⟨number, -⟩ := numbered.attempt known rfl
      omega

/-! What is left of an attempt that breaks off. -/

theorem Stops.broken_off (stops : Stops v c a u es x) :
    (u.status = v.status ∧ u.slot = v.slot) ∨ 0 < es.countP (Note.returns c) := by
  cases stops with
  | succeed | fail => exact .inr (by simp [Note.returns])
  | _ => exact .inl ⟨rfl, rfl⟩

/-- An attempt that ends without returning leaves the status and the slot alone. -/
theorem Move.broken_off (moved : v.Move act w) (numbered : v.Numbered)
    (known : ⟨c, .reload o stage⟩ ∈ v.calls) (attempted : stage.attempt? = some t)
    (ended : ∀ a, ⟨c, a⟩ ∉ w.calls) (unreturned : w.times (Note.returns c) = 0) :
    w.status = v.status ∧ w.slot = v.slot := by
  have holds : v.guard.holder = some c :=
    numbered.guarded _ known (Activity.inside_of_attempt attempted)
  cases moved.turn numbered.distinct numbered.guarded holds known with
  | aside _ still => exact absurd still (ended _)
  | @go u es b goes =>
    exact absurd (mem_proceedTo (v := u.notes es) (goes.frame.calls ▸ known)) (ended b)
  | leave => exact absurd (mem_proceedTo (mem_calls_begin.mpr (.inl known))) (ended _)
  | cut => exact ⟨rfl, rfl⟩
  | leaveAll outside => exact absurd rfl (outside o stage)
  | @stop u es x stops =>
    rcases stops.broken_off with still | returned
    · exact still
    · have part : es.Sublist ((u.notes es).finish c x).history :=
        (List.sublist_append_left es u.history).cons _
      exact absurd (Nat.le_zero.mp (unreturned ▸ part.countP_le)) (Nat.ne_of_gt returned)

theorem Stops.settles (stops : Stops v c a u es x) (faithful : a.Faithful v.setup) :
    u.status = v.status ∨ 0 < es.countP Note.settles := by
  cases stops with
  | succeed => exact .inr Nat.one_pos
  | @fail o t e =>
    right
    have fails : v.setup.Fails t.generation e := faithful.2
    cases fails <;> exact Nat.one_pos
  | _ => exact .inl rfl

/-- Only an attempt that returns has the status show none any more. -/
theorem Move.reloading (moved : v.Move act w)
    (faithful : ∀ call ∈ v.calls, call.activity.Faithful v.setup)
    (shows : v.status.phase = .reloading)
    (unsettled : w.times Note.settles = v.times Note.settles) : w.status.phase = .reloading := by
  cases moved with
  | go _ goes => exact goes.begins.2.elim (fun same => same.trans shows) id
  | @stop c a u es x known stops =>
    rcases stops.settles (faithful _ known) with same | settled
    · exact (congrArg Status.phase same).trans shows
    · have grown : ((u.notes es).finish c x).times Note.settles =
          es.countP Note.settles + v.times Note.settles := by
        have history : ((u.notes es).finish c x).history = .ended c x :: (es ++ v.history) :=
          congrArg (.ended c x :: es ++ ·) stops.frame.history
        rw [Standing.times, history, List.countP_cons_of_neg (by simp [Note.settles])]
        exact List.countP_append
      omega
  | _ => exact shows

end Standing

namespace Server

open Standing

theorem followed_run (setup : Setup) (actions : List Action) :
    ((start setup).run actions).standing.Followed := by
  have numbered : (start setup).standing.Numbered := numbered_run setup []
  have followed : (start setup).standing.Followed := by
    refine ⟨by simp, by simp, ?_⟩
    exact Nat.one_pos
  exact (standing_run (P := fun v => v.Numbered ∧ v.Followed) actions ⟨numbered, followed⟩
    fun moved held => ⟨held.1.move moved, held.2.move held.1 moved⟩).2

/-- The status shows no attempt, and tells of the engine in service. -/
def InStep (s : Server) : Prop :=
  s.status.phase = .idle ∧ s.status.generation = s.generation

variable {s : Server}

theorem reloading_run (faithful : ∀ call ∈ s.calls, call.activity.Faithful s.setup)
    (shows : s.status.phase = .reloading) (actions : List Action)
    (unsettled : (s.run actions).times Note.settles = s.times Note.settles) :
    (s.run actions).status.phase = .reloading := by
  have unlogged (n : Note) : n.settles → n.isLine = false := by
    cases n <;> simp [Note.settles, Note.isLine]
  rw [← standing_times _ unlogged, ← standing_times _ unlogged] at unsettled
  have kept := standing_run (s := s) (P := fun v =>
    (∀ call ∈ v.calls, call.activity.Faithful v.setup) ∧
    s.standing.times Note.settles ≤ v.times Note.settles ∧
    (v.times Note.settles = s.standing.times Note.settles → v.status.phase = .reloading)) actions
    ⟨faithful, Nat.le_refl _, fun _ => shows⟩ ?_
  · exact kept.2.2 unsettled
  · rintro v act w moved ⟨faithful, le, held⟩
    have grown := moved.times_le Note.settles
    refine ⟨moved.faithful faithful, Nat.le_trans le grown, fun same => ?_⟩
    exact moved.reloading faithful (held (by omega)) (by omega)

/-- An attempt that breaks off wedges the status. Unless it had only just passed the guard, the
status goes on to show it until a later attempt returns, and once its engine is installed, the
status tells of an older one than is in service. -/
theorem broken_off_reload_wedges {setup : Setup} {before : List Action} {act : Action} {c : CallId}
    {o : Origin} {stage : Reload.Stage} {t : Attempt}
    (active : ((start setup).run before).activity? c = some (.reload o stage))
    (attempted : stage.attempt? = some t)
    (ended : (((start setup).run before).step act).activity? c = none)
    (unreturned : (((start setup).run before).step act).times (Note.returns c) = 0) :
    let s := (start setup).run before
    let u := s.step act
    (u.InStep ↔ stage = .numbered t ∧ s.InStep) ∧
      (stage.Late → u.status.generation < u.generation) ∧
      (stage.Shown → ∀ after, (u.run after).times Note.settles = u.times Note.settles →
        (u.run after).status.phase = .reloading) := by
  intro s u
  have moved := s.move_step act
  have numbered : s.standing.Numbered := numbered_run setup before
  have followed : s.standing.Followed := followed_run setup before
  have chained : s.standing.Chained := chained_run setup before
  have faithful : ∀ call ∈ s.calls, call.activity.Faithful s.setup := faithful_run setup before
  have known := mem_calls_of_activity? active
  -- all that is left is what the attempt showed and installed before it broke off
  obtain ⟨status, slot⟩ : u.status = s.status ∧ u.slot = s.slot := by
    have unlogged (n : Note) : n.returns c → n.isLine = false := by
      cases n <;> simp [Note.returns, Note.isLine]
    refine moved.broken_off numbered known attempted (fun a there => ?_) ?_
    · cases ended.symm.trans (activity?_of_mem (numbered.distinct.move moved) there)
    · exact (standing_times _ unlogged).trans unreturned
  have generation : u.generation = s.generation := congrArg (fun slot : Option Installation =>
    (slot.map Installation.generation).getD 0) slot
  refine ⟨⟨fun inStep => ?_, fun back => ?_⟩, fun late => ?_, fun shown after => ?_⟩
  · obtain ⟨idle, same⟩ := inStep
    rw [status] at idle same
    rcases Reload.Stage.numbered_or_shown attempted with only | shown
    · exact ⟨only, idle, same.trans generation⟩
    · cases idle.symm.trans (followed.shown known shown)
  · obtain ⟨idle, same⟩ := back.2
    exact ⟨by rw [status]; exact idle, by rw [status, generation]; exact same⟩
  · obtain ⟨i, current, same⟩ := chained.current known late attempted
    have older := followed.older known attempted
    have told : s.generation = t.generation := by
      rw [Server.generation, show s.slot = some i from current]
      exact same
    rw [status, generation, told]
    exact older
  · exact reloading_run (moved.faithful faithful)
      ((congrArg Status.phase status).trans (followed.shown known shown)) after

/-- A reload is dropped while it waits for someone to let go of the engine that it replaced. -/
theorem dropped_reload_wedges :
    let s := (start .patient).run untilDrain
    let u := s.step (.cancel 3)
    u.status.phase = .reloading ∧ u.status.generation < u.generation := by
  intro s u
  have ended : u.activity? 3 = none := rfl
  have unreturned : u.times (Note.returns 3) = 0 := rfl
  have wedged := broken_off_reload_wedges rfl rfl ended unreturned
  exact ⟨wedged.2.2 trivial [] rfl, wedged.2.1 trivial⟩

end Server

end HotSwap

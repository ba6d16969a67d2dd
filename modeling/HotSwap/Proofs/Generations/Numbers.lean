import HotSwap.Proofs.Reload.Attempt
import HotSwap.Proofs.Standing.Slot

/-!
# Generations

The attempts take the generations one after the other, and the guard keeps one of them at a time
before its installation. So what is installed is newer than all that was installed before.
-/

namespace HotSwap

namespace Note

/-- The generation that an attempt takes. -/
def begun? : Note → Option Nat
  | .begun _ generation => some generation
  | _ => none

/-- The generation of what is installed. -/
def installed? : Note → Option Nat
  | .installed i _ => some i.generation
  | _ => none

variable {n : Note}

theorem begun?_of_not_shifts (plain : ¬ n.Shifts) : n.begun? = none := by
  cases n with
  | begun => exact absurd trivial plain
  | _ => rfl

theorem installed?_of_not_shifts (plain : ¬ n.Shifts) : n.installed? = none := by
  cases n with
  | installed => exact absurd trivial plain
  | _ => rfl

theorem not_shifts_of_outside {c : CallId} (outside : n.Outside c) : ¬ n.Shifts := by
  cases n with
  | begun | installed | taken => exact outside.elim
  | _ => exact id

theorem not_shifts_of_makes (makes : n.Makes) : ¬ n.Shifts := by
  cases n with
  | begun | installed | taken => exact makes.elim
  | _ => exact id

end Note

namespace Standing

variable {v w u : Standing} {c : CallId} {o : Origin} {stage next : Reload.Stage} {t : Attempt}
  {act : Server.Action}

/-- The generations that attempts took, the latest first. -/
def begun (v : Standing) : List Nat := v.history.filterMap Note.begun?

/-- The generations of what was installed, the latest first. -/
def installed (v : Standing) : List Nat := v.history.filterMap Note.installed?

theorem begun_of_plain {ns : List Note} (grown : w.history = ns ++ v.history)
    (plain : ∀ n ∈ ns, ¬ n.Shifts) : w.begun = v.begun := by
  have none : ns.filterMap Note.begun? = [] :=
    List.filterMap_eq_nil_iff.mpr fun n new => Note.begun?_of_not_shifts (plain n new)
  rw [begun, grown, List.filterMap_append, none]
  rfl

theorem installed_of_plain {ns : List Note} (grown : w.history = ns ++ v.history)
    (plain : ∀ n ∈ ns, ¬ n.Shifts) : w.installed = v.installed := by
  have none : ns.filterMap Note.installed? = [] :=
    List.filterMap_eq_nil_iff.mpr fun n new => Note.installed?_of_not_shifts (plain n new)
  rw [installed, grown, List.filterMap_append, none]
  rfl

theorem Shift.mem_begun (shift : v.Shift act w) {g : Nat} (begun : .begun c g ∈ w.history) :
    .begun c g ∈ v.history ∨
      g = v.nextGeneration ∧ act = .proceed c ∧ ∃ o, ⟨c, .reload o .arriving⟩ ∈ v.calls ∧
        ∀ a, ⟨c, a⟩ ∈ w.calls →
          ∃ t : Attempt, a = .reload o (.numbered t) ∧ t.generation = v.nextGeneration := by
  cases shift with
  | still _ _ plain =>
    obtain ⟨ns, grown, plain⟩ := plain
    rw [grown] at begun
    rcases List.mem_append.mp begun with new | old
    · exact absurd trivial (plain _ new)
    · exact .inl old
  | enter known _ _ noted entered =>
    rw [noted] at begun
    rcases List.mem_cons.mp begun with new | old
    · cases new
      exact .inr ⟨rfl, rfl, _, known, entered⟩
    · exact .inl old
  | install _ _ _ _ noted | take _ _ _ _ noted =>
    rw [noted] at begun
    rcases List.mem_cons.mp begun with new | old
    · cases new
    · exact .inl old

namespace Advances

theorem nextGeneration (advances : Advances v c o stage next w)
    (attempted : stage.attempt? = some t) : w.nextGeneration = v.nextGeneration := by
  cases advances with
  | aside aside => exact aside.nextGeneration
  | go goes => exact (goes.attempt rfl attempted).1
  | leave => rfl

/-- Before it installs what it made, an attempt installs nothing. -/
theorem installed (advances : Advances v c o stage next w) (attempted : stage.attempt? = some t)
    (tries : next.Tries) : stage.Tries ∧ w.installed = v.installed := by
  cases advances with
  | aside aside =>
    obtain ⟨ns, grown, outside⟩ := aside.notes
    exact ⟨tries, installed_of_plain grown fun n new =>
      Note.not_shifts_of_outside (outside n new)⟩
  | go goes =>
    obtain ⟨-, next', same, -, touched⟩ := goes.attempt rfl attempted
    cases same
    obtain ⟨before, -, -, makes⟩ := touched tries
    refine ⟨before, installed_of_plain (congrArg (_ ++ ·) goes.frame.history) fun n new => ?_⟩
    exact Note.not_shifts_of_makes (makes n new)
  | leave => exact tries.elim

end Advances

/-- The attempts have their generations, and what is installed is older than what will be. -/
structure Numbered (v : Standing) : Prop where
  distinct : v.Distinct
  guarded : v.Guarded
  positive : 0 < v.nextGeneration
  begun : v.begun.reverse = List.range' 1 (v.nextGeneration - 1)
  /-- Whoever took a generation keeps it until it ends. -/
  taken {c : CallId} {g : Nat} : .begun c g ∈ v.history → c < v.fresh ∧
    ∀ a, ⟨c, a⟩ ∈ v.calls →
      ∃ o stage t, a = .reload o stage ∧ stage.attempt? = some t ∧ t.generation = g
  once {c : CallId} {g g' : Nat} : .begun c g ∈ v.history → .begun c g' ∈ v.history → g = g'
  attempt {c : CallId} {o : Origin} {stage : Reload.Stage} {t : Attempt} :
    ⟨c, .reload o stage⟩ ∈ v.calls → stage.attempt? = some t →
      t.generation + 1 = v.nextGeneration ∧ .begun c t.generation ∈ v.history
  decreasing : v.installed.Pairwise (· > ·)
  below : ∀ g ∈ v.installed, g < v.nextGeneration
  ahead {c : CallId} {o : Origin} {stage : Reload.Stage} {t : Attempt} :
    ⟨c, .reload o stage⟩ ∈ v.calls → stage.attempt? = some t → stage.Tries →
      ∀ g ∈ v.installed, g < t.generation

namespace Numbered

theorem begun_move (numbered : v.Numbered) (moved : v.Move act w) :
    0 < w.nextGeneration ∧ w.begun.reverse = List.range' 1 (w.nextGeneration - 1) := by
  have positive := numbered.positive
  cases moved.shift with
  | still _ next plain =>
    obtain ⟨ns, grown, plain⟩ := plain
    rw [begun_of_plain grown plain, next]
    exact ⟨positive, numbered.begun⟩
  | enter _ _ next noted =>
    obtain ⟨k, number⟩ := Nat.exists_eq_succ_of_ne_zero (Nat.ne_of_gt positive)
    have before := numbered.begun
    have grown : w.begun = v.nextGeneration :: v.begun := by
      rw [Standing.begun, noted]
      exact List.filterMap_cons_some rfl
    rw [grown, next, List.reverse_cons, before, number]
    refine ⟨Nat.succ_pos _, ?_⟩
    simp [List.range'_1_concat, Nat.add_comm]
  | install _ _ _ next noted =>
    have same : w.begun = v.begun := by
      rw [Standing.begun, noted]
      exact List.filterMap_cons_none rfl
    rw [same, next]
    exact ⟨positive, numbered.begun⟩
  | take _ _ _ next noted =>
    have same : w.begun = v.begun := by
      rw [Standing.begun, noted]
      exact List.filterMap_cons_none rfl
    rw [same, next]
    exact ⟨positive, numbered.begun⟩

theorem attempt_move (numbered : v.Numbered) (moved : v.Move act w)
    (present : ⟨c, .reload o stage⟩ ∈ w.calls) (attempted : stage.attempt? = some t) :
    (t.generation + 1 = w.nextGeneration ∧ .begun c t.generation ∈ w.history) ∧
      (stage.Tries → ∀ g ∈ w.installed, g < t.generation) := by
  rcases moved.was_attempt present attempted with
      ⟨before, t', known, attempted'⟩ | ⟨g, -, -, generation, -, rfl⟩
  · obtain ⟨next, same, still, advances⟩ :=
      moved.advances numbered.distinct numbered.guarded known attempted' present
    cases same
    obtain rfl : t' = t := Option.some.inj (still.symm.trans attempted)
    obtain ⟨number, begun⟩ := numbered.attempt known attempted'
    refine ⟨⟨?_, moved.suffix.subset begun⟩, fun tries => ?_⟩
    · rw [number, advances.nextGeneration attempted']
    · obtain ⟨before, same⟩ := advances.installed attempted' tries
      rw [same]
      exact numbered.ahead known attempted' before
  · rw [generation]
    exact ⟨⟨rfl, List.mem_cons_self⟩, fun _ => numbered.below⟩

theorem installed_move (numbered : v.Numbered) (moved : v.Move act w) :
    w.installed.Pairwise (· > ·) ∧ ∀ g ∈ w.installed, g < w.nextGeneration := by
  cases moved.shift with
  | still _ next plain =>
    obtain ⟨ns, grown, plain⟩ := plain
    rw [installed_of_plain grown plain, next]
    exact ⟨numbered.decreasing, numbered.below⟩
  | enter _ _ next noted =>
    have same : w.installed = v.installed := by
      rw [Standing.installed, noted]
      exact List.filterMap_cons_none rfl
    rw [same, next]
    exact ⟨numbered.decreasing, fun g there => Nat.lt_succ_of_lt (numbered.below g there)⟩
  | @install c o t p product i w known generation _ next noted =>
    have grown : w.installed = t.generation :: v.installed := by
      rw [Standing.installed, noted, ← generation]
      exact List.filterMap_cons_some rfl
    obtain ⟨number, -⟩ := numbered.attempt known rfl
    rw [grown, next]
    refine ⟨List.pairwise_cons.mpr ⟨numbered.ahead known rfl trivial, numbered.decreasing⟩, ?_⟩
    exact List.forall_mem_cons.mpr ⟨by omega, numbered.below⟩
  | take _ _ _ next noted =>
    have same : w.installed = v.installed := by
      rw [Standing.installed, noted]
      exact List.filterMap_cons_none rfl
    rw [same, next]
    exact ⟨numbered.decreasing, numbered.below⟩

/-- A generation taken is the one that the attempt has. -/
theorem taken_move (numbered : v.Numbered) (moved : v.Move act w) {g : Nat}
    (begun : .begun c g ∈ w.history) :
    c < w.fresh ∧ ∀ a, ⟨c, a⟩ ∈ w.calls →
      ∃ o stage t, a = .reload o stage ∧ stage.attempt? = some t ∧ t.generation = g := by
  rcases moved.shift.mem_begun begun with old | ⟨rfl, -, o, known, entered⟩
  · obtain ⟨fresh, attempts⟩ := numbered.taken old
    refine ⟨Nat.lt_of_lt_of_le fresh moved.fresh_le, fun a present => ?_⟩
    obtain ⟨a', known⟩ := moved.was_call fresh present
    obtain ⟨o, stage, t, rfl, attempted, generation⟩ := attempts a' known
    obtain ⟨next, rfl, still, -⟩ :=
      moved.advances numbered.distinct numbered.guarded known attempted present
    exact ⟨o, next, t, rfl, still, generation⟩
  · refine ⟨Nat.lt_of_lt_of_le (numbered.distinct.lt_fresh _ known) moved.fresh_le,
      fun a present => ?_⟩
    obtain ⟨t, rfl, generation⟩ := entered a present
    exact ⟨o, _, t, rfl, rfl, generation⟩

/-- Who took a generation has not just arrived. -/
theorem not_arriving (numbered : v.Numbered) {g : Nat} (begun : .begun c g ∈ v.history) :
    ⟨c, .reload o .arriving⟩ ∉ v.calls := by
  intro known
  obtain ⟨-, attempts⟩ := numbered.taken begun
  obtain ⟨o', stage, t, same, attempted, -⟩ := attempts _ known
  cases same
  cases attempted

theorem once_move (numbered : v.Numbered) (moved : v.Move act w) {g g' : Nat}
    (first : .begun c g ∈ w.history) (second : .begun c g' ∈ w.history) : g = g' := by
  rcases moved.shift.mem_begun first with old | ⟨rfl, -, o, known, -⟩
  · rcases moved.shift.mem_begun second with old' | ⟨rfl, -, o, known, -⟩
    · exact numbered.once old old'
    · exact absurd known (numbered.not_arriving old)
  · rcases moved.shift.mem_begun second with old' | ⟨rfl, -⟩
    · exact absurd known (numbered.not_arriving old')
    · rfl

theorem move (numbered : v.Numbered) (moved : v.Move act w) : w.Numbered where
  distinct := numbered.distinct.move moved
  guarded := numbered.guarded.move moved
  positive := (numbered.begun_move moved).1
  begun := (numbered.begun_move moved).2
  taken := numbered.taken_move moved
  once := numbered.once_move moved
  attempt present attempted := (numbered.attempt_move moved present attempted).1
  decreasing := (numbered.installed_move moved).1
  below := (numbered.installed_move moved).2
  ahead present attempted := (numbered.attempt_move moved present attempted).2

end Numbered

end Standing

theorem Server.numbered_run (setup : Setup) (actions : List Server.Action) :
    ((Server.start setup).run actions).standing.Numbered := by
  refine Server.standing_run actions ?_ fun moved held => held.move moved
  constructor
  · exact Server.distinct_run setup []
  all_goals simp [Standing.begun, Standing.installed, Standing.Guarded]

end HotSwap

import HotSwap.Proofs.Generations.Reports

/-!
# How reports follow each other

A report names the generation that its installation replaced. That is the generation of the report
before, unless a shutdown emptied the slot since or an attempt was cut off or panicked.
-/

namespace HotSwap

/-- A call that ends so may have left something half done. -/
def Answer.breaks : Answer → Bool
  | .cancelled | .panic _ => true
  | _ => false

namespace Note

/-- The call passes the guard. -/
def begins (c : CallId) : Note → Bool
  | .begun d _ => d = c
  | _ => false

/-- The generation of the latest report, if nothing broke off since. The latest note comes first. -/
def latest : List Note → Option Nat
  | [] => none
  | .returned _ (.ok r) :: _ => some r.generation
  | .taken _ :: _ => none
  | .ended c x :: rest => if x.breaks && rest.any (begins c) then none else latest rest
  | _ :: rest => latest rest

variable {ns h : List Note} {c : CallId} {x : Answer} {g : Nat}

theorem latest_of_append (unreported : ∀ c r, .returned c (.ok r) ∉ ns)
    (found : latest (ns ++ h) = some g) : latest h = some g := by
  induction ns with
  | nil => exact found
  | cons n rest inductionHypothesis =>
    have further := inductionHypothesis fun c r there => unreported c r (.tail _ there)
    cases n with
    | returned c result =>
      cases result with
      | ok r => exact absurd List.mem_cons_self (unreported c r)
      | error e => exact further found
    | taken i => cases found
    | ended c x =>
      simp only [List.cons_append, latest] at found
      split at found
      · cases found
      · exact further found
    | _ => exact further found

theorem latest_broken (breaks : x.breaks) (begun : .begun c g ∈ h) :
    latest (.ended c x :: h) = none := by
  have any : h.any (begins c) = true := List.any_eq_true.mpr ⟨_, begun, by simp [begins]⟩
  simp [latest, breaks, any]

/-- Nothing happened in between that could keep the next report from naming the one before. -/
structure Unbroken (journal between : List Note) : Prop where
  untaken : ∀ i, .taken i ∉ between
  unreported : ∀ c r, .returned c (.ok r) ∉ between
  /-- No attempt was cut off or panicked. -/
  whole : ∀ c x, .ended c x ∈ between → x.breaks → ∀ g, .begun c g ∉ journal

theorem latest_unbroken {journal : List Note} (unbroken : Unbroken journal ns)
    (part : ns ++ h ⊆ journal) : latest (ns ++ h) = latest h := by
  induction ns with
  | nil => rfl
  | cons n rest inductionHypothesis =>
    have further : latest (rest ++ h) = latest h := by
      refine inductionHypothesis ⟨?_, ?_, ?_⟩ fun n there => part (.tail _ there)
      · exact fun i there => unbroken.untaken i (.tail _ there)
      · exact fun c r there => unbroken.unreported c r (.tail _ there)
      · exact fun c x there => unbroken.whole c x (.tail _ there)
    cases n with
    | returned c result =>
      cases result with
      | ok r => exact absurd List.mem_cons_self (unbroken.unreported c r)
      | error e => exact further
    | taken i => exact absurd List.mem_cons_self (unbroken.untaken i)
    | ended c x =>
      have whole : ¬ (x.breaks && (rest ++ h).any (begins c)) = true := by
        intro broken
        obtain ⟨breaks, any⟩ := Bool.and_eq_true_iff.mp broken
        obtain ⟨n, there, begins⟩ := List.any_eq_true.mp any
        cases n with
        | begun d g =>
          obtain rfl : d = c := of_decide_eq_true begins
          exact unbroken.whole d x List.mem_cons_self breaks g (part (.tail _ there))
        | _ => cases begins
      rw [List.cons_append, latest, if_neg whole]
      exact further
    | _ => exact further

end Note

/-- The attempt installed what it made in place of an engine of the generation. -/
def Reload.Stage.Replaces (g : Nat) : Reload.Stage → Prop
  | .retiring _ _ r => r.installation.generation = g
  | .completing _ _ previous => previous = some g
  | _ => False

namespace Reload.Stage

theorem late_of_replaces {stage : Stage} {g : Nat} (replaces : stage.Replaces g) : stage.Late := by
  cases stage with
  | retiring | completing => trivial
  | _ => exact replaces.elim

theorem attempt?_of_late {stage : Stage} (late : stage.Late) : ∃ t, stage.attempt? = some t := by
  cases stage with
  | retiring | completing => exact ⟨_, rfl⟩
  | _ => exact late.elim

theorem late_of_not_tries {stage : Stage} {t : Attempt} (attempted : stage.attempt? = some t)
    (tried : ¬ stage.Tries) : stage.Late := by
  cases stage with
  | arriving => cases attempted
  | retiring | completing => trivial
  | _ => exact absurd trivial tried

theorem Late.not_tries {stage : Stage} (late : stage.Late) : ¬ stage.Tries := by
  cases stage with
  | retiring | completing => exact id
  | _ => exact late.elim

end Reload.Stage

theorem Activity.inside_of_late {o : Origin} {stage : Reload.Stage} (late : stage.Late) :
    (Activity.reload o stage).Inside := by
  cases stage with
  | retiring | completing => trivial
  | _ => exact late.elim

namespace Standing

variable {v w u : Standing} {c d : CallId} {a b : Activity} {es : List Note} {x : Answer}
  {o : Origin} {stage next : Reload.Stage} {t : Attempt} {act : Server.Action} {g : Nat}

/-- An attempt whose engine is installed leaves the slot alone; before that, it fills the slot and
replaces what was there. -/
theorem Goes.late (goes : Goes v c a u es b) (starts : a = .reload o stage)
    (ends : b = .reload o next) (attempted : stage.attempt? = some t) (late : next.Late) :
    (stage.Late ∧ u.slot = v.slot ∧ ∀ g, stage.Replaces g → next.Replaces g) ∨
    ¬ stage.Late ∧ (∃ i, u.slot = some i ∧ i.generation = t.generation) ∧
      ∀ old, v.slot = some old → next.Replaces old.generation := by
  cases goes with
  | sleep hK | wake hK | clear hK | release hK =>
    cases hK with
    | reload =>
      cases starts
      cases ends
      exact .inl ⟨trivial, rfl, fun g => id⟩
    | _ => cases starts
  | released =>
    cases starts
    cases ends
    exact .inl ⟨trivial, rfl, fun g => congrArg some⟩
  | replace slot =>
    cases starts
    cases ends
    cases attempted
    refine .inr ⟨id, ⟨_, rfl, rfl⟩, fun old there => ?_⟩
    cases slot.symm.trans there
    rfl
  | install slot =>
    cases starts
    cases ends
    cases attempted
    refine .inr ⟨id, ⟨_, rfl, rfl⟩, fun old there => ?_⟩
    cases slot.symm.trans there
  | enter | mark | misfind | misconstruct | construct | ask | misask | obtain =>
    cases ends
    exact late.elim
  | _ => cases starts

/-- An attempt whose engine is installed ends with its report or in a panic. -/
theorem Stops.late (stops : Stops v c a u es x) (starts : a = .reload o stage)
    (attempted : stage.attempt? = some t) (late : stage.Late) :
    u.slot = v.slot ∧ ((x.breaks ∧ es = []) ∨
      ∃ r, x.breaks = false ∧ es = [.returned c (.ok r)] ∧ r.generation = t.generation) := by
  cases stops with
  | succeed =>
    cases starts
    cases attempted
    refine ⟨rfl, .inr ⟨_, ?_, rfl, rfl⟩⟩
    cases o <;> rfl
  | releasePanic => exact ⟨rfl, .inl ⟨rfl, rfl⟩⟩
  | refuse | constructorPanic | makerPanic | fail =>
    cases starts
    exact late.elim
  | _ => cases starts

/-- The next report will name the generation. Whoever is about to report replaced it, or no one is
and it is in the slot. -/
def Heralds (v : Standing) (g : Nat) : Prop :=
  (∃ c o stage, ⟨c, .reload o stage⟩ ∈ v.calls ∧ stage.Replaces g) ∨
    (∀ c o stage, ⟨c, .reload o stage⟩ ∈ v.calls → ¬ stage.Late) ∧
      ∃ i, v.slot = some i ∧ i.generation = g

/-- The next report will name the latest. -/
structure Chained (v : Standing) : Prop where
  /-- Whoever installed an engine finds it in the slot. -/
  current {c : CallId} {o : Origin} {stage : Reload.Stage} {t : Attempt} :
    ⟨c, .reload o stage⟩ ∈ v.calls → stage.Late → stage.attempt? = some t →
      ∃ i, v.slot = some i ∧ i.generation = t.generation
  latest {g : Nat} : Note.latest v.history = some g → v.Heralds g

namespace Chained

theorem current_move (chained : v.Chained) (numbered : v.Numbered) (moved : v.Move act w)
    (present : ⟨c, .reload o stage⟩ ∈ w.calls) (late : stage.Late)
    (attempted : stage.attempt? = some t) : ∃ i, w.slot = some i ∧ i.generation = t.generation := by
  rcases moved.was_attempt present attempted with ⟨before, t', known, attempted'⟩ | ⟨g, -, rfl, -⟩
  · obtain ⟨next, same, still, advances⟩ :=
      moved.advances numbered.distinct numbered.guarded known attempted' present
    cases same
    obtain rfl : t' = t := Option.some.inj (still.symm.trans attempted)
    cases advances with
    | aside aside => exact aside.slot ▸ chained.current known late attempted'
    | go goes =>
      rcases goes.late rfl rfl attempted' late with ⟨before, slot, -⟩ | ⟨-, installed, -⟩
      · obtain ⟨i, there, generation⟩ := chained.current known before attempted'
        exact ⟨i, slot.trans there, generation⟩
      · exact installed
    | leave retires =>
      subst retires
      exact chained.current known trivial attempted'
  · exact late.elim

/-- While an attempt retires what it replaced, the next report is its own. -/
theorem latest_late (chained : v.Chained) (numbered : v.Numbered) (moved : v.Move act w)
    (known : ⟨c, .reload o stage⟩ ∈ v.calls) (late : stage.Late)
    (found : Note.latest w.history = some g) : w.Heralds g := by
  obtain ⟨t, attempted⟩ := Reload.Stage.attempt?_of_late late
  have begun := (numbered.attempt known attempted).2
  have holds : v.guard.holder = some c :=
    numbered.guarded _ known (Activity.inside_of_late late)
  have alone {d : CallId} {o' : Origin} {other : Reload.Stage}
      (there : ⟨d, .reload o' other⟩ ∈ v.calls) (late' : other.Late) : d = c :=
    numbered.guarded.unique known (Activity.inside_of_late late) there
      (Activity.inside_of_late late')
  have replaces (before : Note.latest v.history = some g) : stage.Replaces g := by
    rcases chained.latest before with ⟨d, o', other, there, replaces⟩ | ⟨none, -⟩
    · obtain rfl := alone there (Reload.Stage.late_of_replaces replaces)
      cases numbered.distinct.activity_eq known there
      exact replaces
    · exact absurd late (none c o stage known)
  cases moved.turn numbered.distinct numbered.guarded holds known with
  | aside aside still =>
    obtain ⟨ns, grown, outside⟩ := aside.notes
    rw [grown] at found
    have before := Note.latest_of_append (fun d r there => outside _ there) found
    exact .inl ⟨c, o, stage, still, replaces before⟩
  | @go u es b goes =>
    have grown : (u.notes es).history = es ++ v.history := congrArg (es ++ ·) goes.frame.history
    obtain ⟨-, next, rfl, still, tries⟩ := goes.attempt rfl attempted
    have late' := Reload.Stage.late_of_not_tries still fun here =>
      late.not_tries (tries here).1
    have before := Note.latest_of_append (fun d r => goes.not_returned _) (grown ▸ found)
    rcases goes.late rfl rfl attempted late' with ⟨-, -, same⟩ | ⟨early, -⟩
    · refine .inl ⟨c, o, next, ?_, same g (replaces before)⟩
      exact mem_calls_proceedTo.mpr (.inr ⟨rfl, _, goes.frame.calls ▸ known, rfl⟩)
    · exact absurd late early
  | @stop u es x stops =>
    obtain ⟨slot, ⟨breaks, rfl⟩ | ⟨r, whole, rfl, generation⟩⟩ := stops.late rfl attempted late
    · have none := Note.latest_broken breaks (stops.frame.history ▸ begun)
      exact absurd (none.symm.trans found) nofun
    · have named : r.generation = g := by
        simpa [finish, notes, Note.latest, whole] using found
      refine .inr ⟨fun d o' other present late' => ?_, ?_⟩
      · obtain ⟨there, different⟩ := mem_calls_finish.mp present
        exact different (alone (stops.frame.calls ▸ there) late')
      · obtain ⟨i, there, same⟩ := chained.current known late attempted
        exact ⟨i, slot.trans there, by rw [same, ← generation, named]⟩
  | cut =>
    have none := Note.latest_broken (x := .cancelled) rfl begun
    exact absurd (none.symm.trans found) nofun
  | @leave o' t' p i d retires =>
    cases retires
    have before : Note.latest v.history = some g := found
    refine .inl ⟨c, o, .completing t' p (some i.generation), ?_, congrArg some (replaces before)⟩
    exact mem_calls_proceedTo.mpr (.inr ⟨rfl, _, mem_calls_begin.mpr (.inl known), rfl⟩)
  | leaveAll outside => exact absurd rfl (outside o stage)

/-- While none does, the next report will name what is in the slot. -/
theorem latest_early (chained : v.Chained) (numbered : v.Numbered) (moved : v.Move act w)
    (early : ∀ c o stage, ⟨c, .reload o stage⟩ ∈ v.calls → ¬ stage.Late)
    (found : Note.latest w.history = some g) : w.Heralds g := by
  have before : Note.latest v.history = some g := by
    obtain ⟨ns, es, grown, clerical, moves⟩ := moved.history
    rw [grown] at found
    refine Note.latest_of_append (fun d r there => ?_) found
    rcases List.mem_append.mp there with added | new
    · exact clerical _ added
    · rcases moves with rfl | ⟨c, a, u, known, -, ⟨b, goes⟩ | ⟨x, stops⟩⟩
      · cases new
      · exact goes.not_returned _ new
      · obtain ⟨-, o, t, p, previous, rfl, -⟩ := stops.reported new
        exact early _ _ _ known trivial
  rcases chained.latest before with ⟨c, o, stage, there, replaces⟩ | ⟨-, i, slot, generation⟩
  · exact absurd (Reload.Stage.late_of_replaces replaces) (early c o stage there)
  by_cases late : ∃ c o stage, ⟨c, .reload o stage⟩ ∈ w.calls ∧ stage.Late
  · obtain ⟨c, o, stage, present, late⟩ := late
    obtain ⟨t, attempted⟩ := Reload.Stage.attempt?_of_late late
    rcases moved.was_attempt present attempted with ⟨before, t', known, attempted'⟩ | ⟨g, -, rfl, -⟩
    · obtain ⟨next, same, -, advances⟩ :=
        moved.advances numbered.distinct numbered.guarded known attempted' present
      cases same
      cases advances with
      | aside => exact absurd late (early c o stage known)
      | go goes =>
        rcases goes.late rfl rfl attempted' late with ⟨earlier, -⟩ | ⟨-, -, replaces⟩
        · exact absurd earlier (early c o before known)
        · exact .inl ⟨c, o, stage, present, generation ▸ replaces i slot⟩
      | leave retires =>
        subst retires
        exact absurd trivial (early c o _ known)
    · exact late.elim
  · refine .inr ⟨fun c o stage present here => late ⟨c, o, stage, present, here⟩, ?_⟩
    cases moved.shift with
    | still same => exact ⟨i, same.trans slot, generation⟩
    | enter _ same => exact ⟨i, same.trans slot, generation⟩
    | install _ _ _ _ _ here => exact absurd ⟨_, _, here⟩ late
    | take _ _ _ _ noted =>
      rw [noted] at found
      cases found

theorem move (chained : v.Chained) (numbered : v.Numbered) (moved : v.Move act w) :
    w.Chained where
  current := chained.current_move numbered moved
  latest found := by
    by_cases late : ∃ c o stage, ⟨c, .reload o stage⟩ ∈ v.calls ∧ stage.Late
    · obtain ⟨c, o, stage, known, late⟩ := late
      exact chained.latest_late numbered moved known late found
    · refine chained.latest_early numbered moved (fun c o stage known here => ?_) found
      exact late ⟨c, o, stage, known, here⟩

/-- What a report names as the generation before. -/
theorem reported (chained : v.Chained) (numbered : v.Numbered) {previous : Option Nat} {p : String}
    (known : ⟨c, .reload o (.completing t p previous)⟩ ∈ v.calls)
    (found : Note.latest v.history = some g) : previous = some g := by
  rcases chained.latest found with ⟨d, o', stage, there, replaces⟩ | ⟨early, -⟩
  · have late := Reload.Stage.late_of_replaces replaces
    obtain rfl := numbered.guarded.unique known trivial there (Activity.inside_of_late late)
    cases numbered.distinct.activity_eq known there
    exact replaces
  · exact absurd trivial (early c o _ known)

end Chained

end Standing

theorem Server.chained_run (setup : Setup) (actions : List Server.Action) :
    ((Server.start setup).run actions).standing.Chained := by
  have numbered : (Server.start setup).standing.Numbered := Server.numbered_run setup []
  have chained : (Server.start setup).standing.Chained :=
    ⟨by simp, by simp [Note.latest]⟩
  exact (Server.standing_run (P := fun v => v.Numbered ∧ v.Chained) actions
    ⟨numbered, chained⟩ fun moved held => ⟨held.1.move moved, held.2.move held.1 moved⟩).2

end HotSwap

import HotSwap.Proofs.Generations.Chain
import HotSwap.Proofs.Generations.Service

/-!
# Reloads are visible

Once a reload reported its generation, the engine of that generation or a newer one is in the slot
until a shutdown takes it. So whoever looks after the report finds one.
-/

namespace HotSwap

namespace Note

/-- What was noted since the slot was emptied. The latest note comes first. -/
def sinceTaken (ns : List Note) : List Note := ns.takeWhile fun n => !n.takes

variable {ns h : List Note} {m n : Note}

theorem sinceTaken_cons (untaken : n.takes = false) :
    sinceTaken (n :: h) = n :: sinceTaken h :=
  List.takeWhile_cons_of_pos (by simp [untaken])

theorem not_mem_sinceTaken (taken : n.takes = true) : m ∉ sinceTaken (n :: h) := by
  simp [sinceTaken, taken]

theorem mem_sinceTaken_append (there : n ∈ sinceTaken (ns ++ h)) :
    n ∈ ns ∨ n ∈ sinceTaken h ∧ ∀ m ∈ ns, m.takes = false := by
  induction ns with
  | nil => exact .inr ⟨there, List.forall_mem_nil _⟩
  | cons m rest inductionHypothesis =>
    cases takes : m.takes with
    | true => exact absurd there (not_mem_sinceTaken takes)
    | false =>
      rw [List.cons_append, sinceTaken_cons takes] at there
      rcases List.mem_cons.mp there with rfl | there
      · exact .inl List.mem_cons_self
      · rcases inductionHypothesis there with new | ⟨old, untaken⟩
        · exact .inl (.tail _ new)
        · exact .inr ⟨old, List.forall_mem_cons.mpr ⟨takes, untaken⟩⟩

/-- To leave out the lines of the log does not matter. -/
theorem mem_sinceTaken_filter (there : n ∈ sinceTaken h) (noted : n.isLine = false) :
    n ∈ sinceTaken (h.filter fun n => !n.isLine) := by
  induction h with
  | nil => exact there
  | cons m rest inductionHypothesis =>
    cases takes : m.takes with
    | true => exact absurd there (not_mem_sinceTaken takes)
    | false =>
      rw [sinceTaken_cons takes] at there
      cases line : m.isLine with
      | true =>
        rw [List.filter_cons_of_neg (by simp [line])]
        rcases List.mem_cons.mp there with rfl | there
        · cases noted.symm.trans line
        · exact inductionHypothesis there
      | false =>
        rw [List.filter_cons_of_pos (by simp [line]), sinceTaken_cons takes]
        rcases List.mem_cons.mp there with rfl | there
        · exact List.mem_cons_self
        · exact .tail _ (inductionHypothesis there)

theorem takes_of_not_shifts (plain : ¬ n.Shifts) : n.takes = false := by
  cases n with
  | taken => exact absurd trivial plain
  | _ => rfl

theorem Clerical.not_shifts (clerical : n.Clerical) : ¬ n.Shifts := by
  cases n with
  | called | ended => exact id
  | _ => exact clerical.elim

end Note

namespace Standing

variable {v w : Standing} {act : Server.Action}

/-- Unless the slot is emptied, what is in it is as new as before. -/
theorem Numbered.lasts (numbered : v.Numbered) (moved : v.Move act w) {ns : List Note}
    (grown : w.history = ns ++ v.history) (untaken : ∀ n ∈ ns, n.takes = false) {g : Nat}
    (installed : g ∈ v.installed) {i : Installation} (slot : v.slot = some i)
    (newer : g ≤ i.generation) : ∃ j, w.slot = some j ∧ g ≤ j.generation := by
  have none : ns.countP Note.takes = 0 :=
    List.countP_eq_zero.mpr fun n new => by simp [untaken n new]
  have same : w.times Note.takes = v.times Note.takes := by
    rw [times, times, grown, List.countP_append, none, Nat.zero_add]
  have full : v.slot ≠ Option.none := by simp [slot]
  obtain ⟨j, current⟩ := Option.ne_none_iff_exists'.mp (moved.full full same)
  refine ⟨j, current, numbered.newer moved installed (fun k there => ?_) j current⟩
  cases slot.symm.trans there
  exact newer

/-- What was reported since the slot was emptied is in it, or something newer is. -/
def Visible (v : Standing) : Prop :=
  ∀ c r, .returned c (.ok r) ∈ Note.sinceTaken v.history →
    ∃ i, v.slot = some i ∧ r.generation ≤ i.generation

theorem Visible.move (visible : v.Visible) (numbered : v.Numbered) (reported : v.Reported)
    (chained : v.Chained) (moved : v.Move act w) : w.Visible := by
  intro c r there
  obtain ⟨ns, es, grown, clerical, moves⟩ := moved.history
  rw [grown] at there
  rcases Note.mem_sinceTaken_append there with new | ⟨old, untaken⟩
  · rcases List.mem_append.mp new with added | noted
    · exact (clerical _ added).elim
    · rcases moves with rfl | ⟨d, a, u, known, -, ⟨b, goes⟩ | ⟨x, stops⟩⟩
      · cases noted
      · exact absurd noted (goes.not_returned _)
      · -- who reports finds in the slot what it installed, and the report leaves the slot alone
        obtain ⟨-, -, plain⟩ := stops.still
        obtain ⟨rfl, o, t, p, previous, rfl, generation, -⟩ := stops.reported noted
        obtain ⟨i, slot, same⟩ := chained.current known trivial rfl
        obtain ⟨j, prev, installed, number, -⟩ := reported.installed known
        have there : t.generation ∈ v.installed :=
          List.mem_filterMap.mpr ⟨_, installed, congrArg some number⟩
        rw [generation]
        refine numbered.lasts moved grown (fun n there => ?_) there slot (Nat.le_of_eq same.symm)
        apply Note.takes_of_not_shifts
        rcases List.mem_append.mp there with added | noted
        · exact (clerical n added).not_shifts
        · exact plain n noted
  · obtain ⟨i, slot, newer⟩ := visible c r old
    have noted : .returned c (.ok r) ∈ v.history := (List.takeWhile_subset _) old
    obtain ⟨-, j, prev, installed, number, -⟩ := reported.returned noted
    have there : r.generation ∈ v.installed :=
      List.mem_filterMap.mpr ⟨_, installed, congrArg some number⟩
    exact numbered.lasts moved grown untaken there slot newer

end Standing

namespace Server

/-- What was noted since the slot was emptied, the latest first. -/
def sinceTaken (s : Server) : List Note := Note.sinceTaken s.journal

theorem visible_run (setup : Setup) (actions : List Action) :
    ((start setup).run actions).standing.Visible := by
  have numbered : (start setup).standing.Numbered := numbered_run setup []
  have reported : (start setup).standing.Reported := reported_run setup []
  have chained : (start setup).standing.Chained := chained_run setup []
  exact (standing_run (P := fun v => v.Numbered ∧ v.Reported ∧ v.Chained ∧ v.Visible) actions
    ⟨numbered, reported, chained, by simp [Standing.Visible, Note.sinceTaken]⟩
    fun moved ⟨numbered, reported, chained, visible⟩ =>
      ⟨numbered.move moved, reported.move numbered moved, chained.move numbered moved,
        visible.move numbered reported chained moved⟩).2.2.2

/-- Since the slot was emptied nothing was reported that is newer than what is in it. -/
theorem newer_of_reported {s : Server} (visible : s.standing.Visible) {c : CallId} {r : Report}
    (reported : .returned c (.ok r) ∈ s.sinceTaken) :
    ∃ i, s.slot = some i ∧ r.generation ≤ i.generation :=
  visible c r (Note.mem_sinceTaken_filter reported rfl)

end Server

end HotSwap

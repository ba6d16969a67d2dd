import HotSwap.Proofs.Standing.Run

/-!
# Executions

What a call has engines execute is noted. A call stays where it is, with what it executed and what
it was answered, unless a step lets it go on or cuts it off.
-/

namespace HotSwap

/-- What the call has an engine execute. -/
def Note.execution? (c : CallId) : Note → Option (Installation × Graphql.Request)
  | .executed d i input => if d = c then some (i, input) else none
  | _ => none

namespace Standing

variable {v w u : Standing} {c d : CallId} {a b : Activity} {es : List Note} {x : Answer}
  {act : Server.Action}

/-- What the call had engines execute, the latest first. -/
def executions (v : Standing) (c : CallId) : List (Installation × Graphql.Request) :=
  v.history.filterMap (Note.execution? c)

theorem Goes.unexecuted (goes : Goes v d a u es b) (other : d ≠ c) :
    es.filterMap (Note.execution? c) = [] := by
  cases goes <;> simp [Note.execution?, other]

theorem Stops.unexecuted (stops : Stops v d a u es x) : es.filterMap (Note.execution? c) = [] := by
  cases stops <;> simp [Note.execution?]

theorem executions_notes (frame : Frame v u)
    (silent : es.filterMap (Note.execution? c) = []) :
    (u.notes es).executions c = v.executions c := by
  rw [executions, notes, List.filterMap_append, silent, frame.history]
  rfl

/-- Nothing happened to the call. -/
structure Untouched (c : CallId) (v w : Standing) : Prop where
  calls (a : Activity) : ⟨c, a⟩ ∈ w.calls ↔ ⟨c, a⟩ ∈ v.calls
  answers : w.answers.lookup c = v.answers.lookup c
  executions : w.executions c = v.executions c

namespace Untouched

theorem begin (known : c < v.fresh) : Untouched c v (v.begin a) where
  calls b := by simp [mem_calls_begin, Nat.ne_of_lt known]
  answers := rfl
  executions := rfl

theorem finish (other : d ≠ c) (frame : Frame v u)
    (silent : es.filterMap (Note.execution? c) = []) :
    Untouched c v ((u.notes es).finish d x) where
  calls b := by
    rw [mem_calls_finish, show (u.notes es).calls = v.calls from frame.calls]
    simp [Ne.symm other]
  answers := by
    change ((d, x) :: u.answers).lookup c = _
    rw [frame.answers, List.lookup_cons, beq_false_of_ne (Ne.symm other)]
  executions := executions_notes frame silent

theorem proceedTo (other : d ≠ c) (frame : Frame v u)
    (silent : es.filterMap (Note.execution? c) = []) :
    Untouched c v ((u.notes es).proceedTo d b) where
  calls a := by
    rw [mem_calls_proceedTo, show (u.notes es).calls = v.calls from frame.calls]
    simp [Ne.symm other]
  answers := congrArg (List.lookup c) frame.answers
  executions := executions_notes frame silent

theorem trans (first : Untouched c v u) (second : Untouched c u w) : Untouched c v w where
  calls a := (second.calls a).trans (first.calls a)
  answers := second.answers.trans first.answers
  executions := second.executions.trans first.executions

end Untouched

theorem Move.untouched (moved : v.Move act w) (known : c < v.fresh) (still : act ≠ .proceed c)
    (uncut : act ≠ .cancel c) : Untouched c v w := by
  have other {d : CallId} (proceeds : act = .proceed d) : d ≠ c := by
    rintro rfl
    exact still proceeds
  have frame (v : Standing) : Frame v v := ⟨rfl, rfl, rfl, rfl, rfl, Nat.le_refl _⟩
  have silent : ([] : List Note).filterMap (Note.execution? c) = [] := rfl
  cases moved with
  | rest => exact ⟨fun _ => Iff.rfl, rfl, rfl⟩
  | number => exact ⟨fun _ => Iff.rfl, rfl, rfl⟩
  | keep => exact ⟨fun _ => Iff.rfl, rfl, rfl⟩
  | start => exact .begin known
  | @cut d => exact .finish (fun same => uncut (congrArg _ same)) (frame v) silent
  | go _ goes => exact .proceedTo (other rfl) goes.frame (goes.unexecuted (other rfl))
  | stop _ stops => exact .finish (other rfl) stops.frame stops.unexecuted
  | leave => exact (Untouched.begin known).trans (.proceedTo (other rfl) (frame _) silent)
  | leaveAll => exact (Untouched.begin known).trans (.finish (other rfl) (frame _) silent)

/-- No call has the numbers from `fresh` on, and none has executed anything. -/
def Unused (v : Standing) : Prop := ∀ c, v.fresh ≤ c → v.executions c = []

theorem Unused.move (unused : v.Unused) (distinct : v.Distinct) (moved : v.Move act w) :
    w.Unused := by
  intro c later
  have unknown (a : Activity) : ⟨c, a⟩ ∉ v.calls := fun known =>
    absurd (distinct.lt_fresh _ known) (Nat.not_lt.mpr (Nat.le_trans moved.fresh_le later))
  obtain ⟨ns, es, grown, clerical, moves⟩ := moved.history
  have silent : ns.filterMap (Note.execution? c) = [] := by
    apply List.filterMap_eq_nil_iff.mpr
    intro n added
    cases n with
    | executed => exact (clerical _ added).elim
    | _ => rfl
  have before : v.history.filterMap (Note.execution? c) = [] :=
    unused c (Nat.le_trans moved.fresh_le later)
  rw [executions, grown, List.filterMap_append, List.filterMap_append, silent, before]
  rcases moves with rfl | ⟨d, a, u, known, -, ⟨b, goes⟩ | ⟨x, stops⟩⟩
  · rfl
  · have other : d ≠ c := by
      rintro rfl
      exact unknown a known
    rw [goes.unexecuted other]
    rfl
  · rw [stops.unexecuted]
    rfl

end Standing

namespace Server

open Standing

variable {s u : Server} {c : CallId} {a b : Activity} {x : Answer} {act : Action}

/-- What the call had engines execute, the latest first. -/
def executions (s : Server) (c : CallId) : List (Installation × Graphql.Request) :=
  s.journal.filterMap (Note.execution? c)

theorem standing_executions (s : Server) (c : CallId) :
    s.standing.executions c = s.executions c :=
  s.filterMap_history fun _ _ => rfl

theorem activity?_iff (distinct : s.standing.Distinct) :
    s.activity? c = some a ↔ ⟨c, a⟩ ∈ s.standing.calls :=
  ⟨mem_calls_of_activity?, activity?_of_mem distinct⟩

/-- Nothing happened to the call. -/
structure Untouched (s u : Server) (c : CallId) : Prop where
  activity : u.activity? c = s.activity? c
  answer : u.answer? c = s.answer? c
  executions : u.executions c = s.executions c

theorem Untouched.refl : s.Untouched s c := ⟨rfl, rfl, rfl⟩

theorem untouched_of_standing (distinct : s.standing.Distinct) (distinct' : u.standing.Distinct)
    (untouched : Standing.Untouched c s.standing u.standing) : s.Untouched u c where
  activity := by
    ext a
    exact (activity?_iff distinct').trans ((untouched.calls a).trans (activity?_iff distinct).symm)
  answer := untouched.answers
  executions := by rw [← standing_executions, ← standing_executions, untouched.executions]

/-- Whatever else goes on leaves the call alone. -/
theorem untouched_step (distinct : s.standing.Distinct) (known : c < s.fresh)
    (still : act ≠ .proceed c) (uncut : act ≠ .cancel c) : s.Untouched (s.step act) c :=
  have moved := s.move_step act
  untouched_of_standing distinct (distinct.move moved) (moved.untouched known still uncut)

/-- A call that has ended neither goes on nor can be cut off. -/
theorem step_ended (ended : s.activity? c = none) (own : act = .proceed c ∨ act = .cancel c) :
    s.step act = s := by
  rcases own with rfl | rfl
  · simp only [step, proceed, ended]
  · simp only [step, cancel, ended]

/-- A call that has ended is left alone ever after. -/
theorem untouched_ended (distinct : s.standing.Distinct) (known : c < s.fresh)
    (ended : s.activity? c = none) (act : Action) : s.Untouched (s.step act) c := by
  by_cases own : act = .proceed c ∨ act = .cancel c
  · rw [step_ended ended own]
    exact .refl
  · obtain ⟨proceeds, cancels⟩ := not_or.mp own
    exact untouched_step distinct known proceeds cancels

theorem unused_run (setup : Setup) (actions : List Action) :
    ((start setup).run actions).standing.Unused :=
  (standing_run (P := fun v => v.Distinct ∧ v.Unused) actions
    ⟨distinct_run setup [], fun _ _ => rfl⟩
    fun moved ⟨distinct, unused⟩ => ⟨distinct.move moved, unused.move distinct moved⟩).2

/-- A call that goes on is where it goes, and executes what it notes. -/
theorem proceeded (es : List Note) (active : s.activity? c = some a)
    (gone : u.standing = (s.standing.notes es).proceedTo c b) :
    u.activity? c = some b ∧
      u.executions c = es.filterMap (Note.execution? c) ++ s.executions c := by
  have calls : u.calls = (s.proceedTo c b).calls := congrArg Standing.calls gone
  refine ⟨(activity?_congr calls).trans (activity?_proceedTo active), ?_⟩
  rw [← standing_executions, ← standing_executions, gone]
  exact List.filterMap_append

/-- A call that stops has its answer, and executes no more. -/
theorem stopped (gone : u.standing = s.standing.finish c x) :
    u.activity? c = none ∧ u.answer? c = some x ∧ u.executions c = s.executions c := by
  refine ⟨?_, ?_, ?_⟩
  · have calls : u.calls = s.calls.filter (·.id ≠ c) := congrArg Standing.calls gone
    simp [activity?, call?, calls]
  · have answers : u.answers = (c, x) :: s.answers := congrArg Standing.answers gone
    simp [answer?, answers]
  · rw [← standing_executions, ← standing_executions, gone]
    rfl

/-- A step lets a call go on, cuts it off, or leaves it alone. -/
theorem step_active (distinct : s.standing.Distinct) (active : s.activity? c = some a)
    (act : Action) :
    act = .proceed c ∨
      ((s.step act).activity? c = none ∧ (s.step act).answer? c = some .cancelled ∧
        (s.step act).executions c = s.executions c) ∨
      s.Untouched (s.step act) c := by
  by_cases proceeds : act = .proceed c
  · exact .inl proceeds
  · by_cases cancels : act = .cancel c
    · subst cancels
      exact .inr (.inl (stopped (standing_cancel active)))
    · have known : c < s.fresh := distinct.lt_fresh _ (mem_calls_of_activity? active)
      exact .inr (.inr (untouched_step distinct known proceeds cancels))

end Server

end HotSwap

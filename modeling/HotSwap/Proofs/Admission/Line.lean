import HotSwap.Proofs.Standing.Guard

/-!
# The line at the guard

Whoever holds the guard stands at the head of a line, and those who wait for it stand behind. The
calls in line are those that contend for the guard and no others, so that the guard is free once
the last of them is gone, however it ended.
-/

namespace HotSwap

namespace Guard

variable {g inside : Guard} {c : CallId}

/-- The holder, and those behind. -/
def line (g : Guard) : List CallId := g.holder.toList ++ g.queue

/-- No one waits for a guard that no one holds. -/
def Tight (g : Guard) : Prop := g.holder = none → g.queue = []

theorem line_eq_nil_iff : g.line = [] ↔ g.holder = none ∧ g.queue = [] := by
  simp [line]

theorem mem_line_of_holder (holds : g.holder = some c) : c ∈ g.line := by
  simp [line, holds]

theorem enter?_eq_none_iff : g.enter? c = none ↔ g.line ≠ [] := by
  simp [enter?, line]

theorem line_enter? (enters : g.enter? c = some inside) : g.line = [] ∧ inside.line = [c] := by
  unfold enter? at enters
  split at enters
  · next free =>
    cases enters
    exact ⟨line_eq_nil_iff.mpr free, rfl⟩
  · cases enters

theorem line_join (tight : g.Tight) : (g.join c).line = g.line ++ [c] := by
  unfold join
  split
  · next free => simp [line, free, tight free]
  · simp [line]

theorem line_leave : (g.leave c).line = g.line.erase c := by
  unfold leave
  split
  · next holds =>
    cases queued : g.queue with
    | nil => simp [line, holds, queued]
    | cons next rest => simp [line, holds, queued]
  · next other =>
    cases holds : g.holder with
    | none => simp [line, holds]
    | some d =>
      have different : d ≠ c := fun same => other (by rw [holds, same])
      simp [line, holds, different]

/-- Who is not in line leaves it as it is. -/
theorem leave_of_not_mem (outside : c ∉ g.line) : g.leave c = g := by
  have free : g.holder ≠ some c := fun holds => outside (mem_line_of_holder holds)
  have absent : c ∉ g.queue := fun queued => outside (List.mem_append_right _ queued)
  rw [leave, if_neg free, List.erase_of_not_mem absent]

theorem tight_enter? (enters : g.enter? c = some inside) : inside.Tight := fun free => by
  rw [(enter?_eq enters).2] at free
  cases free

theorem tight_join : (g.join c).Tight := by
  unfold join
  split
  · exact fun free => by cases free
  · next held => exact fun free => absurd free held

theorem Tight.leave (tight : g.Tight) : (g.leave c).Tight := by
  unfold Guard.leave
  split
  · intro free
    have empty : g.queue = [] := List.head?_eq_none_iff.mp free
    exact congrArg List.tail empty
  · intro free
    have empty : g.queue = [] := tight free
    exact congrArg (List.erase · c) empty

end Guard

/-- The call is past the guard, or in line for it. -/
def Activity.Contends (a : Activity) : Prop := a = .shutdown .queued ∨ a.Inside

theorem Activity.Retires.contends {K : Retirement → Activity} (hK : Activity.Retires K)
    {r r' : Retirement} (contends : (K r).Contends) : (K r').Contends := by
  cases hK with
  | reload | shutdown => exact .inr trivial
  | background => rcases contends with same | inside <;> [cases same; cases inside]

namespace Standing

variable {v w u : Standing} {c d : CallId} {a b : Activity} {es : List Note} {x : Answer}
  {act : Server.Action}

theorem Opens.not_contends (opens : v.Opens a) : ¬ a.Contends := by
  rintro (rfl | inside)
  · cases opens
  · exact opens.not_inside inside

def Contender (v : Standing) (d : CallId) : Prop := ∃ a, ⟨d, a⟩ ∈ v.calls ∧ a.Contends

theorem Distinct.contender_iff (distinct : v.Distinct) (known : ⟨c, a⟩ ∈ v.calls) :
    v.Contender c ↔ a.Contends := by
  constructor
  · rintro ⟨b, present, contends⟩
    exact distinct.activity_eq known present ▸ contends
  · exact fun contends => ⟨a, known, contends⟩

theorem contender_begin (outside : ¬ a.Contends) : (v.begin a).Contender d ↔ v.Contender d := by
  constructor
  · rintro ⟨b, present, contends⟩
    rcases mem_calls_begin.mp present with known | same
    · exact ⟨b, known, contends⟩
    · cases same
      exact absurd contends outside
  · rintro ⟨b, known, contends⟩
    exact ⟨b, mem_calls_begin.mpr (.inl known), contends⟩

theorem contender_finish : (v.finish c x).Contender d ↔ d ≠ c ∧ v.Contender d := by
  constructor
  · rintro ⟨b, present, contends⟩
    obtain ⟨known, other⟩ := mem_calls_finish.mp present
    exact ⟨other, b, known, contends⟩
  · rintro ⟨other, b, known, contends⟩
    exact ⟨b, mem_calls_finish.mpr ⟨known, other⟩, contends⟩

theorem contender_proceedTo (known : ⟨c, a⟩ ∈ v.calls) :
    (v.proceedTo c b).Contender d ↔ d ≠ c ∧ v.Contender d ∨ d = c ∧ b.Contends := by
  constructor
  · rintro ⟨b', present, contends⟩
    rcases mem_calls_proceedTo.mp present with ⟨there, other⟩ | ⟨same, -⟩
    · exact .inl ⟨other, b', there, contends⟩
    · cases same
      exact .inr ⟨rfl, contends⟩
  · rintro (⟨other, b', there, contends⟩ | ⟨rfl, contends⟩)
    · exact ⟨b', mem_calls_proceedTo.mpr (.inl ⟨there, other⟩), contends⟩
    · exact ⟨b, mem_calls_proceedTo.mpr (.inr ⟨rfl, _, known, rfl⟩), contends⟩

/-- Whoever goes on keeps the place in line, or gets in line behind all others. -/
theorem Goes.line (goes : Goes v c a u es b) (tight : v.guard.Tight) :
    u.guard.Tight ∧
      (u.guard.line = v.guard.line ∧ (b.Contends ↔ a.Contends) ∨
        u.guard.line = v.guard.line ++ [c] ∧ ¬ a.Contends ∧ b.Contends) := by
  have inside {a : Activity} (inside : a.Inside) : a.Contends := .inr inside
  cases goes with
  | enter enters =>
    obtain ⟨free, alone⟩ := Guard.line_enter? enters
    refine ⟨Guard.tight_enter? enters, .inr ⟨by rw [free]; exact alone, ?_, .inr trivial⟩⟩
    exact fun contends => contends.elim nofun id
  | join =>
    refine ⟨Guard.tight_join, .inr ⟨Guard.line_join tight, ?_, .inl rfl⟩⟩
    exact fun contends => contends.elim nofun id
  | sleep hK | wake hK | clear hK | release hK =>
    exact ⟨tight, .inl ⟨rfl, hK.contends, hK.contends⟩⟩
  | take => exact ⟨tight, .inl ⟨rfl, fun _ => .inl rfl, fun _ => .inr trivial⟩⟩
  | mark | misfind | misconstruct | construct | ask | misask | obtain | replace | install |
    released =>
    exact ⟨tight, .inl ⟨rfl, fun _ => .inr trivial, fun _ => .inr trivial⟩⟩
  | _ => exact ⟨tight, .inl ⟨rfl, by simp [Activity.Contends, Activity.Inside]⟩⟩

/-- The calls in line at the guard are those that contend for it. -/
structure Lined (v : Standing) : Prop where
  distinct : v.Distinct
  tight : v.guard.Tight
  nodup : v.guard.line.Nodup
  mem_line (c : CallId) : c ∈ v.guard.line ↔ v.Contender c

namespace Lined

theorem begin (lined : v.Lined) (outside : ¬ a.Contends) : (v.begin a).Lined :=
  ⟨lined.distinct.begin, lined.tight, lined.nodup,
    fun d => (lined.mem_line d).trans (contender_begin outside).symm⟩

theorem finish (lined : v.Lined) : (v.finish c x).Lined where
  distinct := lined.distinct.finish
  tight := lined.tight.leave
  nodup := by
    change (v.guard.leave c).line.Nodup
    rw [Guard.line_leave]
    exact lined.nodup.erase c
  mem_line d := by
    change d ∈ (v.guard.leave c).line ↔ _
    rw [Guard.line_leave, lined.nodup.mem_erase_iff, contender_finish, lined.mem_line]

theorem proceedTo (lined : v.Lined) (known : ⟨c, a⟩ ∈ v.calls) (same : b.Contends ↔ a.Contends) :
    (v.proceedTo c b).Lined where
  distinct := lined.distinct.proceedTo
  tight := lined.tight
  nodup := lined.nodup
  mem_line d := by
    change d ∈ v.guard.line ↔ _
    rw [lined.mem_line, contender_proceedTo known, same]
    by_cases here : d = c
    · subst here
      simp [lined.distinct.contender_iff known]
    · simp [here]

theorem go (lined : v.Lined) (known : ⟨c, a⟩ ∈ v.calls) (goes : Goes v c a u es b) :
    ((u.notes es).proceedTo c b).Lined := by
  have frame := goes.frame
  have same (d : CallId) : (u.notes es).Contender d ↔ v.Contender d := by
    change (∃ a, _ ∈ u.calls ∧ _) ↔ _
    rw [frame.calls]
    rfl
  have present : ⟨c, a⟩ ∈ (u.notes es).calls := frame.calls ▸ known
  obtain ⟨tight, ⟨line, contends⟩ | ⟨line, before, after⟩⟩ := goes.line lined.tight
  · have lined' : (u.notes es).Lined := by
      refine ⟨(lined.distinct.frame frame).notes, tight, ?_, fun d => ?_⟩
      · exact line ▸ lined.nodup
      · change d ∈ u.guard.line ↔ _
        rw [line, lined.mem_line, same]
    exact lined'.proceedTo present contends
  · have absent : c ∉ v.guard.line := fun there =>
      before ((lined.distinct.contender_iff known).mp ((lined.mem_line c).mp there))
    refine ⟨(lined.distinct.frame frame).notes.proceedTo, tight, ?_, fun d => ?_⟩
    · change u.guard.line.Nodup
      rw [line]
      exact List.nodup_append_comm.mp (List.nodup_cons.mpr ⟨absent, lined.nodup⟩)
    · change d ∈ u.guard.line ↔ _
      rw [line, List.mem_append, List.mem_singleton, lined.mem_line, contender_proceedTo present,
        same]
      by_cases here : d = c
      · simp [here, after]
      · simp [here]

theorem move (lined : v.Lined) (moved : Move v act w) : w.Lined := by
  have distinct : w.Distinct := lined.distinct.move moved
  cases moved with
  | rest => exact lined
  | number | keep => exact ⟨distinct, lined.tight, lined.nodup, lined.mem_line⟩
  | start opens => exact lined.begin opens.not_contends
  | cut => exact lined.finish
  | go known goes => exact lined.go known goes
  | @stop c a u es x known stops =>
    have frame := stops.frame
    have lined' : (u.notes es).Lined := by
      refine ⟨(lined.distinct.frame frame).notes, ?_, ?_, fun d => ?_⟩
      · exact stops.guard ▸ lined.tight
      · exact stops.guard ▸ lined.nodup
      · change d ∈ u.guard.line ↔ ∃ a, _ ∈ u.calls ∧ _
        rw [stops.guard, frame.calls]
        exact lined.mem_line d
    exact lined'.finish
  | @leave c o a p i d known =>
    have lined' : (v.begin (.retirement ⟨i, none, .polling⟩)).Lined := lined.begin nofun
    refine lined'.proceedTo (mem_calls_begin.mpr (.inl known)) ?_
    exact iff_of_true (.inr trivial) (.inr trivial)
  | leaveAll =>
    exact (lined.begin (a := .retirement _) nofun).finish

end Lined

end Standing

theorem Server.lined_run (setup : Setup) (actions : List Server.Action) :
    ((Server.start setup).run actions).standing.Lined := by
  refine Server.standing_run actions ?_ fun moved held => held.move moved
  refine ⟨Server.distinct_run setup [], fun _ => rfl, List.nodup_nil, fun c => ?_⟩
  constructor
  · exact fun there => absurd there List.not_mem_nil
  · rintro ⟨a, present, -⟩
    exact absurd present List.not_mem_nil

end HotSwap

import Mathlib.Data.List.Nodup
import HotSwap.Proofs.Standing.Move

/-!
# The calls of a standing

Every call has a number of its own, so that a move concerns one call and leaves the others where
they are. What is counted over the calls then changes by what that call contributes.
-/

namespace HotSwap.Standing

variable {v w : Standing} {c : CallId} {a b : Activity}

/-! Which calls there are after something happened to one of them. -/

theorem mem_calls_proceedTo {call : Call} :
    call ∈ (v.proceedTo c b).calls ↔
      call ∈ v.calls ∧ call.id ≠ c ∨ call = ⟨c, b⟩ ∧ ∃ e ∈ v.calls, e.id = c := by
  simp only [proceedTo, List.mem_map]
  constructor
  · rintro ⟨e, here, rfl⟩
    by_cases same : e.id = c
    · rw [if_pos same]
      exact .inr ⟨by rw [same], e, here, same⟩
    · rw [if_neg same]
      exact .inl ⟨here, same⟩
  · rintro (⟨present, same⟩ | ⟨rfl, e, here, same⟩)
    · exact ⟨call, present, if_neg same⟩
    · exact ⟨e, here, by rw [if_pos same, same]⟩

theorem mem_proceedTo (known : ⟨c, a⟩ ∈ v.calls) : ⟨c, b⟩ ∈ (v.proceedTo c b).calls :=
  mem_calls_proceedTo.mpr (.inr ⟨rfl, _, known, rfl⟩)

theorem mem_calls_begin {call : Call} :
    call ∈ (v.begin a).calls ↔ call ∈ v.calls ∨ call = ⟨v.fresh, a⟩ := by
  simp [begin]

theorem mem_calls_finish {x : Answer} {call : Call} :
    call ∈ (v.finish c x).calls ↔ call ∈ v.calls ∧ call.id ≠ c := by
  simp [finish]

/-- Every call has a number of its own, and the next one will. -/
structure Distinct (v : Standing) : Prop where
  nodup : (v.calls.map Call.id).Nodup
  lt_fresh : ∀ call ∈ v.calls, call.id < v.fresh

namespace Distinct

theorem activity_eq (distinct : v.Distinct) (first : ⟨c, a⟩ ∈ v.calls)
    (second : ⟨c, b⟩ ∈ v.calls) : a = b := by
  have same := List.inj_on_of_nodup_map distinct.nodup first second rfl
  cases same
  rfl

theorem proceedTo (distinct : v.Distinct) : (v.proceedTo c b).Distinct where
  nodup := by
    have ids : (v.proceedTo c b).calls.map Call.id = v.calls.map Call.id := by
      simp only [Standing.proceedTo, List.map_map]
      apply List.map_congr_left
      intro e _
      by_cases same : e.id = c <;> simp [same]
    rw [ids]
    exact distinct.nodup
  lt_fresh call present := by
    rcases mem_calls_proceedTo.mp present with ⟨present, -⟩ | ⟨rfl, e, here, rfl⟩
    · exact distinct.lt_fresh call present
    · exact distinct.lt_fresh e here

theorem begin (distinct : v.Distinct) : (v.begin a).Distinct where
  nodup := by
    have unused : v.fresh ∉ v.calls.map Call.id := by
      intro there
      obtain ⟨call, present, same⟩ := List.mem_map.mp there
      exact absurd (distinct.lt_fresh call present) (by rw [same]; exact Nat.lt_irrefl _)
    simpa [Standing.begin, List.nodup_append] using
      ⟨distinct.nodup, fun call present same => unused (List.mem_map.mpr ⟨call, present, same⟩)⟩
  lt_fresh call present := by
    show call.id < v.fresh + 1
    rcases mem_calls_begin.mp present with present | rfl
    · exact Nat.lt_succ_of_lt (distinct.lt_fresh call present)
    · exact Nat.lt_succ_self _

theorem finish {x : Answer} (distinct : v.Distinct) : (v.finish c x).Distinct where
  nodup := distinct.nodup.sublist (List.filter_sublist.map _)
  lt_fresh call present := distinct.lt_fresh call (mem_calls_finish.mp present).1

theorem notes {es : List Note} (distinct : v.Distinct) : (v.notes es).Distinct :=
  ⟨distinct.nodup, distinct.lt_fresh⟩

theorem frame {u : Standing} (distinct : v.Distinct) (frame : Frame v u) : u.Distinct where
  nodup := frame.calls ▸ distinct.nodup
  lt_fresh call present :=
    Nat.lt_of_lt_of_le (distinct.lt_fresh call (frame.calls ▸ present)) frame.fresh

theorem move {act : Server.Action} (distinct : v.Distinct) (moved : Move v act w) :
    w.Distinct := by
  cases moved with
  | rest => exact distinct
  | number => exact distinct.frame ⟨rfl, rfl, rfl, rfl, rfl, Nat.le_succ _⟩
  | keep => exact ⟨distinct.nodup, distinct.lt_fresh⟩
  | start => exact distinct.begin
  | cut => exact distinct.finish
  | go _ goes => exact (distinct.frame goes.frame).notes.proceedTo
  | stop _ stops => exact (distinct.frame stops.frame).notes.finish
  | leave => exact distinct.begin.proceedTo
  | leaveAll => exact distinct.begin.finish

end Distinct

/-- Where a call after a move comes from. -/
inductive Comes (v w : Standing) (call : Call) : Prop
  | stays (known : call ∈ v.calls)
  | begins (new : call.id = v.fresh) (opens : v.Opens call.activity)
  | proceeds {a : Activity} {u : Standing} {es : List Note} (known : ⟨call.id, a⟩ ∈ v.calls)
      (goes : Goes v call.id a u es call.activity)
      (same : w = (u.notes es).proceedTo call.id call.activity)
  | handed {i : Installation} (new : call.id = v.fresh)
      (retires : call.activity = .retirement ⟨i, none, .polling⟩)
  | completes {o : Origin} {t : Attempt} {p : String} {i : Installation} {d : Option Time}
      (known : ⟨call.id, .reload o (.retiring t p ⟨i, d, .polling⟩)⟩ ∈ v.calls)
      (completing : call.activity = .reload o (.completing t p (some i.generation)))

theorem Move.comes {act : Server.Action} (moved : Move v act w) {call : Call}
    (present : call ∈ w.calls) : Comes v w call := by
  cases moved with
  | rest => exact .stays present
  | number => exact .stays present
  | keep => exact .stays present
  | start opens =>
    rcases mem_calls_begin.mp present with earlier | rfl
    · exact .stays earlier
    · exact .begins rfl opens
  | cut => exact .stays (mem_calls_finish.mp present).1
  | @go c a b u es known goes =>
    rcases mem_calls_proceedTo.mp present with ⟨other, -⟩ | ⟨rfl, -⟩
    · exact .stays (goes.frame.calls ▸ other)
    · exact .proceeds known goes rfl
  | stop known stops =>
    exact .stays (stops.frame.calls ▸ (mem_calls_finish.mp present).1)
  | leave known inUse =>
    rcases mem_calls_proceedTo.mp present with ⟨other, -⟩ | ⟨rfl, -⟩
    · rcases mem_calls_begin.mp other with earlier | rfl
      · exact .stays earlier
      · exact .handed rfl rfl
    · exact .completes known rfl
  | leaveAll hK outside known inUse =>
    rcases mem_calls_begin.mp (mem_calls_finish.mp present).1 with earlier | rfl
    · exact .stays earlier
    · exact .handed rfl rfl

/-! How many calls are at something. -/

/-- How many calls have an activity with the property. -/
def tally (v : Standing) (p : Activity → Prop) [DecidablePred p] : Nat :=
  v.calls.countP fun call => p call.activity

variable {p : Activity → Prop} [DecidablePred p]

/-- A call among the others. -/
theorem Distinct.split (distinct : v.Distinct) (known : ⟨c, a⟩ ∈ v.calls) :
    ∃ before after, v.calls = before ++ ⟨c, a⟩ :: after ∧
      (∀ e ∈ before, e.id ≠ c) ∧ ∀ e ∈ after, e.id ≠ c := by
  obtain ⟨before, after, split⟩ := List.append_of_mem known
  refine ⟨before, after, split, ?_, ?_⟩
  all_goals
    intro e here same
    have nodup := distinct.nodup
    rw [split, List.map_append, List.nodup_append] at nodup
    have there := List.mem_map_of_mem (f := Call.id) here
  · exact nodup.2.2 e.id there c (by simp) same
  · have unique := (List.nodup_cons.mp nodup.2.1).1
    exact unique (same ▸ there)

theorem tally_proceedTo (distinct : v.Distinct) (known : ⟨c, a⟩ ∈ v.calls) :
    (v.proceedTo c b).tally p + (if p a then 1 else 0) =
      v.tally p + (if p b then 1 else 0) := by
  obtain ⟨before, after, split, first, last⟩ := distinct.split known
  have keep (es : List Call) (others : ∀ e ∈ es, e.id ≠ c) :
      es.map (fun e => if e.id = c then { e with activity := b } else e) = es := by
    rw [List.map_congr_left fun e here => if_neg (others e here), List.map_id']
  have changed : (v.proceedTo c b).calls = before ++ ⟨c, b⟩ :: after := by
    simp [proceedTo, split, keep before first, keep after last]
  simp only [tally, changed, split, List.countP_append, List.countP_cons, decide_eq_true_eq]
  omega

theorem tally_finish {x : Answer} (distinct : v.Distinct) (known : ⟨c, a⟩ ∈ v.calls) :
    (v.finish c x).tally p + (if p a then 1 else 0) = v.tally p := by
  obtain ⟨before, after, split, first, last⟩ := distinct.split known
  have keep (es : List Call) (others : ∀ e ∈ es, e.id ≠ c) : es.filter (·.id ≠ c) = es :=
    List.filter_eq_self.mpr fun e here => decide_eq_true (others e here)
  have changed : (v.finish c x).calls = before ++ after := by
    simp only [finish, split, List.filter_append, List.filter_cons, keep before first,
      keep after last]
    simp
  simp only [tally, changed, split, List.countP_append, List.countP_cons, decide_eq_true_eq]
  omega

theorem tally_begin : (v.begin a).tally p = v.tally p + (if p a then 1 else 0) := by
  simp [tally, begin, List.countP_cons]

end HotSwap.Standing

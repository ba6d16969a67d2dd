import HotSwap.Proofs.Standing.Calls

/-!
# Ledgers

What enters a ledger is in the slot or with a call until it leaves. A move that cuts no call off
and ends none in a panic keeps a ledger even, since what one place loses another gains.
-/

namespace HotSwap

structure Ledger where
  inSlot : Option Installation → Nat
  /-- A call with such an activity has one of what the ledger counts. -/
  Holds : Activity → Prop
  [decidable : DecidablePred Holds]
  enters : Note → Bool
  leaves : Note → Bool

namespace Ledger

variable (l : Ledger)

instance : DecidablePred l.Holds := l.decidable

def held (a : Activity) : Nat := if l.Holds a then 1 else 0

def entered (v : Standing) : Nat := v.times l.enters

def left (v : Standing) : Nat := v.times l.leaves

/-- What is somewhere, and what has left. -/
def total (v : Standing) : Nat := l.inSlot v.slot + v.tally l.Holds + l.left v

/-- The ledger counts what each call does, and only a panic loses something. -/
structure Sound : Prop where
  called (c : CallId) (a : Activity) :
    l.enters (.called c a) = false ∧ l.leaves (.called c a) = false
  ended (c : CallId) (x : Answer) :
    l.enters (.ended c x) = false ∧ l.leaves (.ended c x) = false
  opens {v : Standing} {a : Activity} : v.Opens a → l.held a = 0
  goes {v u : Standing} {c : CallId} {a b : Activity} {es : List Note} :
    v.Goes c a u es b →
      l.inSlot u.slot + l.held b + es.countP l.leaves =
        l.inSlot v.slot + l.held a + es.countP l.enters
  stops {v u : Standing} {c : CallId} {a : Activity} {es : List Note} {x : Answer} :
    v.Stops c a u es x →
      u.slot = v.slot ∧ es.countP l.enters = 0 ∧
        (es.countP l.leaves = l.held a ∨ es.countP l.leaves = 0 ∧ ∃ p, x = .panic p)
  handed {K : Retirement → Activity} (hK : Activity.Retires K) (i : Installation)
    (d : Option Time) :
    l.held (K ⟨i, d, .polling⟩) = l.held (.retirement ⟨i, none, .polling⟩)
  completing (o : Origin) (a : Attempt) (p : String) (previous : Option Nat) :
    l.held (.reload o (.completing a p previous)) = 0

variable {l} {u v w : Standing} {c : CallId} {a b : Activity} {es : List Note} {x : Answer}

theorem entered_notes : l.entered (v.notes es) = es.countP l.enters + l.entered v :=
  List.countP_append

theorem total_notes : l.total (v.notes es) = l.total v + es.countP l.leaves := by
  have counted : l.left (v.notes es) = es.countP l.leaves + l.left v := List.countP_append
  change l.inSlot v.slot + v.tally l.Holds + l.left (v.notes es) = _
  rw [counted, total]
  omega

theorem entered_frame (frame : Standing.Frame v u) : l.entered u = l.entered v := by
  rw [entered, Standing.times, frame.history, entered, Standing.times]

theorem total_frame (frame : Standing.Frame v u) :
    l.total u + l.inSlot v.slot = l.total v + l.inSlot u.slot := by
  simp only [total, left, Standing.times, Standing.tally, frame.calls, frame.history]
  omega

theorem total_proceedTo (distinct : v.Distinct) (present : ⟨c, a⟩ ∈ v.calls) :
    l.total (v.proceedTo c b) + l.held a = l.total v + l.held b := by
  have tallied := Standing.tally_proceedTo (b := b) (p := l.Holds) distinct present
  change l.inSlot v.slot + (v.proceedTo c b).tally l.Holds + l.left v + l.held a = _
  rw [total, held, held]
  omega

namespace Sound

theorem entered_begin (sound : l.Sound) : l.entered (v.begin a) = l.entered v := by
  simp [entered, Standing.times, Standing.begin, (sound.called _ _).1]

theorem entered_finish (sound : l.Sound) : l.entered (v.finish c x) = l.entered v := by
  simp [entered, Standing.times, Standing.finish, (sound.ended _ _).1]

theorem total_begin (sound : l.Sound) : l.total (v.begin a) = l.total v + l.held a := by
  have tallied := Standing.tally_begin (v := v) (a := a) (p := l.Holds)
  have same : l.left (v.begin a) = l.left v := by
    simp [left, Standing.times, Standing.begin, (sound.called _ _).2]
  change l.inSlot v.slot + (v.begin a).tally l.Holds + l.left (v.begin a) = _
  rw [same, total, held]
  omega

theorem total_finish (sound : l.Sound) (distinct : v.Distinct) (present : ⟨c, a⟩ ∈ v.calls) :
    l.total (v.finish c x) + l.held a = l.total v := by
  have tallied := Standing.tally_finish (x := x) (p := l.Holds) distinct present
  have same : l.left (v.finish c x) = l.left v := by
    simp [left, Standing.times, Standing.finish, (sound.ended _ _).2]
  change l.inSlot v.slot + (v.finish c x).tally l.Holds + l.left (v.finish c x) + l.held a = _
  rw [same, total, held]
  omega

end Sound

/-- Something that the ledger counts goes astray in the move. -/
def Astray (l : Ledger) (v : Standing) (act : Server.Action) (w : Standing) : Prop :=
  (∃ c a, act = .cancel c ∧ ⟨c, a⟩ ∈ v.calls ∧ l.Holds a) ∨
    ∃ c p, .ended c (.panic p) ∈ w.history

/-- A call drops something that the ledger counts when it panics. -/
def Drops (l : Ledger) (v w : Standing) : Prop :=
  ∃ c a u es p, v.Stops c a u es (.panic p) ∧ es.countP l.leaves ≠ l.held a ∧
    .ended c (.panic p) ∈ w.history

/-- What enters goes to one place, and what is in one place goes to another, leaves, is cut off or
is dropped. -/
theorem Sound.balance (sound : l.Sound) (distinct : v.Distinct) {act : Server.Action}
    (moved : v.Move act w) :
    ∃ lost, l.total w + lost + l.entered v = l.total v + l.entered w ∧
      (lost = 0 ∨ (∃ c a, act = .cancel c ∧ ⟨c, a⟩ ∈ v.calls ∧ l.Holds a) ∨ l.Drops v w) := by
  cases moved with
  | rest => exact ⟨0, rfl, .inl rfl⟩
  | number => exact ⟨0, rfl, .inl rfl⟩
  | keep => exact ⟨0, rfl, .inl rfl⟩
  | start opens =>
    refine ⟨0, ?_, .inl rfl⟩
    rw [sound.total_begin, sound.opens opens, sound.entered_begin]
    omega
  | @cut c a present =>
    refine ⟨l.held a, ?_, ?_⟩
    · rw [sound.total_finish distinct present, sound.entered_finish]
    · by_cases holds : l.Holds a
      · exact .inr (.inl ⟨c, a, rfl, present, holds⟩)
      · exact .inl (if_neg holds)
  | @go c a b u es present goes =>
    refine ⟨0, ?_, .inl rfl⟩
    have frame := goes.frame
    have framed := total_frame (l := l) frame
    have noted : l.total (u.notes es) = _ := total_notes
    have told : l.entered (u.notes es) = _ := entered_notes
    have proceeded := total_proceedTo (l := l) (v := u.notes es) (b := b)
      (distinct.frame frame).notes (frame.calls ▸ present)
    have balanced := sound.goes goes
    have same : l.entered ((u.notes es).proceedTo c b) = l.entered (u.notes es) := rfl
    rw [same, told, entered_frame frame]
    omega
  | @stop c a u es x present stops =>
    have frame := stops.frame
    have framed := total_frame (l := l) frame
    have noted : l.total (u.notes es) = _ := total_notes
    have told : l.entered (u.notes es) = _ := entered_notes
    have finished := sound.total_finish (v := u.notes es) (x := x)
      (distinct.frame frame).notes (frame.calls ▸ present)
    obtain ⟨slot, entered, left⟩ := sound.stops stops
    rw [slot] at framed
    by_cases whole : es.countP l.leaves = l.held a
    · refine ⟨0, ?_, .inl rfl⟩
      rw [sound.entered_finish, told, entered_frame frame]
      omega
    · obtain ⟨none, p, rfl⟩ := left.resolve_left whole
      refine ⟨l.held a, ?_, .inr (.inr ⟨c, a, u, es, p, stops, whole, List.mem_cons_self⟩)⟩
      rw [sound.entered_finish, told, entered_frame frame]
      omega
  | @leave c o a p i d present =>
    refine ⟨0, ?_, .inl rfl⟩
    have begun := sound.total_begin (v := v) (a := .retirement ⟨i, none, .polling⟩)
    have known : _ ∈ (v.begin (.retirement ⟨i, none, .polling⟩)).calls :=
      Standing.mem_calls_begin.mpr (.inl present)
    have proceeded := total_proceedTo (l := l)
      (b := .reload o (.completing a p (some i.generation))) distinct.begin known
    have completing := sound.completing o a p (some i.generation)
    have handed := sound.handed (.reload o a p) i d
    have same := sound.entered_begin (v := v) (a := .retirement ⟨i, none, .polling⟩)
    change _ + _ + _ = _ + l.entered (v.begin _)
    rw [same]
    omega
  | @leaveAll c K hK _ i d present =>
    refine ⟨0, ?_, .inl rfl⟩
    have begun := sound.total_begin (v := v) (a := .retirement ⟨i, none, .polling⟩)
    have known : _ ∈ (v.begin (.retirement ⟨i, none, .polling⟩)).calls :=
      Standing.mem_calls_begin.mpr (.inl present)
    have finished := sound.total_finish (x := .done) distinct.begin known
    have handed := sound.handed hK i d
    rw [sound.entered_finish, sound.entered_begin]
    omega

theorem Sound.move (sound : l.Sound) (distinct : v.Distinct) {act : Server.Action}
    (moved : v.Move act w) :
    ∃ lost, l.total w + lost + l.entered v = l.total v + l.entered w ∧
      (lost = 0 ∨ l.Astray v act w) := by
  obtain ⟨lost, balanced, none | cut | ⟨c, a, u, es, p, -, -, noted⟩⟩ :=
    sound.balance distinct moved
  · exact ⟨lost, balanced, .inl none⟩
  · exact ⟨lost, balanced, .inr (.inl cut)⟩
  · exact ⟨lost, balanced, .inr (.inr ⟨c, p, noted⟩)⟩

/-- Nothing is anywhere that did not enter. -/
theorem Sound.total_le (sound : l.Sound) (distinct : v.Distinct) {act : Server.Action}
    (moved : v.Move act w) (covered : l.total v ≤ l.entered v) : l.total w ≤ l.entered w := by
  obtain ⟨lost, balanced, -⟩ := sound.move distinct moved
  omega

theorem Sound.total_eq (sound : l.Sound) (distinct : v.Distinct) {act : Server.Action}
    (moved : v.Move act w) (safe : ¬ l.Astray v act w) (even : l.total v = l.entered v) :
    l.total w = l.entered w := by
  obtain ⟨lost, balanced, rfl | astray⟩ := sound.move distinct moved
  · omega
  · exact absurd astray safe

end Ledger

end HotSwap

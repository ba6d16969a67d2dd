import Mathlib.Data.List.Induction
import HotSwap.Engine.Sample
import HotSwap.Proofs.Standing.Calls
import HotSwap.Proofs.Standing.Step

/-!
# Runs

What is so at the start and stays so over every move is so after every run. What was noted once
stays noted.
-/

namespace HotSwap

/-- The beginning or the end of a call. -/
def Note.Clerical : Note → Prop
  | .called _ _ | .ended _ _ => True
  | _ => False

namespace Standing

variable {v w : Standing} {act : Server.Action}

/-- What is noted besides beginnings and ends is what the call that is let on notes. -/
theorem Move.records (moved : v.Move act w) :
    ∃ ns es, w.history = ns ++ es ++ v.history ∧ (∀ n ∈ ns, n.Clerical) ∧
      (es = [] ∨ ∃ c a u, act = .proceed c ∧ ⟨c, a⟩ ∈ v.calls ∧ u.fresh ≤ w.fresh ∧
        ((∃ b, Goes v c a u es b) ∨ ∃ x, Stops v c a u es x)) := by
  cases moved with
  | rest => exact ⟨[], [], rfl, List.forall_mem_nil _, .inl rfl⟩
  | number => exact ⟨[], [], rfl, List.forall_mem_nil _, .inl rfl⟩
  | keep => exact ⟨[], [], rfl, List.forall_mem_nil _, .inl rfl⟩
  | @start _ a => exact ⟨[.called v.fresh a], [], rfl, by simp [Note.Clerical], .inl rfl⟩
  | @cut c => exact ⟨[.ended c .cancelled], [], rfl, by simp [Note.Clerical], .inl rfl⟩
  | @go c a b u es known goes =>
    have same : u.history = v.history := goes.frame.history
    exact ⟨[], es, congrArg (es ++ ·) same, List.forall_mem_nil _,
      .inr ⟨c, a, u, rfl, known, Nat.le_refl _, .inl ⟨b, goes⟩⟩⟩
  | @stop c a u es x known stops =>
    have same : u.history = v.history := stops.frame.history
    exact ⟨[.ended c x], es, congrArg (.ended c x :: es ++ ·) same, by simp [Note.Clerical],
      .inr ⟨c, a, u, rfl, known, Nat.le_refl _, .inr ⟨x, stops⟩⟩⟩
  | @leave c o a p i =>
    exact ⟨[.called v.fresh (.retirement ⟨i, none, .polling⟩)], [], rfl, by simp [Note.Clerical],
      .inl rfl⟩
  | @leaveAll c K _ _ i =>
    exact ⟨[.ended c .done, .called v.fresh (.retirement ⟨i, none, .polling⟩)], [], rfl,
      by simp [Note.Clerical], .inl rfl⟩

theorem Move.history (moved : v.Move act w) :
    ∃ ns es, w.history = ns ++ es ++ v.history ∧ (∀ n ∈ ns, n.Clerical) ∧
      (es = [] ∨ ∃ c a u, ⟨c, a⟩ ∈ v.calls ∧ u.fresh ≤ w.fresh ∧
        ((∃ b, Goes v c a u es b) ∨ ∃ x, Stops v c a u es x)) := by
  obtain ⟨ns, es, grown, clerical, moves⟩ := moved.records
  exact ⟨ns, es, grown, clerical, moves.imp_right fun ⟨c, a, u, _, noted⟩ => ⟨c, a, u, noted⟩⟩

theorem Move.suffix (moved : v.Move act w) : v.history <:+ w.history := by
  obtain ⟨ns, es, noted, -⟩ := moved.history
  exact ⟨ns ++ es, noted.symm⟩

theorem Move.times_le (moved : v.Move act w) (p : Note → Bool) : v.times p ≤ w.times p :=
  moved.suffix.sublist.countP_le

theorem Move.times (moved : v.Move act w) {p : Note → Bool} (plain : ∀ n, n.Clerical → ¬ p n) :
    w.times p = v.times p ∨
    ∃ c a u es, ⟨c, a⟩ ∈ v.calls ∧ u.fresh ≤ w.fresh ∧ w.times p = es.countP p + v.times p ∧
      ((∃ b, Goes v c a u es b) ∨ ∃ x, Stops v c a u es x) := by
  obtain ⟨ns, es, noted, clerical, moves⟩ := moved.history
  have none : ns.countP p = 0 := List.countP_eq_zero.mpr fun n new => plain n (clerical n new)
  have counted : w.times p = es.countP p + v.times p := by
    simp only [Standing.times, noted, List.countP_append, none]
    omega
  rcases moves with rfl | ⟨c, a, u, known, le, moves⟩
  · exact .inl (by simpa using counted)
  · exact .inr ⟨c, a, u, es, known, le, counted, moves⟩

theorem Move.noted (moved : v.Move act w) {n : Note} (noted : n ∈ w.history) :
    n ∈ v.history ∨ n.Clerical ∨ ∃ c a u es, ⟨c, a⟩ ∈ v.calls ∧ n ∈ es ∧
      ((∃ b, Goes v c a u es b) ∨ ∃ x, Stops v c a u es x) := by
  obtain ⟨ns, es, grown, clerical, moves⟩ := moved.history
  rw [grown, List.append_assoc] at noted
  rcases List.mem_append.mp noted with added | noted
  · exact .inr (.inl (clerical n added))
  · rcases List.mem_append.mp noted with new | old
    · rcases moves with rfl | ⟨c, a, u, known, -, moves⟩
      · cases new
      · exact .inr (.inr ⟨c, a, u, es, known, new, moves⟩)
    · exact .inl old

/-- Who goes on does not return. -/
theorem Goes.not_returned {u : Standing} {c d : CallId} {a b : Activity} {es : List Note}
    (goes : Goes v c a u es b) (result : Except ReloadError Report) : .returned d result ∉ es := by
  cases goes <;> simp

theorem Move.fresh_le (moved : v.Move act w) : v.fresh ≤ w.fresh := by
  cases moved with
  | number => exact Nat.le_succ _
  | start => exact Nat.le_succ _
  | go _ goes => exact goes.frame.fresh
  | stop _ stops => exact stops.frame.fresh
  | leave => exact Nat.le_succ _
  | leaveAll => exact Nat.le_succ _
  | _ => exact Nat.le_refl _

theorem Move.setup (moved : v.Move act w) : w.setup = v.setup := by
  cases moved with
  | go _ goes => exact goes.frame.setup
  | stop _ stops => exact stops.frame.setup
  | _ => rfl

end Standing

namespace Server

theorem run_append (s : Server) (first second : List Action) :
    s.run (first ++ second) = (s.run first).run second :=
  List.foldl_append

theorem run_concat (s : Server) (actions : List Action) (act : Action) :
    s.run (actions ++ [act]) = (s.run actions).step act :=
  run_append s actions [act]

/-- In the course of the actions the call is let on, in a state with the property. -/
def LetsOn (s : Server) (actions : List Action) (c : CallId) (P : Server → Prop) : Prop :=
  ∃ early late, actions = early ++ .proceed c :: late ∧ P (s.run early)

theorem LetsOn.last {s : Server} {actions : List Action} {c : CallId} {P : Server → Prop}
    (here : P (s.run actions)) : s.LetsOn (actions ++ [.proceed c]) c P :=
  ⟨actions, [], rfl, here⟩

theorem LetsOn.later {s : Server} {actions : List Action} {c : CallId} {P : Server → Prop}
    (lets : s.LetsOn actions c P) (act : Action) : s.LetsOn (actions ++ [act]) c P := by
  obtain ⟨early, late, rfl, there⟩ := lets
  exact ⟨early, late ++ [act], by rw [List.append_assoc, List.cons_append], there⟩

/-- A property of a run's beginnings that each step passes on. -/
theorem run_induction {s : Server} {P : Server → Prop} (actions : List Action) (base : P s)
    (pass : ∀ before act after, actions = before ++ act :: after → P (s.run before) →
      P ((s.run before).step act)) :
    P (s.run actions) := by
  induction actions using List.reverseRecOn with
  | nil => exact base
  | append_singleton before act inductionHypothesis =>
    rw [run_append]
    refine pass before act [] rfl (inductionHypothesis fun first act' after split => ?_)
    exact pass first act' (after ++ [act]) (by rw [split, List.append_assoc, List.cons_append])

/-- A property of standings that every move keeps. -/
theorem standing_run {s : Server} {P : Standing → Prop} (actions : List Action)
    (base : P s.standing) (kept : ∀ {v act w}, v.Move act w → P v → P w) :
    P (s.run actions).standing :=
  run_induction (P := fun s => P s.standing) actions base fun before act _ _ held =>
    kept ((s.run before).move_step act) held

theorem suffix_run (s : Server) (actions : List Action) :
    s.standing.history <:+ (s.run actions).standing.history :=
  standing_run (P := fun v => s.standing.history <:+ v.history) actions List.suffix_rfl
    fun moved held => held.trans moved.suffix

/-- Lines of the log aside, what is picked from the notes is picked from the standing. -/
theorem filterMap_history (s : Server) {α : Type} {f : Note → Option α}
    (unlogged : ∀ level text, f (.log level text) = none) :
    s.standing.history.filterMap f = s.journal.filterMap f := by
  change (s.journal.filter fun n => !n.isLine).filterMap f = _
  rw [List.filterMap_filter]
  apply List.filterMap_congr
  intro n _
  cases n with
  | log level text => simp [Note.isLine, unlogged]
  | _ => rfl

theorem activity?_of_mem {s : Server} {c : CallId} {a : Activity}
    (distinct : s.standing.Distinct) (present : ⟨c, a⟩ ∈ s.calls) : s.activity? c = some a := by
  have found : (s.calls.find? (·.id = c)).isSome := by
    rw [List.find?_isSome]
    exact ⟨_, present, by simp⟩
  obtain ⟨call, hcall⟩ := Option.isSome_iff_exists.mp found
  have known : s.activity? c = some call.activity := by simp [activity?, call?, hcall]
  have same : call.activity = a := distinct.activity_eq (mem_calls_of_activity? known) present
  rw [known, same]

theorem distinct_run (setup : Setup) (actions : List Action) :
    ((start setup).run actions).standing.Distinct := by
  refine standing_run actions ⟨?_, ?_⟩ fun moved held => held.move moved
  · exact List.nodup_nil
  · exact List.forall_mem_nil _

/-! Something to try runs with. -/

def proceeds (n : Nat) (c : CallId) : List Action := List.replicate n (.proceed c)

end Server

/-- A server whose one provider makes an engine for each generation, or fails to. -/
def Setup.trial (engine : Nat → Making Engine) : Setup where
  registry := Registry.empty.register ⟨"trial", .provider ⟨0, fun _ context =>
    ⟨false, .made (), context.generation, none, engine context.generation, false⟩⟩⟩
  classpath := []
  drainTimeout := 0
  cors := false
  clock := fun _ => ""

/-- An engine that tells its generation. -/
def Engine.trial (generation : Nat) : Engine :=
  .pure generation (Engine.generation generation)

/-- A server that waits for requests to let go of an engine. -/
def Setup.patient : Setup :=
  { Setup.trial fun generation => .made (.trial generation) with drainTimeout := 100 }

/-- The second of two reloads drains the first engine, which someone still refers to. -/
def Server.untilDrain : List Server.Action :=
  .demand .reload :: proceeds 7 0 ++ .keep "held" :: .demand .reload :: proceeds 7 3

end HotSwap

import HotSwap.Proofs.Discovery
import HotSwap.Proofs.Requests.Outcome

/-!
# What requests do

The call of a request is a reload or a query only if it was posted as one, and otherwise looks at
most at what is there. So it is for reloads only that a request touches the slot, the status or the
next generation and has a provider constructed, and for queries only that it has an engine execute
something. Where all requests for options are answered at once, these do not even get to a route.
-/

namespace HotSwap

namespace Note

variable {n : Note}

theorem Clerical.construction?_eq (clerical : n.Clerical) : n.construction? = none := by
  cases n with
  | called | ended => rfl
  | _ => cases clerical

theorem Clerical.execution?_eq (clerical : n.Clerical) (c : CallId) : n.execution? c = none := by
  cases n with
  | called | ended => rfl
  | _ => cases clerical

end Note

/-- What the call of a request can be at. -/
inductive Activity.Serves (r : Http.Request) : Activity → Prop
  | asked : Serves r (.request r)
  | query {stage : Query.Stage} (posted : r.PostsTo "/graphql") : Serves r (.query r stage)
  | reload {stage : Reload.Stage} (posted : r.PostsTo "/reload") :
      Serves r (.reload (.http r) stage)
  | status : Serves r (.status r)
  | statusOf {current : Option Installation} : Serves r (.statusOf r current)

theorem Activity.Serves.aloof {a : Activity} {r : Http.Request} (serves : a.Serves r)
    (other : ¬ r.PostsTo "/reload") : a.Aloof := by
  cases serves with
  | reload posted => exact absurd posted other
  | _ => trivial

namespace Standing

variable {v w u : Standing} {c : CallId} {a b : Activity} {es : List Note} {x : Answer}
  {act : Server.Action} {r : Http.Request}

theorem Goes.serves (goes : Goes v c a u es b) (serves : a.Serves r) : b.Serves r := by
  cases goes with
  | query planned =>
    cases serves
    exact .query (Http.Request.posted_of_plan_query planned)
  | reload planned =>
    cases serves
    exact .reload (Http.Request.posted_of_plan_reload planned)
  | status =>
    cases serves
    exact .status
  | look =>
    cases serves
    exact .statusOf
  | parse | hold | execute =>
    cases serves with
    | query posted => exact .query posted
  | enter | mark | misfind | misconstruct | construct | ask | misask | obtain | replace | install |
    released =>
    cases serves with
    | reload posted => exact .reload posted
  | sleep hK | wake hK | clear hK | release hK =>
    cases hK with
    | reload =>
      cases serves with
      | reload posted => exact .reload posted
    | _ => cases serves
  | call | join | take => cases serves

/-- The call of a request goes on as the call of that request. -/
theorem Move.serves (moved : v.Move act w) (known : c < v.fresh)
    (serves : ∀ a, ⟨c, a⟩ ∈ v.calls → a.Serves r) : ∀ a, ⟨c, a⟩ ∈ w.calls → a.Serves r := by
  intro a present
  cases moved.comes present with
  | stays there => exact serves a there
  | begins new | handed new => exact absurd new (Nat.ne_of_lt known)
  | proceeds there goes => exact goes.serves (serves _ there)
  | completes there completing =>
    cases serves _ there with
    | reload posted =>
      obtain rfl : a = _ := completing
      exact .reload posted

/-- Where only the call goes on or is cut off, nothing is picked from what is noted if nothing is
from what the call notes. -/
theorem Move.own_filterMap {α : Type} {f : Note → Option α} (moved : v.Move act w)
    (distinct : v.Distinct) (known : ⟨c, a⟩ ∈ v.calls) (own : act = .proceed c ∨ act = .cancel c)
    (clerical : ∀ n, n.Clerical → f n = none)
    (goes : ∀ u es b, Goes v c a u es b → es.filterMap f = [])
    (stops : ∀ u es x, Stops v c a u es x → es.filterMap f = []) :
    w.history.filterMap f = v.history.filterMap f := by
  obtain ⟨ns, es, grown, clerks, moves⟩ := moved.records
  have first : ns.filterMap f = [] :=
    List.filterMap_eq_nil_iff.mpr fun n there => clerical n (clerks n there)
  have second : es.filterMap f = [] := by
    rcases moves with rfl | ⟨d, b, u, rfl, present, -, moves⟩
    · rfl
    · obtain rfl : d = c := by simpa using own
      cases distinct.activity_eq known present
      rcases moves with ⟨b, went⟩ | ⟨x, stopped⟩
      · exact goes u es b went
      · exact stops u es x stopped
  rw [grown, List.filterMap_append, List.filterMap_append, first, second]
  rfl

theorem Goes.unconstructed (goes : Goes v c a u es b) (aloof : a.Aloof) :
    es.filterMap Note.construction? = [] := by
  cases goes with
  | misconstruct | construct => exact aloof.elim
  | _ => rfl

theorem Stops.unconstructed (stops : Stops v c a u es x) (aloof : a.Aloof) :
    es.filterMap Note.construction? = [] := by
  cases stops with
  | constructorPanic => exact aloof.elim
  | _ => rfl

/-- Only what was posted as a query executes something. -/
theorem Goes.unexecuted_of_serves (goes : Goes v c a u es b) (serves : a.Serves r)
    (other : ¬ r.PostsTo "/graphql") (d : CallId) : es.filterMap (Note.execution? d) = [] := by
  cases goes with
  | execute =>
    cases serves with
    | query posted => exact absurd posted other
  | call => cases serves
  | _ => rfl

end Standing

namespace Server

open Standing

variable {setup : Setup} {s u : Server} {c : CallId} {a : Activity} {r : Http.Request}
  {act : Action} {own : List Action}

/-- All constructors that were called, by whom and with what, the latest first. -/
def constructions (s : Server) : List (CallId × String × Context) :=
  s.journal.filterMap Note.construction?

theorem standing_constructions (s : Server) :
    s.standing.history.filterMap Note.construction? = s.constructions :=
  filterMap_history s fun _ _ => rfl

/-- The actions concern the call and no other. -/
def Owns (c : CallId) (actions : List Action) : Prop :=
  ∀ act ∈ actions, act = .proceed c ∨ act = .cancel c

/-- What reloads are about is as it was, and no provider was constructed. -/
structure Spared (s t : Server) : Prop where
  unchanged : Unchanged s.standing t.standing
  constructions : t.constructions = s.constructions

theorem Spared.refl : s.Spared s := ⟨⟨rfl, rfl, rfl, rfl⟩, rfl⟩

theorem Spared.trans {t : Server} (first : s.Spared t) (second : t.Spared u) : s.Spared u where
  unchanged :=
    { slot := second.unchanged.slot.trans first.unchanged.slot
      status := second.unchanged.status.trans first.unchanged.status
      nextGeneration := second.unchanged.nextGeneration.trans first.unchanged.nextGeneration
      guard := second.unchanged.guard.trans first.unchanged.guard }
  constructions := second.constructions.trans first.constructions

/-- The call is that of the request, as long as it is there. -/
structure Serving (s : Server) (c : CallId) (r : Http.Request) : Prop where
  lined : s.standing.Lined
  known : c < s.fresh
  serves : ∀ a, ⟨c, a⟩ ∈ s.calls → a.Serves r

namespace Serving

theorem step (serving : s.Serving c r) (act : Action) : (s.step act).Serving c r where
  lined := serving.lined.move (s.move_step act)
  known := Nat.lt_of_lt_of_le serving.known (s.move_step act).fresh_le
  serves := (s.move_step act).serves serving.known serving.serves

theorem run (serving : s.Serving c r) (actions : List Action) : (s.run actions).Serving c r :=
  run_induction (P := fun u => u.Serving c r) actions serving fun _ act _ _ held => held.step act

theorem spared_step (serving : s.Serving c r) (other : ¬ r.PostsTo "/reload")
    (own : act = .proceed c ∨ act = .cancel c) : s.Spared (s.step act) := by
  have aloof (a : Activity) (there : ⟨c, a⟩ ∈ s.calls) : a.Aloof :=
    (serving.serves a there).aloof other
  cases active : s.activity? c with
  | none =>
    rw [step_ended active own]
    exact .refl
  | some a =>
    have known := mem_calls_of_activity? active
    have moved := s.move_step act
    refine ⟨moved.unchanged serving.lined known (aloof a known) own, ?_⟩
    have same := moved.own_filterMap (f := Note.construction?) serving.lined.distinct known own
      (fun _ clerical => clerical.construction?_eq)
      (fun _ _ _ goes => goes.unconstructed (aloof a known))
      (fun _ _ _ stops => stops.unconstructed (aloof a known))
    rwa [standing_constructions, standing_constructions] at same

theorem executions_step (serving : s.Serving c r) (other : ¬ r.PostsTo "/graphql")
    (own : act = .proceed c ∨ act = .cancel c) (d : CallId) :
    (s.step act).executions d = s.executions d := by
  cases active : s.activity? c with
  | none => rw [step_ended active own]
  | some a =>
    have known := mem_calls_of_activity? active
    rw [← standing_executions, ← standing_executions]
    exact (s.move_step act).own_filterMap serving.lined.distinct known own
      (fun _ clerical => clerical.execution?_eq d)
      (fun _ _ _ goes => goes.unexecuted_of_serves (serving.serves a known) other d)
      (fun _ _ _ stops => stops.unexecuted)

/-- What the call of the request passes on whenever it goes on or is cut off. -/
theorem run_own {P : Server → Prop} (serving : s.Serving c r) (owns : Owns c own) (base : P s)
    (pass : ∀ u act, u.Serving c r → act = .proceed c ∨ act = .cancel c → P u → P (u.step act)) :
    P (s.run own) := by
  refine run_induction own base fun before act after split held => ?_
  have here : act = .proceed c ∨ act = .cancel c :=
    owns act (split ▸ List.mem_append_right _ List.mem_cons_self)
  exact pass _ act (serving.run before) here held

/-- However often the call of the request goes on, it is for a reload only that this shows. -/
theorem spared_run (serving : s.Serving c r) (other : ¬ r.PostsTo "/reload") (owns : Owns c own) :
    s.Spared (s.run own) :=
  serving.run_own owns .refl fun _ _ there own spared => spared.trans (there.spared_step other own)

theorem executions_run (serving : s.Serving c r) (other : ¬ r.PostsTo "/graphql")
    (owns : Owns c own) (d : CallId) : (s.run own).executions d = s.executions d :=
  serving.run_own (P := fun u => u.executions d = s.executions d) owns rfl
    fun _ _ there own same => (there.executions_step other own d).trans same

end Serving

theorem serving_run (setup : Setup) (before actions : List Action) (r : Http.Request) :
    let s := (start setup).run before
    let t := s.step (.demand (.request r))
    (t.run actions).Serving s.fresh r := by
  intro s t
  have begun : t.standing = s.standing.begin (.request r) := s.standing_begin _
  have lined : s.standing.Lined := lined_run setup before
  have serving : t.Serving s.fresh r := by
    refine ⟨lined.move (s.move_step (.demand (.request r))), ?_, fun a present => ?_⟩
    · change s.fresh < t.standing.fresh
      rw [begun]
      exact Nat.lt_succ_self _
    · change _ ∈ t.standing.calls at present
      rw [begun] at present
      rcases mem_calls_begin.mp present with earlier | new
      · exact absurd (lined.distinct.lt_fresh _ earlier) (Nat.lt_irrefl _)
      · cases new
        exact .asked
  exact serving.run actions

/-- A request that comes in has done nothing yet. -/
theorem spared_demand (s : Server) (r : Http.Request) :
    s.Spared (s.step (.demand (.request r))) ∧
      ∀ d, (s.step (.demand (.request r))).executions d = s.executions d := by
  have begun : (s.step (.demand (.request r))).standing = s.standing.begin (.request r) :=
    s.standing_begin _
  refine ⟨⟨?_, ?_⟩, fun d => ?_⟩
  · rw [begun]
    exact ⟨rfl, rfl, rfl, rfl⟩
  · rw [← standing_constructions, ← standing_constructions, begun]
    rfl
  · rw [← standing_executions, ← standing_executions, begun]
    rfl

/-! Where requests for options are answered at once. -/

/-- What becomes of a request for options: its call never gets to anything but the answer. -/
inductive Preflighted (s : Server) (c : CallId) (r : Http.Request) : Prop
  | asked (active : s.activity? c = some (.request r))
      (next : s.step (.proceed c) = s.finish c (.response (r.dress true r.preflight)))
  | answered (ended : s.activity? c = none)
      (answer : s.answer? c = some (.response (r.dress true r.preflight)))
  | cancelled (ended : s.activity? c = none) (answer : s.answer? c = some .cancelled)

/-- A request that is answered at once does nothing else. -/
theorem step_respond {response : Http.Response}
    (planned : r.plan s.setup.cors = .respond response none)
    (active : s.activity? c = some (.request r)) :
    s.step (.proceed c) = s.finish c (.response (r.dress s.setup.cors response)) := by
  rw [step_proceed active rfl id]
  simp only [Server.act, requestStep, planned, respond]

theorem setup_demanded (setup : Setup) (before actions : List Action) (r : Http.Request) :
    let s := (start setup).run before
    let t := s.step (.demand (.request r))
    (t.run actions).setup = setup :=
  (congrArg Server.setup (reached_run setup before actions r)).trans (setup_run (start setup) _)

theorem preflighted_run (shared : setup.cors = true) (asks : r.method = "OPTIONS")
    (before actions : List Action) :
    let s := (start setup).run before
    let t := s.step (.demand (.request r))
    (t.run actions).Preflighted s.fresh r := by
  intro s t
  have planned : r.plan setup.cors = .respond r.preflight none := if_pos ⟨shared, asks⟩
  have same : (t.run actions).setup = setup := setup_demanded setup before actions r
  have turned : (t.run actions).Turned s.fresh r r.preflight :=
    turned_run (.atOnce planned) before actions
  cases turned with
  | asked active =>
    have next := step_respond (same ▸ planned) active
    rw [same, shared] at next
    exact .asked active next
  | arriving planned' =>
    rw [same] at planned'
    cases planned.symm.trans planned'
  | answered ended answer =>
    rw [same, shared] at answer
    exact .answered ended answer
  | cancelled ended answer => exact .cancelled ended answer

/-- What the call of a request can do from here on, whatever it is at. -/
structure Confined (s : Server) (c : CallId) (r : Http.Request) : Prop where
  reloads (other : ¬ r.PostsTo "/reload") (own : List Action) (owns : Owns c own) :
    s.Spared (s.run own)
  queries (other : ¬ r.PostsTo "/graphql") (own : List Action) (owns : Owns c own) (d : CallId) :
    (s.run own).executions d = s.executions d
  options (shared : s.setup.cors = true) (asks : r.method = "OPTIONS") : s.Preflighted c r

theorem confined_run (setup : Setup) (before actions : List Action) (r : Http.Request) :
    let s := (start setup).run before
    let t := s.step (.demand (.request r))
    (t.run actions).Confined s.fresh r := by
  intro s t
  have serving : (t.run actions).Serving s.fresh r := serving_run setup before actions r
  have same : (t.run actions).setup = setup := setup_demanded setup before actions r
  refine ⟨fun other own owns => serving.spared_run other owns,
    fun other own owns d => serving.executions_run other owns d, fun shared asks => ?_⟩
  exact preflighted_run (same ▸ shared) asks before actions

end Server

end HotSwap

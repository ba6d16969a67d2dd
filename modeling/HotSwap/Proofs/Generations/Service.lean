import HotSwap.Proofs.Generations.Numbers
import HotSwap.Proofs.Routing

/-!
# What is in service

Between an installation and the next shutdown there is an engine in the slot, so that no request is
turned away, and what is in the slot gives way to newer engines only.
-/

namespace HotSwap

namespace Note

/-- The slot is emptied. -/
def takes : Note → Bool
  | .taken _ => true
  | _ => false

/-- A request was turned away for want of an engine. -/
def turnsAway : Note → Bool
  | .ended _ (.response r) => r.status = 503
  | _ => false

end Note

theorem Origin.turnsAway_answer (o : Origin) (c : CallId) (cors : Bool)
    (result : Except ReloadError Report) :
    (Note.ended c (o.answer cors result)).turnsAway = false := by
  have status : (Server.reloadResponse result).status ≠ 503 := by
    cases result with
    | ok => exact nofun
    | error e => cases e <;> exact nofun
  cases o with
  | http r => exact decide_eq_false (by rw [Http.Request.status_dress]; exact status)
  | _ => cases result <;> rfl

namespace Standing

variable {v w u : Standing} {c : CallId} {a b : Activity} {es : List Note} {x : Answer}
  {act : Server.Action}

theorem Stops.turnsAway (stops : Stops v c a u es x) (full : v.slot ≠ none) :
    (Note.ended c x).turnsAway = false ∧ es.countP Note.turnsAway = 0 := by
  have plain (r : Http.Request) {response : Http.Response} (status : response.status ≠ 503) :
      (Note.ended c (.response (r.dress v.setup.cors response))).turnsAway = false :=
    decide_eq_false (by rw [Http.Request.status_dress]; exact status)
  cases stops with
  | respond planned => exact ⟨plain _ (Http.Request.status_of_plan planned), rfl⟩
  | malformed => exact ⟨plain _ nofun, rfl⟩
  | unavailable empty => exact absurd empty full
  | @executed r i input =>
    have status : (Server.queryResponse (i.engine.execute input)).status ≠ 503 := by
      cases i.engine.execute input <;> exact nofun
    exact ⟨plain _ status, rfl⟩
  | told => exact ⟨plain _ nofun, rfl⟩
  | @refuse o | @succeed o | @fail o => exact ⟨o.turnsAway_answer c _ _, rfl⟩
  | _ => exact ⟨rfl, rfl⟩

theorem Goes.turnsAway (goes : Goes v c a u es b) : es.countP Note.turnsAway = 0 := by
  cases goes <;> simp [Note.turnsAway]

/-- As long as there is an engine, no request is turned away. -/
theorem Move.turnsAway (moved : v.Move act w) (full : v.slot ≠ none) :
    w.times Note.turnsAway = v.times Note.turnsAway := by
  cases moved with
  | rest => rfl
  | number => rfl
  | keep => rfl
  | start => simp [Standing.times, begin, Note.turnsAway]
  | cut => simp [Standing.times, finish, Note.turnsAway]
  | @go c a b u es known goes =>
    have same : u.history = v.history := goes.frame.history
    simp [Standing.times, proceedTo, notes, same, goes.turnsAway]
  | @stop c a u es x known stops =>
    have same : u.history = v.history := stops.frame.history
    obtain ⟨ended, noted⟩ := stops.turnsAway full
    simp [Standing.times, finish, notes, same, ended, noted]
  | leave => simp [Standing.times, begin, proceedTo, Note.turnsAway]
  | leaveAll => simp [Standing.times, begin, finish, Note.turnsAway]

/-- Only a shutdown empties the slot. -/
theorem Move.full (moved : v.Move act w) (full : v.slot ≠ none)
    (untaken : w.times Note.takes = v.times Note.takes) : w.slot ≠ none := by
  cases moved.shift with
  | still slot => exact slot ▸ full
  | enter _ slot => exact slot ▸ full
  | install _ _ slot => simp [slot]
  | take _ _ _ _ noted =>
    have taken : w.times Note.takes = v.times Note.takes + 1 := by
      rw [Standing.times, noted]
      exact List.countP_cons_of_pos rfl
    omega

theorem Numbered.newer (numbered : v.Numbered) (moved : v.Move act w) {g : Nat}
    (installed : g ∈ v.installed) (slot : ∀ j, v.slot = some j → g ≤ j.generation)
    (j : Installation) (current : w.slot = some j) : g ≤ j.generation := by
  cases moved.shift with
  | still same => exact slot j (same ▸ current)
  | enter _ same => exact slot j (same ▸ current)
  | install known generation there =>
    cases there.symm.trans current
    rw [generation]
    exact Nat.le_of_lt (numbered.ahead known rfl trivial g installed)
  | take _ _ empty =>
    rw [empty] at current
    cases current

end Standing

namespace Server

/-- What happens to the slot between two states of a server. -/
structure Gapless (s u : Server) : Prop where
  /-- There is an engine until a shutdown takes it, so that no request is turned away. -/
  full : s.slot ≠ none → u.times Note.takes = s.times Note.takes →
    u.slot ≠ none ∧ u.times Note.turnsAway = s.times Note.turnsAway
  /-- Who looks again sees nothing older. -/
  newer : ∀ i j, s.slot = some i → u.slot = some j → i.generation ≤ j.generation

theorem full_run {s : Server} (full : s.slot ≠ none) (actions : List Action)
    (untaken : (s.run actions).standing.times Note.takes = s.standing.times Note.takes) :
    (s.run actions).slot ≠ none ∧
      (s.run actions).standing.times Note.turnsAway = s.standing.times Note.turnsAway := by
  have kept := standing_run (s := s)
    (P := fun v => s.standing.times Note.takes ≤ v.times Note.takes ∧
      (v.times Note.takes = s.standing.times Note.takes →
        v.slot ≠ none ∧ v.times Note.turnsAway = s.standing.times Note.turnsAway)) actions
    ⟨Nat.le_refl _, fun _ => ⟨full, rfl⟩⟩ ?_
  · exact kept.2 untaken
  · rintro v act w moved ⟨le, held⟩
    have grown := moved.times_le Note.takes
    refine ⟨Nat.le_trans le grown, fun same => ?_⟩
    obtain ⟨full, served⟩ := held (by omega)
    exact ⟨moved.full full (by omega), (moved.turnsAway full).trans served⟩

theorem newer_run {s : Server} (numbered : s.standing.Numbered) (stocked : s.standing.Stocked)
    (actions : List Action) {i j : Installation} (current : s.slot = some i)
    (later : (s.run actions).slot = some j) : i.generation ≤ j.generation := by
  obtain ⟨prev, noted⟩ := stocked i current
  have installed : i.generation ∈ s.standing.installed :=
    List.mem_filterMap.mpr ⟨_, noted, rfl⟩
  have kept := standing_run (s := s) (P := fun v => v.Numbered ∧ i.generation ∈ v.installed ∧
    ∀ j, v.slot = some j → i.generation ≤ j.generation) actions ⟨numbered, installed, ?_⟩ ?_
  · exact kept.2.2 j later
  · intro j here
    cases current.symm.trans here
    exact Nat.le_refl _
  · rintro v act w moved ⟨before, there, slot⟩
    exact ⟨before.move moved, (moved.suffix.sublist.filterMap _).subset there,
      before.newer moved there slot⟩

theorem gapless_run {s : Server} (numbered : s.standing.Numbered) (stocked : s.standing.Stocked)
    (actions : List Action) : s.Gapless (s.run actions) := by
  have unlogged (n : Note) : (n.takes → n.isLine = false) ∧ (n.turnsAway → n.isLine = false) := by
    cases n <;> simp [Note.takes, Note.turnsAway, Note.isLine]
  have takes (s : Server) := s.standing_times fun n => (unlogged n).1
  have away (s : Server) := s.standing_times fun n => (unlogged n).2
  constructor
  · intro full untaken
    rw [← takes s, ← takes] at untaken
    rw [← away s, ← away]
    exact full_run full actions untaken
  · exact fun i j => newer_run numbered stocked actions

end Server

end HotSwap

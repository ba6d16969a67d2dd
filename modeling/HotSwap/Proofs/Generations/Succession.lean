import HotSwap.Proofs.Generations.Chain
import HotSwap.Proofs.Generations.Service

/-!
# Succession

Over a whole run the generations only go up, from the attempts to the engines in the slot and to
the reports, and the slot has no gap that no shutdown made.
-/

namespace HotSwap.Server

open Standing

/-- What a journal tells of generations. -/
structure Ordered (s : Server) : Prop where
  /-- The n-th attempt to pass the guard takes generation n. -/
  begun : s.journal.reverse.filterMap Note.begun? = List.range' 1 (s.nextGeneration - 1)
  once : ∀ c g g', .begun c g ∈ s.journal → .begun c g' ∈ s.journal → g = g'
  installed : (s.journal.reverse.filterMap Note.installed?).Pairwise (· < ·)
  constructed : ∀ c name context noted, .constructed c name context noted ∈ s.journal →
    .begun c context.generation ∈ s.journal
  returned : ∀ c r, .returned c (.ok r) ∈ s.journal → .begun c r.generation ∈ s.journal ∧
    ∃ i prev, .installed i prev ∈ s.journal ∧ i.generation = r.generation ∧
      r.previousGeneration = prev.map Installation.generation

/-- What a step does to the slot, and what it reports. -/
structure Succeeds (s : Server) (act : Action) : Prop where
  /-- An installation replaces what is in the slot, and has the generation of the attempt. -/
  installed : ∀ i prev, .installed i prev ∈ (s.step act).journal → .installed i prev ∉ s.journal →
    prev = s.slot ∧ (s.step act).slot = some i ∧
      ∃ c, act = .proceed c ∧ .begun c i.generation ∈ s.journal
  emptied : s.slot ≠ none → (s.step act).slot = none →
    ∃ c i, act = .proceed c ∧ s.activity? c = some (.shutdown .queued) ∧ s.slot = some i ∧
      .taken i ∈ (s.step act).journal
  /-- A report names the report before. -/
  chained : ∀ c r c' r' between earlier, s.journal = between ++ .returned c (.ok r) :: earlier →
    Note.Unbroken s.journal between → .returned c' (.ok r') ∈ (s.step act).journal →
      .returned c' (.ok r') ∉ s.journal → r'.previousGeneration = some r.generation

theorem ordered_run (setup : Setup) (actions : List Action) :
    ((start setup).run actions).Ordered := by
  have numbered := numbered_run setup actions
  have reported := reported_run setup actions
  generalize (start setup).run actions = s at numbered reported
  have told {n : Note} (noted : n ∈ s.standing.history) : n ∈ s.journal := (mem_history.mp noted).1
  have begun : s.standing.begun = s.journal.filterMap Note.begun? :=
    s.filterMap_history fun _ _ => rfl
  have installed : s.standing.installed = s.journal.filterMap Note.installed? :=
    s.filterMap_history fun _ _ => rfl
  constructor
  · rw [List.filterMap_reverse, ← begun]
    exact numbered.begun
  · intro c g g' first second
    exact numbered.once (mem_history.mpr ⟨first, rfl⟩) (mem_history.mpr ⟨second, rfl⟩)
  · rw [List.filterMap_reverse, ← installed, List.pairwise_reverse]
    exact numbered.decreasing
  · intro c name context noted there
    exact told (reported.constructed (mem_history.mpr ⟨there, rfl⟩))
  · intro c r there
    obtain ⟨begun, i, prev, installed, same⟩ := reported.returned (mem_history.mpr ⟨there, rfl⟩)
    exact ⟨told begun, i, prev, told installed, same⟩

/-- Who fails has taken a generation, so that those installed have a gap where those taken have
none. -/
example :
    let making (generation : Nat) : Making Engine :=
      if generation = 2 then .failed ⟨"none today", none⟩ else .made (.trial generation)
    let thrice : List Action := .demand .reload :: proceeds 7 0 ++
      .demand .reload :: proceeds 6 3 ++ .demand .reload :: proceeds 10 4
    let s := (start (.trial making)).run thrice
    s.journal.reverse.filterMap Note.begun? = [1, 2, 3] ∧
      s.journal.reverse.filterMap Note.installed? = [1, 3] := by
  decide

/-- The latest report of a journal that is unbroken since. -/
theorem latest_history {s : Server} {c : CallId} {r : Report} {between earlier : List Note}
    (split : s.journal = between ++ .returned c (.ok r) :: earlier)
    (unbroken : Note.Unbroken s.journal between) :
    Note.latest s.standing.history = some r.generation := by
  have sub : s.standing.history ⊆ s.journal := List.filter_subset_self _
  have parts : s.standing.history = (between.filter fun n => !n.isLine) ++
      .returned c (.ok r) :: earlier.filter fun n => !n.isLine := by
    change s.journal.filter _ = _
    rw [split, List.filter_append]
    rfl
  rw [parts] at sub ⊢
  refine Note.latest_unbroken ⟨fun i there => ?_, fun c r there => ?_, fun c x there => ?_⟩ sub
  · exact unbroken.untaken i (List.mem_filter.mp there).1
  · exact unbroken.unreported c r (List.mem_filter.mp there).1
  · exact unbroken.whole c x (List.mem_filter.mp there).1

theorem succeeds_run (setup : Setup) (actions : List Action) (act : Action) :
    ((start setup).run actions).Succeeds act := by
  have numbered := numbered_run setup actions
  have chained := chained_run setup actions
  generalize (start setup).run actions = s at numbered chained
  have moved := s.move_step act
  constructor
  · intro i prev there new
    have noted : .installed i prev ∈ (s.step act).standing.history := mem_history.mpr ⟨there, rfl⟩
    have unknown : .installed i prev ∉ s.standing.history := fun old => new (mem_history.mp old).1
    cases moved.shift with
    | still _ _ plain =>
      obtain ⟨ns, grown, plain⟩ := plain
      rw [grown] at noted
      rcases List.mem_append.mp noted with here | old
      · exact absurd trivial (plain _ here)
      · exact absurd old unknown
    | install known generation slot _ grown =>
      rw [grown] at noted
      rcases List.mem_cons.mp noted with here | old
      · cases here
        rw [generation]
        exact ⟨rfl, slot, _, rfl, (mem_history.mp (numbered.attempt known rfl).2).1⟩
      · exact absurd old unknown
    | enter _ _ _ grown | take _ _ _ _ grown =>
      rw [grown] at noted
      rcases List.mem_cons.mp noted with here | old
      · cases here
      · exact absurd old unknown
  · intro full empty
    have vacant : (s.step act).standing.slot = none := empty
    cases moved.shift with
    | still slot | enter _ slot => exact absurd (slot.symm.trans vacant) full
    | install _ _ slot => cases slot.symm.trans vacant
    | @take c i _ known slot _ _ grown =>
      have noted : .taken i ∈ (s.step (.proceed c)).standing.history := grown ▸ List.mem_cons_self
      exact ⟨c, i, rfl, activity?_of_mem numbered.distinct known, slot, (mem_history.mp noted).1⟩
  · intro c r c' r' between earlier split unbroken there new
    have noted : .returned c' (.ok r') ∈ (s.step act).standing.history :=
      mem_history.mpr ⟨there, rfl⟩
    rcases moved.noted noted with
        old | clerical | ⟨d, a, u, es, known, here, ⟨b, goes⟩ | ⟨x, stops⟩⟩
    · exact absurd (mem_history.mp old).1 new
    · exact clerical.elim
    · exact absurd here (goes.not_returned _)
    · obtain ⟨rfl, o, t, p, previous, rfl, -, rfl⟩ := stops.reported here
      exact chained.reported numbered known (latest_history split unbroken)

/-- The succession of engines is monotone and never has a gap, whatever runs. -/
theorem succession_is_monotone (setup : Setup) (before : List Action) (act : Action)
    (after : List Action) :
    let s := (start setup).run before
    s.Ordered ∧ s.Succeeds act ∧ s.Gapless ((s.step act).run after) :=
  ⟨ordered_run setup before, succeeds_run setup before act,
    gapless_run (numbered_run setup before) (stocked_run setup before) (act :: after)⟩

end HotSwap.Server

import Mathlib.Data.List.Forall2
import HotSwap.Server.Discovery

/-!
# Which provider is found

A registry is built in steps, the last of which to say what names have to start with counts for all.
A discovery finds the one provider whose name is in scope, and calls its constructor once. Others,
and what is only declared, decide nothing but the warnings.
-/

namespace HotSwap

namespace Descriptor

/-- That something is passed over because it provides nothing. -/
def unimplemented (name : String) : String :=
  "Skipping " ++ name ++ ": declared as a provider but does not implement " ++ capability

/-- That something is passed over because there is nothing to make it with. -/
def unconstructible (name : String) : String :=
  "Skipping " ++ name ++ ": no no-argument constructor. " ++ capability ++
    " implementations must be constructible without arguments."

theorem unconstructible_ne (name : String) : unconstructible name ≠ unimplemented name := by
  intro same
  rw [unconstructible, unimplemented] at same
  simp only [String.append_assoc, String.append_right_inj] at same
  exact absurd same (by decide)

/-- The warning tells why what is declared is passed over. -/
structure Warned (d : Descriptor) (warning : String) : Prop where
  reason : warning = unimplemented d.name ∨ warning = unconstructible d.name
  unimplemented_iff : warning = unimplemented d.name ↔ d.implementsProvider = false

end Descriptor

/-- What is declared of a candidate. -/
def Candidate.declared? (c : Candidate) : Option Descriptor :=
  match c.kind with
  | .provider _ => none
  | .declared _ _ => some c.descriptor

/-- What is only declared is passed over with a warning. -/
theorem Candidate.skipped_of_declared (c : Candidate) :
    Option.Rel Descriptor.Warned c.declared? c.skipped? := by
  obtain ⟨name, kind⟩ := c
  cases kind with
  | provider => exact .none
  | declared implements constructible =>
    cases implements with
    | false => exact .some ⟨.inl rfl, fun _ => rfl, fun _ => rfl⟩
    | true =>
      have other := Descriptor.unconstructible_ne name
      exact .some ⟨.inr rfl, fun same => absurd same other, nofun⟩

/-- A step in building a registry. -/
inductive Registration where
  /-- A provider that can be made. -/
  | provide (name : String) (k : Constructor)
  /-- A candidate that is only declared, whatever it says of itself. -/
  | declare (d : Descriptor)
  | accept (starts : List String)

namespace Registration

def extend (r : Registry) : Registration → Registry
  | provide name k => r.register ⟨name, .provider k⟩
  | declare d => r.register (.ofDescriptor d)
  | accept starts => r.accept starts

def build (steps : List Registration) : Registry := steps.foldl extend .empty

/-! ## What the steps say -/

def candidate? : Registration → Option Candidate
  | provide name k => some ⟨name, .provider k⟩
  | declare d => some (.ofDescriptor d)
  | accept _ => none

def accepted? : Registration → Option (List String)
  | accept starts => some starts
  | _ => none

/-- What is said of a candidate: a provider that can be made has all it takes. -/
def descriptor? : Registration → Option Descriptor
  | provide name _ => some ⟨name, true, true⟩
  | declare d => some d
  | accept _ => none

/-- What names have to start with, by the last step that says so. -/
def starts (steps : List Registration) : List String :=
  (steps.filterMap accepted?).getLast?.getD []

def InScope (steps : List Registration) (name : String) : Prop :=
  starts steps = [] ∨ ∃ start ∈ starts steps, start.toList <+: name.toList

instance (steps : List Registration) (name : String) : Decidable (InScope steps name) :=
  inferInstanceAs (Decidable (starts steps = [] ∨ ∃ start ∈ starts steps, _))

def provider? : Registration → Option (String × Constructor)
  | provide name k => some (name, k)
  | _ => none

def declared? : Registration → Option Descriptor
  | declare d => some d
  | _ => none

/-- The providers in scope, as often as they were registered. -/
def eligible (steps : List Registration) : List (String × Constructor) :=
  (steps.filterMap provider?).filter fun p => InScope steps p.1

/-- What is only declared and in scope. -/
def declared (steps : List Registration) : List Descriptor :=
  (steps.filterMap declared?).filter fun d => InScope steps d.name

/-- What is said of all that is in scope. -/
def described (steps : List Registration) : List Descriptor :=
  (steps.filterMap descriptor?).filter fun d => InScope steps d.name

/-- The step only registers something that is not eligible among the steps. -/
def Idle (steps : List Registration) (step : Registration) : Prop :=
  step.accepted? = none ∧ ∀ p ∈ step.provider?, ¬ InScope steps p.1

/-! ## What they build -/

variable {steps : List Registration}

theorem candidates_extended (r : Registry) (steps : List Registration) :
    (steps.foldl extend r).candidates = r.candidates ++ steps.filterMap candidate? := by
  induction steps generalizing r with
  | nil => simp
  | cons step steps inductionHypothesis =>
    rw [List.foldl_cons, inductionHypothesis]
    cases step with
    | provide | declare => simp [extend, Registry.register, candidate?]
    | accept => rfl

theorem accepted_extended (r : Registry) (steps : List Registration) :
    (steps.foldl extend r).accepted = (steps.filterMap accepted?).getLast?.getD r.accepted := by
  induction steps generalizing r with
  | nil => rfl
  | cons step steps inductionHypothesis =>
    rw [List.foldl_cons, inductionHypothesis]
    cases step with
    | provide | declare => simp [extend, Registry.register, accepted?]
    | accept => simp [extend, Registry.accept, accepted?, List.getLast?_cons]

theorem inScope_build (name : String) : (build steps).InScope name ↔ InScope steps name := by
  have accepted : (build steps).accepted = starts steps := accepted_extended .empty steps
  rw [Registry.InScope, InScope, accepted]

theorem inScope_candidates :
    (build steps).inScope = (steps.filterMap candidate?).filter fun c => InScope steps c.name := by
  have candidates : (build steps).candidates = steps.filterMap candidate? :=
    candidates_extended .empty steps
  rw [Registry.inScope, candidates]
  apply List.filter_congr
  intro c _
  exact decide_eq_decide.mpr (inScope_build c.name)

/-- What is read off the candidates in scope is read off the steps, and is in scope. -/
theorem filterMap_inScope {β : Type} {g : Candidate → Option β} {f : Registration → Option β}
    {name : β → String} (reads : ∀ step : Registration, f step = step.candidate?.bind g)
    (named : ∀ c b, g c = some b → name b = c.name) :
    (build steps).inScope.filterMap g =
      (steps.filterMap f).filter fun b => InScope steps (name b) := by
  rw [inScope_candidates, funext reads, ← List.filterMap_filterMap]
  induction steps.filterMap candidate? with
  | nil => rfl
  | cons c rest inductionHypothesis =>
    cases read : g c with
    | none =>
      rw [List.filterMap_cons_none read, ← inductionHypothesis, List.filter_cons]
      split
      · exact List.filterMap_cons_none read
      · rfl
    | some b =>
      have same : name b = c.name := named c b read
      rw [List.filterMap_cons_some read, List.filter_cons, List.filter_cons, same,
        ← inductionHypothesis]
      split
      · exact List.filterMap_cons_some read
      · rfl

theorem eligible_build : (build steps).eligible = eligible steps := by
  apply filterMap_inScope
  · intro step
    cases step <;> rfl
  · rintro ⟨name, kind⟩ found read
    cases kind with
    | provider k =>
      cases read
      rfl
    | declared => cases read

theorem scan_build : (build steps).scan = described steps := by
  rw [Registry.scan, ← List.filterMap_eq_map]
  apply filterMap_inScope
  · intro step
    cases step <;> rfl
  · rintro ⟨name, kind⟩ d read
    cases kind <;> cases read <;> rfl

theorem declared_build : (build steps).inScope.filterMap Candidate.declared? = declared steps := by
  apply filterMap_inScope
  · intro step
    cases step <;> rfl
  · rintro ⟨name, kind⟩ d read
    cases kind with
    | provider => cases read
    | declared =>
      cases read
      rfl

theorem warnings_build :
    List.Forall₂ Descriptor.Warned (declared steps) (build steps).warnings := by
  rw [← declared_build, Registry.warnings]
  induction (build steps).inScope with
  | nil => exact .nil
  | cons c rest inductionHypothesis =>
    have skipped := c.skipped_of_declared
    rw [List.filterMap_cons, List.filterMap_cons]
    generalize c.declared? = declared, c.skipped? = warning at skipped
    cases skipped with
    | none => exact inductionHypothesis
    | some warned => exact .cons warned inductionHypothesis

/-- What registers nothing eligible may be left out. -/
theorem eligible_idle {before after : List Registration} {step : Registration}
    (idle : Idle (before ++ step :: after) step) :
    eligible (before ++ step :: after) = eligible (before ++ after) := by
  obtain ⟨silent, outside⟩ := idle
  have same : starts (before ++ step :: after) = starts (before ++ after) := by
    simp [starts, silent]
  have inScope (name : String) :
      InScope (before ++ step :: after) name ↔ InScope (before ++ after) name := by
    rw [InScope, InScope, same]
  simp only [eligible, inScope] at outside ⊢
  cases provides : step.provider? with
  | none => simp [provides]
  | some p =>
    have excluded := outside p provides
    simp [provides, excluded]

end Registration

namespace Note

/-- Who calls a constructor, under which name and with what. -/
def construction? : Note → Option (CallId × String × Context)
  | .constructed c name context _ => some (c, name, context)
  | _ => none

def warning? : Note → Option String
  | .log .warn text => some text
  | _ => none

end Note

namespace Discovery

open Registration

def constructions (d : Discovery) : List (CallId × String × Context) :=
  d.notes.filterMap Note.construction?

def warnings (d : Discovery) : List String := d.notes.filterMap Note.warning?

theorem constructions_looked (r : Registry) : (looked r).filterMap Note.construction? = [] := by
  simp [looked, scanned, Note.construction?]

theorem warnings_looked (r : Registry) : (looked r).filterMap Note.warning? = r.warnings := by
  change (r.warnings.map (.log .warn)).filterMap Note.warning? = r.warnings
  rw [List.filterMap_map]
  exact List.filterMap_some

/-- The constructor is called once, with the context, and decides what is found. -/
structure Constructs (d : Discovery) (context : Context) (c : CallId) (earlier : Constructed)
    (name : String) (k : Constructor) : Prop where
  once : d.constructions = [(c, name, context)]
  constructed : d.constructed = k.id :: earlier
  made : (k.recipe (earlier.count k.id) context).construction = .made () →
    d.found = .provider name k.id (k.recipe (earlier.count k.id) context)
  failed : ∀ e, (k.recipe (earlier.count k.id) context).construction = .failed e →
    d.found = .failure (.construction name e)
  panicked : ∀ p, (k.recipe (earlier.count k.id) context).construction = .panic p →
    d.found = .panic p

/-- What is found among the steps, what is called for it and what is warned of. -/
structure Selects (d : Discovery) (steps : List Registration) (context : Context) (c : CallId)
    (earlier : Constructed) : Prop where
  notFound : d.found = .failure (.notFound capability) ↔ eligible steps = []
  ambiguous : ∀ names, d.found = .failure (.ambiguous capability names) ↔
    2 ≤ (eligible steps).length ∧ (eligible steps).map (·.1) = names
  one : ∀ name k, eligible steps = [(name, k)] → d.Constructs context c earlier name k
  none : (eligible steps).length ≠ 1 → d.constructions = [] ∧ d.constructed = earlier
  warned : List.Forall₂ Descriptor.Warned (declared steps) d.warnings

variable {r r' : Registry} {d : Discovery} {name : String} {k : Constructor}

/-- A constructor that was called decides what is found, which is neither nothing nor several. -/
theorem Constructs.found_ne {context : Context} {c : CallId} {earlier : Constructed}
    (constructs : d.Constructs context c earlier name k) :
    d.found ≠ .failure (.notFound capability) ∧
      ∀ names, d.found ≠ .failure (.ambiguous capability names) := by
  cases construction : (k.recipe (earlier.count k.id) context).construction with
  | made => simp [constructs.made construction]
  | failed e => simp [constructs.failed e construction]
  | panic p => simp [constructs.panicked p construction]

variable (context : Context) (c : CallId) (earlier : Constructed)

theorem run_of_eligible_nil (none : r.eligible = []) :
    run r context c earlier = ⟨.failure (.notFound capability), looked r, earlier⟩ := by
  rw [run, Registry.discover, none]

theorem run_of_eligible_one (one : r.eligible = [(name, k)]) :
    run r context c earlier =
      ⟨construct name k.id (k.recipe (earlier.count k.id) context),
        looked r ++ [.log .info ("📦 Found provider: " ++ name),
          .constructed c name context (k.recipe (earlier.count k.id) context).noted],
        k.id :: earlier⟩ := by
  rw [run, Registry.discover, one]

theorem run_of_eligible_many {p q : String × Constructor} {rest : List (String × Constructor)}
    (many : r.eligible = p :: q :: rest) :
    run r context c earlier =
      ⟨.failure (.ambiguous capability ((p :: q :: rest).map (·.1))), looked r, earlier⟩ := by
  rw [run, Registry.discover, many]

theorem warnings_run (r : Registry) :
    (run r context c earlier).warnings = r.warnings := by
  rw [warnings, run]
  split
  · exact warnings_looked r
  · rw [List.filterMap_append, warnings_looked]
    exact List.append_nil _

theorem constructs_run (one : r.eligible = [(name, k)]) :
    (run r context c earlier).Constructs context c earlier name k := by
  rw [run_of_eligible_one context c earlier one]
  constructor
  · rw [constructions, List.filterMap_append, constructions_looked]
    rfl
  · rfl
  · intro made
    simp [construct, made]
  · intro e failed
    simp [construct, failed]
  · intro p panicked
    simp [construct, panicked]

theorem selects_run (steps : List Registration) :
    (run (build steps) context c earlier).Selects steps context c earlier := by
  have same : (build steps).eligible = eligible steps := eligible_build
  have warned : List.Forall₂ Descriptor.Warned (declared steps)
      (run (build steps) context c earlier).warnings := by
    rw [warnings_run]
    exact warnings_build
  rcases found : eligible steps with _ | ⟨⟨name, k⟩, _ | ⟨q, rest⟩⟩
  · have ran := run_of_eligible_nil context c earlier (same.trans found)
    constructor
    · simp [ran, found]
    · simp [ran, found]
    · simp [found]
    · simp [ran, constructions, constructions_looked]
    · exact warned
  · have constructs := constructs_run context c earlier (same.trans found)
    obtain ⟨someone, alone⟩ := constructs.found_ne
    constructor
    · simp [someone, found]
    · simp [alone, found]
    · intro name' k' one
      cases found.symm.trans one
      exact constructs
    · simp [found]
    · exact warned
  · have ran := run_of_eligible_many context c earlier (same.trans found)
    constructor
    · simp [ran, found]
    · simp [ran, found]
    · simp [found]
    · simp [ran, constructions, constructions_looked]
    · exact warned

/-- What is found, and what is called for it, depends on what is eligible only. -/
theorem run_congr (same : r.eligible = r'.eligible) :
    (run r context c earlier).found = (run r' context c earlier).found ∧
      (run r context c earlier).constructed = (run r' context c earlier).constructed ∧
      (run r context c earlier).constructions = (run r' context c earlier).constructions := by
  rcases found : r'.eligible with _ | ⟨⟨name, k⟩, _ | ⟨q, rest⟩⟩
  · rw [run_of_eligible_nil context c earlier found,
      run_of_eligible_nil context c earlier (same.trans found)]
    simp [constructions, constructions_looked]
  · rw [run_of_eligible_one context c earlier found,
      run_of_eligible_one context c earlier (same.trans found)]
    simp [constructions, constructions_looked]
  · rw [run_of_eligible_many context c earlier found,
      run_of_eligible_many context c earlier (same.trans found)]
    simp [constructions, constructions_looked]

/-- A discovery finds the one provider in scope and calls its constructor once, or finds none or
several and calls nothing. It warns of all that is declared in scope, and what is not eligible
changes nothing but that. A scan lists all that is in scope. -/
theorem discovery_selects_one (steps : List Registration) :
    let d := run (build steps) context c earlier
    d.Selects steps context c earlier ∧ (build steps).scan = described steps ∧
      ∀ before step after, steps = before ++ step :: after → Idle steps step →
        let e := run (build (before ++ after)) context c earlier
        e.found = d.found ∧ e.constructed = d.constructed ∧
          e.constructions = d.constructions := by
  intro d
  refine ⟨selects_run context c earlier steps, scan_build, ?_⟩
  rintro before step after rfl idle
  apply run_congr
  rw [eligible_build, eligible_build, eligible_idle idle]

example (k l : Constructor) :
    eligible [.provide "lib::Engine" l, .accept ["lib::"], .declare ⟨"app::Ghost", true, true⟩,
      .provide "app::Engine" k, .accept ["app::"]] = [("app::Engine", k)] := by
  cbv

end Discovery

end HotSwap

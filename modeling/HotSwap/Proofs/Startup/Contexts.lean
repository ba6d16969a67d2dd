import HotSwap.Proofs.Requests.Effects
import HotSwap.Proofs.Settings.Classpath
import HotSwap.Proofs.Startup.Staging

/-!
# What providers are told

A server has the paths that its settings list, which no step changes. Whenever it looks for a
provider it tells them to the constructor that it calls, and no constructor is ever told others.
-/

namespace HotSwap

/-- The provider that failed, if one did. -/
def ReloadError.culprit? : ReloadError → Option String
  | .discovery (.construction name _) | .construction name _ => some name
  | _ => none

/-- The provider that the reload has found, be it that it failed. -/
def Reload.Stage.found? : Reload.Stage → Option String
  | .constructed _ name _ _ | .asking _ name _ _ | .installing _ name _ | .retiring _ name _
  | .completing _ name _ => some name
  | .failing _ e => e.culprit?
  | _ => none

/-- The provider that the reload had found by when it returned. -/
def Reload.found? : Except ReloadError Report → Option String
  | .ok r => some r.provider
  | .error e => e.culprit?

/-- The call had the provider constructed, and told it of the paths. -/
def Note.Briefed (entries : List String) (c : CallId) (name : String) (history : List Note) :
    Prop :=
  ∃ generation noted, .constructed c name ⟨entries, generation⟩ noted ∈ history

theorem Note.Briefed.mono {entries : List String} {c : CallId} {name : String}
    {h h' : List Note} (grown : h ⊆ h') (briefed : Briefed entries c name h) :
    Briefed entries c name h' := by
  obtain ⟨generation, noted, there⟩ := briefed
  exact ⟨generation, noted, grown there⟩

theorem Registry.culprit?_of_discover {r : Registry} {e : DiscoveryError}
    (failed : r.discover = .error e) : (ReloadError.discovery e).culprit? = none := by
  unfold discover at failed
  split at failed <;> cases failed <;> rfl

namespace Standing

variable {v w u : Standing} {c d : CallId} {a b : Activity} {es : List Note} {x : Answer}
  {act : Server.Action} {registry : Registry} {entries : List String} {name : String}
  {context : Context} {noted : Bool} {o : Origin} {stage : Reload.Stage}
  {result : Except ReloadError Report}

theorem Goes.context_classpath (goes : Goes v c a u es b)
    (called : .constructed d name context noted ∈ es) : context.classpath = v.setup.classpath := by
  cases goes with
  | misconstruct | construct =>
    cases List.mem_singleton.mp called
    rfl
  | _ => simp at called

theorem Stops.context_classpath (stops : Stops v c a u es x)
    (called : .constructed d name context noted ∈ es) : context.classpath = v.setup.classpath := by
  cases stops with
  | constructorPanic =>
    cases List.mem_singleton.mp called
    rfl
  | _ => simp at called

/-- Where a reload finds its provider, it has it constructed. -/
theorem Goes.briefed (goes : Goes v c a u es b) (reloads : b = .reload o stage)
    (found : stage.found? = some name)
    (briefed : ∀ o stage, a = .reload o stage → stage.found? = some name →
      Note.Briefed v.setup.classpath c name v.history) :
    Note.Briefed v.setup.classpath c name (es ++ v.history) := by
  have grown : v.history ⊆ es ++ v.history := List.subset_append_right _ _
  cases goes with
  | misconstruct | construct =>
    cases reloads
    cases found
    exact ⟨_, _, List.mem_cons_self⟩
  | misfind failed =>
    cases reloads
    cases (Registry.culprit?_of_discover failed).symm.trans found
  | ask | misask | obtain | replace | install | released =>
    cases reloads
    exact (briefed _ _ rfl found).mono grown
  | sleep hK | wake hK | clear hK | release hK =>
    cases hK with
    | reload =>
      cases reloads
      exact (briefed _ _ rfl found).mono grown
    | _ => cases reloads
  | reload | enter | mark =>
    cases reloads
    cases found
  | _ => cases reloads

theorem Stops.returned (stops : Stops v c a u es x) (there : .returned d result ∈ es)
    (found : Reload.found? result = some name) :
    d = c ∧ ∃ o stage, a = .reload o stage ∧ stage.found? = some name := by
  cases stops with
  | succeed | fail =>
    cases List.mem_singleton.mp there
    exact ⟨rfl, _, _, rfl, found⟩
  | refuse =>
    cases List.mem_singleton.mp there
    cases found
  | _ => simp at there

/-- The server looks for providers in the registry and has the paths, told nothing else, and told
them wherever a provider was found. -/
structure Briefs (registry : Registry) (entries : List String) (v : Standing) : Prop where
  registry : v.setup.registry = registry
  classpath : v.setup.classpath = entries
  told {c : CallId} {name : String} {context : Context} {noted : Bool} :
    .constructed c name context noted ∈ v.history → context.classpath = entries
  found {c : CallId} {o : Origin} {stage : Reload.Stage} {name : String} :
    ⟨c, .reload o stage⟩ ∈ v.calls → stage.found? = some name →
      Note.Briefed entries c name v.history
  returned {c : CallId} {result : Except ReloadError Report} {name : String} :
    .returned c result ∈ v.history → Reload.found? result = some name →
      Note.Briefed entries c name v.history

theorem Move.briefs (moved : v.Move act w) (briefs : v.Briefs registry entries) :
    w.Briefs registry entries := by
  have grown := moved.suffix.subset
  constructor
  · exact moved.setup ▸ briefs.registry
  · exact moved.setup ▸ briefs.classpath
  · intro c name context noted there
    rcases moved.noted there with old | clerical | ⟨d, a, u, es, -, new, ⟨b, goes⟩ | ⟨x, stops⟩⟩
    · exact briefs.told old
    · exact clerical.elim
    · exact (goes.context_classpath new).trans briefs.classpath
    · exact (stops.context_classpath new).trans briefs.classpath
  · intro c o stage name present found
    cases moved.comes present with
    | stays known => exact (briefs.found known found).mono grown
    | begins _ opens =>
      cases opens
      cases found
    | @proceeds a u es known goes same =>
      have history : w.history = es ++ v.history :=
        same ▸ congrArg (es ++ ·) goes.frame.history
      rw [history, ← briefs.classpath]
      apply goes.briefed rfl found
      intro o' stage' reloads before
      exact briefs.classpath ▸ briefs.found (reloads ▸ known) before
    | handed _ retires => cases retires
    | completes known completing =>
      cases completing
      exact (briefs.found known found).mono grown
  · intro c result name there found
    rcases moved.noted there with old | clerical | ⟨d, a, u, es, known, new, ⟨b, goes⟩ | ⟨x, stops⟩⟩
    · exact (briefs.returned old found).mono grown
    · exact clerical.elim
    · exact absurd new (goes.not_returned _)
    · obtain ⟨rfl, o, stage, rfl, before⟩ := stops.returned new found
      exact (briefs.found known before).mono grown

end Standing

namespace Server

open Standing

section Keeps

variable {P : Standing → Prop} (kept : ∀ {v act w}, v.Move act w → P v → P w)
  {settings : Settings} {triggers : List Trigger} {bind : Binding}
  {lookUp : String → UInt16 → Except String (List Endpoint)}
include kept

/-! ## What a start keeps -/

theorem proceed_keeps (s : Server) (c : CallId) (held : P s.standing) : P (s.proceed c).standing :=
  kept (s.move_proceed c) held

theorem foldl_install_keeps (triggers : List Trigger) (s : Server) (held : P s.standing) :
    P (triggers.foldl install s).standing := by
  induction triggers generalizing s with
  | nil => exact held
  | cons t rest inductionHypothesis =>
    refine inductionHypothesis (s.install t) ?_
    unfold install
    split
    · exact kept (s.move_step (.demand (.listen _))) held
    · exact held

theorem serve_keeps (s : Server) (e : Endpoint) (held : P s.standing) :
    P (s.serve settings triggers e).standing := by
  have told : P (s.logAll (listeningLines settings e)).standing := by
    rwa [standing_logAll]
  exact settleFor_keeps (proceed_keeps kept) _ _ none (foldl_install_keeps kept triggers _ told)

theorem listen_keeps (s : Server) (held : P s.standing) :
    P ((s.listen (.noting lookUp bind) settings triggers).run []).run.1.1.standing := by
  cases found : settings.chosen (lookUp settings.host settings.port) with
  | error reason => simpa [listen, Network.noting, found] using held
  | ok wanted =>
    cases bound : bind wanted with
    | error reason => simpa [listen, Network.noting, found, bound] using held
    | ok e => simpa [listen, Network.noting, found, bound] using serve_keeps kept s e held

/-- What every move keeps is kept by a start. -/
theorem launchIn_keeps (s : Server) (held : P s.standing) :
    P ((s.launchIn (.noting lookUp bind) settings triggers).run []).run.1.1.standing := by
  have begun : P ((s.log .info "🚀 Starting DevServe...").demand .startup).standing :=
    kept ((s.log .info "🚀 Starting DevServe...").move_step (.demand .startup)) held
  have loaded :=
    await_keeps (proceed_keeps kept) _ (s.log .info "🚀 Starting DevServe...").fresh begun
  unfold launchIn
  simp only
  split
  · exact listen_keeps kept _ loaded
  · exact loaded
  · exact loaded
  · exact loaded

theorem launch_keeps (s : Server) (held : P s.standing) :
    P (s.launch settings triggers bind).1.standing := by
  rw [launch_eq_noting]
  exact launchIn_keeps kept s held

end Keeps

/-! ## Discoveries -/

variable {s : Server} {c : CallId} {o : Origin} {a : Attempt} {name : String} {k : Constructor}

theorem constructions_finish (s : Server) (c : CallId) (x : Answer) :
    (s.finish c x).constructions = s.constructions := by
  rw [← standing_constructions, standing_finish, ← standing_constructions]
  rfl

/-- A reload that looks for a provider calls the constructors that the discovery calls. -/
theorem constructions_building (active : s.activity? c = some (.reload o (.building a))) :
    (s.step (.proceed c)).constructions =
      (s.discover c a).constructions.reverse ++ s.constructions := by
  have found (t : Server) (journal : t.journal = (s.discover c a).notes.reverse ++ s.journal) :
      t.constructions = (s.discover c a).constructions.reverse ++ s.constructions := by
    rw [constructions, journal, List.filterMap_append, List.filterMap_reverse]
    rfl
  -- at this stage a call never waits, and whatever is found, the notes are kept
  rw [step_proceed active rfl id]
  simp only [act, reloadStep, reloadBuilding]
  split
  · exact found _ rfl
  · exact found _ rfl
  · rw [constructions_finish]
    exact found _ rfl

/-- Whoever is called to construct a provider is told of the paths. -/
structure Informs (s : Server) (registry : Registry) (entries : List String) : Prop where
  told (c : CallId) (name : String) (context : Context) (noted : Bool)
    (called : .constructed c name context noted ∈ s.journal) : context.classpath = entries
  /-- A reload that found its provider called the constructor, whether or not it succeeded. -/
  earlier (c : CallId) (result : Except ReloadError Report) (name : String)
    (returned : .returned c result ∈ s.journal) (found : Reload.found? result = some name) :
    ∃ generation noted, .constructed c name ⟨entries, generation⟩ noted ∈ s.journal
  /-- A reload that is about to look calls the constructor once, and with it goes on or fails. -/
  next (c : CallId) (o : Origin) (a : Attempt) (name : String) (k : Constructor)
    (looks : s.activity? c = some (.reload o (.building a)))
    (one : registry.eligible = [(name, k)]) :
    (s.discover c a).Constructs ⟨entries, a.generation⟩ c s.constructed name k ∧
      (s.step (.proceed c)).constructions = (c, name, ⟨entries, a.generation⟩) :: s.constructions

theorem informs_of_briefs {registry : Registry} {entries : List String}
    (briefs : s.standing.Briefs registry entries) : s.Informs registry entries := by
  obtain ⟨rfl, rfl, told, -, earlier⟩ := briefs
  refine ⟨fun c name context noted called => ?_, fun c result name returned found => ?_,
    fun c o a name k looks one => ?_⟩
  · exact told (mem_history.mpr ⟨called, rfl⟩)
  · obtain ⟨generation, noted, there⟩ := earlier (mem_history.mpr ⟨returned, rfl⟩) found
    exact ⟨generation, noted, (mem_history.mp there).1⟩
  · have constructs : (s.discover c a).Constructs (s.context a) c s.constructed name k :=
      Discovery.constructs_run (s.context a) c s.constructed one
    refine ⟨constructs, ?_⟩
    rw [constructions_building looks, constructs.once]
    rfl

theorem briefs_ofSettings (settings : Settings) (registry : Registry) (clock : Instant → String) :
    (ofSettings settings registry clock).standing.Briefs registry settings.classpathEntries :=
  ⟨rfl, rfl, nofun, nofun, nofun⟩

/-- After a start where no names are known, too, providers are told of the paths. -/
theorem informs_launch (settings : Settings) (registry : Registry) (clock : Instant → String)
    (triggers : List Trigger) (bind : Binding) (actions : List Action) :
    let t := ((ofSettings settings registry clock).launch settings triggers bind).1
    (t.run actions).Informs registry settings.classpathEntries := by
  intro t
  have started : t.standing.Briefs registry settings.classpathEntries :=
    launch_keeps (fun moved briefs => moved.briefs briefs) _
      (briefs_ofSettings settings registry clock)
  exact informs_of_briefs (standing_run actions started fun moved briefs => moved.briefs briefs)

/-- The paths of a setting get to all providers. They are what stands between colons in it, which is
what was joined, with however many colons. A server with the settings tells them to whichever
constructor it calls, both before it is started and after, and whatever came of reloads. -/
theorem classpath_reaches_constructors (settings : Settings) (registry : Registry)
    (clock : Instant → String) (triggers : List Trigger)
    (lookUp : String → UInt16 → Except String (List Endpoint)) (bind : Binding)
    (before actions : List Action) :
    let entries := settings.classpathEntries
    let s := (ofSettings settings registry clock).run before
    let t := ((s.launchIn (.noting lookUp bind) settings triggers).run []).run.1.1
    Settings.Lists settings.classpath entries ∧ s.Informs registry entries ∧
      (t.run actions).Informs registry entries := by
  intro entries s t
  have begun := briefs_ofSettings settings registry clock
  have held : s.standing.Briefs registry entries :=
    standing_run before begun fun moved briefs => moved.briefs briefs
  have started : t.standing.Briefs registry entries :=
    launchIn_keeps (fun moved briefs => moved.briefs briefs) s held
  have later : (t.run actions).standing.Briefs registry entries :=
    standing_run actions started fun moved briefs => moved.briefs briefs
  exact ⟨Settings.lists_classpathEntries settings, informs_of_briefs held, informs_of_briefs later⟩

/-! Paths with surplus colons, told when the server is started and by a later reload. -/

def spacious : Settings := { Settings.default with classpath := some "::build/classes:::lib:" }

theorem spacious_classpath_reaches_constructors :
    let parts := [("build/classes", 2), ("lib", 1)]
    let registry := (Setup.trial fun generation => .made (.trial generation)).registry
    let s := (ofSettings spacious registry fun _ => "").run []
    let t := ((s.launchIn (.noting Address.lookUp .ok) spacious [.hangup]).run []).run.1.1
    let u := t.run (.demand .reload :: proceeds 7 4)
    (spacious.classpath = some (Settings.padded 2 parts) ∧
        spacious.classpathEntries = ["build/classes", "lib"]) ∧
      u.Informs registry spacious.classpathEntries ∧
      u.constructions.map (·.2.2.classpath) =
        [["build/classes", "lib"], ["build/classes", "lib"]] := by
  have plain : ∀ part ∈ [("build/classes", 2), ("lib", 1)], Settings.IsEntry part.1 := by
    simp only [List.forall_mem_cons]
    exact ⟨⟨by decide, by decide⟩, ⟨by decide, by decide⟩, List.forall_mem_nil _⟩
  have spelled : spacious.classpath =
      some (Settings.padded 2 [("build/classes", 2), ("lib", 1)]) := by decide +kernel
  have reaches := classpath_reaches_constructors spacious
    (Setup.trial fun generation => .made (.trial generation)).registry (fun _ => "") [.hangup]
    Address.lookUp .ok [] (.demand .reload :: proceeds 7 4)
  have listed : spacious.classpathEntries = ["build/classes", "lib"] :=
    reaches.1.joined 2 _ plain spelled
  exact ⟨⟨spelled, listed⟩, reaches.2.2, by decide +kernel⟩

end Server

end HotSwap

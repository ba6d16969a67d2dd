import HotSwap.Proofs.Startup.FirstLoad

/-!
# The stages of a start

A start loads an engine, looks up its address, listens there and installs its triggers, in this
order and only as long as all goes well. A start that fails leaves no listener behind, but once an
engine is loaded it stays in the slot, where no one will ever release it.
-/

namespace HotSwap

/-- What is asked of a network. -/
inductive Errand where
  | lookUp (host : String) (port : UInt16)
  | bind (e : Endpoint)
  deriving DecidableEq

/-- A network that takes down what it is asked, the latest first. -/
def Network.noting (lookUp : String → UInt16 → Except String (List Endpoint)) (bind : Binding) :
    Network (StateM (List Errand)) where
  lookUp host port := do
    modify (.lookUp host port :: ·)
    return lookUp host port
  bind e := do
    modify (.bind e :: ·)
    return bind e

namespace Trigger

/-- What is logged of the trigger when it is installed. -/
def line (t : Trigger) : Level × String :=
  match t.source with
  | .ok _ => (.info, t.name ++ " handler registered for hot-reload")
  | .error e =>
    (.warn, "Could not register " ++ t.name ++
      " handler (may not be supported on this platform): " ++ e.message)

/-- What listens for the trigger, if it can be registered. -/
def listener? (t : Trigger) : Option Activity :=
  match t.source with
  | .ok source => some (.listener source)
  | .error _ => none

end Trigger

def Note.logged? : Note → Option (Level × String)
  | .log level text => some (level, text)
  | _ => none

namespace Server

open Standing

variable {s t u : Server} {i : Installation} {act : Action} {actions : List Action}
  {settings : Settings} {triggers : List Trigger} {bind : Binding}
  {lookUp : String → UInt16 → Except String (List Endpoint)}

/-- The log, the latest line first. -/
def lines (s : Server) : List (Level × String) := s.journal.filterMap Note.logged?

/-- What happened to engines, the latest first. -/
def engineNotes (s : Server) : List Note := s.journal.filter Note.ofEngine

theorem standing_engineNotes (s : Server) : s.standing.engineNotes = s.engineNotes := by
  change (s.journal.filter fun n => !n.isLine).filter Note.ofEngine = _
  rw [List.filter_filter]
  apply List.filter_congr
  intro n _
  cases n <;> rfl

/-! ## Installing triggers -/

theorem lines_wake (s : Server) (c : CallId) : (s.wake c).lines = s.lines := by
  unfold wake
  split <;> rfl

theorem lines_begin (s : Server) (a : Activity) : (s.begin a).lines = s.lines :=
  lines_wake _ _

theorem calls_begin (s : Server) (a : Activity) :
    (s.begin a).calls = s.calls ++ [⟨s.fresh, a⟩] := by
  rw [← List.concat_eq_append]
  exact congrArg Standing.calls (s.standing_begin a)

theorem lines_install (s : Server) (t : Trigger) : (s.install t).lines = t.line :: s.lines := by
  unfold install Trigger.line
  cases t.source with
  | ok source => exact congrArg (_ :: ·) (s.lines_begin _)
  | error e => rfl

theorem activities_install (s : Server) (t : Trigger) :
    (s.install t).calls.map Call.activity = s.calls.map Call.activity ++ t.listener?.toList := by
  unfold install Trigger.listener?
  cases t.source with
  | ok source =>
    have begun : (s.demand (.listen source)).calls = _ := s.calls_begin (.listener source)
    change (s.demand (.listen source)).calls.map Call.activity = _
    rw [begun, List.map_append]
    rfl
  | error e => exact (List.append_nil _).symm

/-- Each trigger is installed in its turn, whether or not those before it could be registered. -/
theorem foldl_install (triggers : List Trigger) (s : Server) :
    (triggers.foldl install s).lines = (triggers.map Trigger.line).reverse ++ s.lines ∧
      (triggers.foldl install s).calls.map Call.activity =
        s.calls.map Call.activity ++ triggers.filterMap Trigger.listener? := by
  induction triggers generalizing s with
  | nil => exact ⟨rfl, (List.append_nil _).symm⟩
  | cons t rest inductionHypothesis =>
    obtain ⟨lines, activities⟩ := inductionHypothesis (s.install t)
    rw [List.foldl_cons, lines, activities, lines_install, activities_install]
    constructor
    · rw [List.map_cons, List.reverse_cons, List.append_assoc]
      rfl
    · rw [List.append_assoc]
      cases listens : t.listener? with
      | none => rw [List.filterMap_cons_none listens, Option.toList_none, List.nil_append]
      | some a => rw [List.filterMap_cons_some listens]; rfl

/-! ## What stays when no one calls -/

theorem idle_step (idle : s.calls = []) (undemanded : ∀ d, act ≠ .demand d) :
    (s.step act).calls = [] ∧ (s.step act).engineNotes = s.engineNotes := by
  have none (c : CallId) : s.activity? c = none := by
    rw [activity?, call?, idle]
    rfl
  have same (t : Server) (still : t.standing = s.standing) :
      t.calls = [] ∧ t.engineNotes = s.engineNotes := by
    refine ⟨(congrArg Standing.calls still).trans idle, ?_⟩
    rw [← standing_engineNotes, still, standing_engineNotes]
  cases act with
  | demand d => exact absurd rfl (undemanded d)
  | proceed c =>
    have stands : s.step (.proceed c) = s := by simp only [step, proceed, none]
    rw [stands]
    exact ⟨idle, rfl⟩
  | cancel c =>
    have stands : s.step (.cancel c) = s := by simp only [step, cancel, none]
    rw [stands]
    exact ⟨idle, rfl⟩
  | elapse ms => exact same _ (s.standing_elapse ms)
  | permit g n => exact same _ (standing_wakeAll _ _)
  | send id =>
    simp only [step, send]
    split
    · exact same _ (standing_wakeListeners _ _)
    · exact ⟨idle, rfl⟩
  | dropSender id => exact same _ (standing_wakeListeners _ _)
  | dropReceiver id => exact same _ (s.standing_dropReceiver id)
  | hangUp => exact same _ (standing_wakeListeners _ _)
  | keep name =>
    simp only [step, keep]
    split <;> exact ⟨idle, rfl⟩
  | letGo | openChannel | addSender => exact ⟨idle, rfl⟩

/-- An engine is in the slot, and no one will ever take it out or release it. -/
structure Strands (s : Server) (i : Installation) : Prop where
  slot : s.slot = some i
  calls : s.calls = []
  unreleased : s.engineNotes = [.installed i none]
  forever : ∀ actions, (∀ d, .demand d ∉ actions) →
    (s.run actions).engineNotes = [.installed i none]

theorem strands_of_idle (slot : s.slot = some i) (idle : s.calls = [])
    (one : s.engineNotes = [.installed i none]) : s.Strands i := by
  refine ⟨slot, idle, one, fun actions undemanded => ?_⟩
  have held : (s.run actions).calls = [] ∧ (s.run actions).engineNotes = [.installed i none] := by
    refine run_induction (P := fun u => u.calls = [] ∧ u.engineNotes = [.installed i none]) actions
      ⟨idle, one⟩ ?_
    rintro before act after rfl ⟨calls, notes⟩
    have other (d : Demand) : act ≠ .demand d := by
      rintro rfl
      exact undemanded d (List.mem_append_right _ List.mem_cons_self)
    obtain ⟨still, same⟩ := idle_step calls other
    exact ⟨still, same.trans notes⟩
  exact held.2

/-! ## Starting -/

/-- How a start went, and what it asked of the network, the latest first. -/
inductive Launches (settings : Settings) (triggers : List Trigger)
    (lookUp : String → UInt16 → Except String (List Endpoint)) (bind : Binding) :
    Server → Started → List Errand → Prop
  | loading {u : Server} {c : CallId} {stage : Reload.Stage}
      (calls : u.calls = [⟨c, .reload .startup stage⟩]) :
      Launches settings triggers lookUp bind u .loading []
  | panicked {u : Server} {p : Payload} (calls : u.calls = []) (slot : u.slot = none)
      (none : u.engineNotes = []) : Launches settings triggers lookUp bind u (.panic p) []
  | unloaded {u : Server} {e : ReloadError} (calls : u.calls = []) (slot : u.slot = none)
      (none : u.engineNotes = []) :
      Launches settings triggers lookUp bind u (.failed (.reload e)) []
  | unresolved {u : Server} {i : Installation} {reason : String}
      (found : settings.chosen (lookUp settings.host settings.port) = .error reason)
      (strands : u.Strands i) :
      Launches settings triggers lookUp bind u (.failed (.invalidInput reason))
        [.lookUp settings.host settings.port]
  | unbound {u : Server} {i : Installation} {wanted : Endpoint} {reason : String}
      (found : settings.chosen (lookUp settings.host settings.port) = .ok wanted)
      (bound : bind wanted = .error reason) (strands : u.Strands i) :
      Launches settings triggers lookUp bind u (.failed (.bind wanted.render reason))
        [.bind wanted, .lookUp settings.host settings.port]
  /-- Everything is installed before the first of the triggers' calls goes on. -/
  | running {t u : Server} {i : Installation} {wanted e : Endpoint}
      (found : settings.chosen (lookUp settings.host settings.port) = .ok wanted)
      (bound : bind wanted = .ok e) (slot : t.slot = some i)
      (listeners : t.calls.map Call.activity = triggers.filterMap Trigger.listener?)
      (lines :
        ((listeningLines settings e).map (Level.info, ·) ++ triggers.map Trigger.line).reverse <+:
          t.lines)
      (settled : u = (t.log .info readyLine).settle) :
      Launches settings triggers lookUp bind u (.running e)
        [.bind wanted, .lookUp settings.host settings.port]

theorem slot_foldl_install (triggers : List Trigger) (s : Server) :
    (triggers.foldl install s).slot = s.slot := by
  induction triggers generalizing s with
  | nil => rfl
  | cons t rest inductionHypothesis =>
    refine (inductionHypothesis (s.install t)).trans ?_
    unfold install
    split
    · exact congrArg Standing.slot (s.standing_begin _)
    · rfl

theorem standing_logAll (s : Server) (texts : List String) :
    (s.logAll texts).standing = s.standing := by
  induction texts generalizing s with
  | nil => rfl
  | cons text rest inductionHypothesis => exact inductionHypothesis (s.log .info text)

theorem lines_logAll (s : Server) (texts : List String) :
    (s.logAll texts).lines = (texts.map (Level.info, ·)).reverse ++ s.lines := by
  induction texts generalizing s with
  | nil => rfl
  | cons text rest inductionHypothesis =>
    refine (inductionHypothesis (s.log .info text)).trans ?_
    rw [List.map_cons, List.reverse_cons, List.append_assoc]
    rfl

/-- From when the engine is loaded. -/
theorem launches_listen (slot : s.slot = some i) (idle : s.calls = [])
    (one : s.engineNotes = [.installed i none]) :
    let r := ((s.listen (.noting lookUp bind) settings triggers).run []).run
    Launches settings triggers lookUp bind r.1.1 r.1.2 r.2 := by
  have strands : s.Strands i := strands_of_idle slot idle one
  intro r
  cases found : settings.chosen (lookUp settings.host settings.port) with
  | error reason =>
    have went :
        r = ((s, .failed (.invalidInput reason)), [.lookUp settings.host settings.port]) := by
      simp [r, listen, Network.noting, found]
    rw [went]
    exact .unresolved found strands
  | ok wanted =>
    cases bound : bind wanted with
    | error reason =>
      have went : r = ((s, .failed (.bind wanted.render reason)),
          [.bind wanted, .lookUp settings.host settings.port]) := by
        simp [r, listen, Network.noting, found, bound]
      rw [went]
      exact .unbound found bound strands
    | ok e =>
      have went : r = ((s.serve settings triggers e, .running e),
          [.bind wanted, .lookUp settings.host settings.port]) := by
        simp [r, listen, Network.noting, found, bound]
      obtain ⟨lines, listeners⟩ := foldl_install triggers (s.logAll (listeningLines settings e))
      have told := s.standing_logAll (listeningLines settings e)
      have calls : (s.logAll (listeningLines settings e)).calls = s.calls :=
        congrArg Standing.calls told
      rw [went]
      refine .running (i := i) found bound ?_ ?_ ?_ rfl
      · exact (slot_foldl_install _ _).trans ((congrArg Standing.slot told).trans slot)
      · rw [listeners, calls, idle]
        rfl
      · rw [lines, lines_logAll, ← List.append_assoc, ← List.reverse_append]
        exact List.prefix_append _ _

theorem Blank.log (blank : s.Blank) (level : Level) (text : String) : (s.log level text).Blank :=
  ⟨blank.calls, blank.slot, blank.answers, blank.history⟩

/-- From what became of the first load. -/
theorem launches_of_loads {c : CallId} (known : (s.log .info "🚀 Starting DevServe...").fresh = c)
    (reached : ((s.log .info "🚀 Starting DevServe...").demand .startup).await c = t)
    (loads : t.standing.Loads c) :
    let r := ((s.launchIn (.noting lookUp bind) settings triggers).run []).run
    Launches settings triggers lookUp bind r.1.1 r.1.2 r.2 := by
  intro r
  have notes := t.standing_engineNotes
  have answer (answers : List (CallId × Answer)) (told : t.standing.answers = answers) :
      t.answer? c = answers.lookup c := congrArg (List.lookup c) told
  cases loads with
  | tries calls _ _ answers | succeeds calls _ answers =>
    have went : r = ((t, .loading), []) := by
      simp [r, launchIn, known, reached, answer _ answers]
    rw [went]
    exact .loading calls
  | @loaded i report calls slot answers _ one =>
    have went : r = (((t.log .info ("✅ Engine from " ++ report.provider ++ " ready")).listen
        (.noting lookUp bind) settings triggers).run []).run := by
      simp [r, launchIn, known, reached, answer _ answers]
    rw [went]
    exact launches_listen slot calls (notes.symm.trans one)
  | @refused e calls slot answers none =>
    have went : r = ((t, .failed (.reload e)), []) := by
      simp [r, launchIn, known, reached, answer _ answers]
    rw [went]
    exact .unloaded calls slot (notes.symm.trans none)
  | @panicked p calls slot answers none =>
    have went : r = ((t, .panic p), []) := by
      simp [r, launchIn, known, reached, answer _ answers]
    rw [went]
    exact .panicked calls slot (notes.symm.trans none)

/-- A start asks the network for nothing until an engine is loaded, tries to listen only where it
has found an address, and installs its triggers only once it listens, each in its turn. A start that
fails leaves no call behind. If it fails for its address, though, the engine that it loaded is
stranded, while there is none if it fails to load one. -/
theorem failed_start_strands_engine (blank : s.Blank) (settings : Settings)
    (triggers : List Trigger) (lookUp : String → UInt16 → Except String (List Endpoint))
    (bind : Binding) :
    let r := ((s.launchIn (.noting lookUp bind) settings triggers).run []).run
    Launches settings triggers lookUp bind r.1.1 r.1.2 r.2 :=
  launches_of_loads rfl rfl (loads_await (blank.log _ _))

/-! Someone else listens at the address. -/

def occupied : Binding := fun _ => .error "Address already in use (os error 98)"

def tried : Server :=
  .ofSettings .default (Setup.trial fun generation => .made (.trial generation)).registry
    fun _ => ""

theorem occupied_address_strands_engine :
    let r := ((tried.launchIn (.noting Address.lookUp occupied) .default [.hangup]).run []).run
    tried.Blank ∧ Launches .default [.hangup] Address.lookUp occupied r.1.1 r.1.2 r.2 ∧
      r.2.length = 2 ∧ r.1.1.slot.map Installation.generation = some 1 := by
  intro r
  have blank : tried.Blank := blank_ofSettings _ _ _
  have launches : Launches .default [.hangup] Address.lookUp occupied r.1.1 r.1.2 r.2 :=
    failed_start_strands_engine blank .default [.hangup] Address.lookUp occupied
  have asked : r.2.length = 2 := by decide +kernel
  have loaded : r.1.1.slot.map Installation.generation = some 1 := by decide +kernel
  exact ⟨blank, launches, asked, loaded⟩

/-- A start where no names are known goes as it does where it is taken down what is asked. -/
theorem launch_eq_noting (s : Server) (settings : Settings) (triggers : List Trigger)
    (bind : Binding) :
    s.launch settings triggers bind =
      ((s.launchIn (.noting Address.lookUp bind) settings triggers).run []).run.1 := by
  have listens (t : Server) : (t.listen (.nameless bind) settings triggers).run =
      ((t.listen (.noting Address.lookUp bind) settings triggers).run []).run.1 := by
    cases found : settings.chosen (Address.lookUp settings.host settings.port) with
    | error reason => simp [listen, Network.nameless, Network.noting, found]
    | ok wanted =>
      cases bound : bind wanted <;> simp [listen, Network.nameless, Network.noting, found, bound]
  simp only [launch, launchIn]
  split
  · exact listens _
  · rfl
  · rfl
  · rfl

/-- So it leaves behind what such a start does. -/
theorem launches_launch (blank : s.Blank) (settings : Settings) (triggers : List Trigger)
    (bind : Binding) :
    ∃ errands, Launches settings triggers Address.lookUp bind (s.launch settings triggers bind).1
      (s.launch settings triggers bind).2 errands := by
  rw [launch_eq_noting]
  exact ⟨_, launches_of_loads rfl rfl (loads_await (blank.log _ _))⟩

end Server

end HotSwap

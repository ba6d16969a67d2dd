import HotSwap.Proofs.Json.Scanning
import HotSwap.Proofs.Settings.Flags
import HotSwap.Proofs.Settings.Objects

/-!
# Where each setting comes from

What is typed is stronger than the environment, that is stronger than the configuration file, and a
file is stronger than the defaults. Each setting comes from the strongest layer that says something
of it, and what the layers say of the others does not matter.
-/

namespace HotSwap

open CommandLine Settings Settings.Assignment

/-- What was typed, the variables, and the members of the configuration file. -/
structure Layers where
  given : List (Flag × String)
  environment : List Variable
  members : List (String × Entry)

namespace Layers

/-- The layers of a start. -/
structure Of (arguments : List String) (files : List File) (environment : List Variable)
    (l : Layers) : Prop where
  typed : Typed arguments l.given
  full : l.environment = fullEnvironment files environment
  filed : fileMembers files = .ok l.members

def ofEnvironment (l : Layers) : List Assignment := l.environment.filterMap ofVariable?

def ofFile (l : Layers) : List Assignment := l.members.map ofMember

/-- The value of the strongest layer that says something of a setting. -/
inductive Strongest (l : Layers) (f : Field) : f.Value → Prop
  | typed {text : String} {v : f.Value} (typed : f.typed? l.given = some text)
      (means : f.Means text v) : l.Strongest f v
  | exported {text : String} {v : f.Value} (untyped : f.typed? l.given = none)
      (exported : f.exported? l.environment = some text) (means : f.Means text v) :
      l.Strongest f v
  /-- A variable that no option goes by. -/
  | environment {a : Assignment} {v : f.Value} (untyped : f.typed? l.given = none)
      (unexported : f.exported? l.environment = none) (last : last? f.key l.ofEnvironment = some a)
      (read : f.read a.value = .ok v) : l.Strongest f v
  | filed {a : Assignment} {v : f.Value} (untyped : f.typed? l.given = none)
      (unset : last? f.key l.ofEnvironment = none) (last : last? f.key l.ofFile = some a)
      (read : f.read a.value = .ok v) : l.Strongest f v
  | default (untyped : f.typed? l.given = none) (unset : last? f.key l.ofEnvironment = none)
      (unfiled : last? f.key l.ofFile = none) : l.Strongest f (f.of default)

/-- What is set last is a scalar. -/
def Scalars (l : Layers) : Prop :=
  ∀ (f : Field) a, last? f.key (l.ofFile ++ l.ofEnvironment) = some a → a.Plain

/-- No option is typed twice, and every value can be read. -/
structure WellFormed (l : Layers) : Prop where
  distinct : (l.given.map (·.1)).Nodup
  typed : ∀ t ∈ l.given, ∀ f : Field, f.flag? = some t.1 → ∃ v, f.Means t.2 v
  exported : ∀ (f : Field) text, f.exported? l.environment = some text → ∃ v, f.Means text v
  scalars : l.Scalars
  read : ∀ (f : Field) a, last? f.key (l.ofFile ++ l.ofEnvironment) = some a →
    ∃ v, f.read a.value = .ok v

variable {l l' : Layers} {arguments : List String} {files : List File}
  {environment : List Variable} {f : Field} {filter : LogFilter} {said : String} {s : Settings}

/-- A program that serves has read its options and loaded the settings they override. -/
theorem exists_of_serve (serves : launch arguments files environment = .serve s filter said) :
    ∃ o loaded, options arguments (fullEnvironment files environment) = .ok o ∧
      load files (fullEnvironment files environment) = .ok loaded ∧ s = o.apply loaded := by
  unfold launch at serves
  dsimp only at serves
  split at serves
  · cases serves
  · next o read =>
    unfold settings at serves
    cases loads : load files (fullEnvironment files environment) with
    | error e =>
      rw [loads] at serves
      cases serves
    | ok loaded =>
      rw [loads] at serves
      cases serves
      exact ⟨o, loaded, read, rfl, rfl⟩

theorem exists_serve {o : Options} {loaded : Settings}
    (read : options arguments (fullEnvironment files environment) = .ok o)
    (loads : load files (fullEnvironment files environment) = .ok loaded) :
    ∃ filter said, launch arguments files environment = .serve (o.apply loaded) filter said := by
  unfold launch settings
  dsimp only
  rw [read, loads]
  exact ⟨_, _, rfl⟩

theorem load_of (of : l.Of arguments files environment) :
    load files (fullEnvironment files environment) =
      ofEntry (performAll defaultEntries (l.ofFile ++ l.ofEnvironment)) := by
  rw [load_eq, of.filed, ← of.full]
  rfl

/-- Where no option says anything, a setting is loaded from the strongest layer left. -/
theorem strongest_of_load {loaded : Settings} (scalars : l.Scalars)
    (loads : ofEntry (performAll defaultEntries (l.ofFile ++ l.ofEnvironment)) = .ok loaded)
    (untyped : f.typed? l.given = none) (unexported : f.exported? l.environment = none) :
    l.Strongest f (f.of loaded) := by
  have reading := Field.ofEntry_eq_ok_iff.mp loads f
  have last := last?_append f.key l.ofFile l.ofEnvironment
  cases set : last? f.key l.ofEnvironment with
  | some a =>
    rw [set] at last
    rw [get?_performAll_of_last last (scalars f a last)] at reading
    exact .environment untyped unexported set reading
  | none =>
    rw [set] at last
    cases filed : last? f.key l.ofFile with
    | some a =>
      rw [filed] at last
      rw [get?_performAll_of_last last (scalars f a last)] at reading
      exact .filed untyped set filed reading
    | none =>
      rw [filed] at last
      rw [get?_performAll_of_none last, Field.reading_default] at reading
      rw [← Except.ok.inj reading]
      exact .default untyped set filed

/-- Each setting has the value of the strongest layer. -/
theorem strongest_of_serve (of : l.Of arguments files environment) (scalars : l.Scalars)
    (serves : launch arguments files environment = .serve s filter said) (f : Field) :
    l.Strongest f (f.of s) := by
  obtain ⟨o, loaded, read, loads, rfl⟩ := exists_of_serve serves
  rw [← of.full] at read
  have said := said_of_options of.typed read f
  rw [load_of of] at loads
  rw [Options.of_apply]
  cases typed : f.typed? l.given with
  | some text =>
    rw [typed] at said
    obtain ⟨v, means, there⟩ := said
    rw [there]
    exact .typed typed means
  | none =>
    cases exported : f.exported? l.environment with
    | some text =>
      rw [typed, exported] at said
      obtain ⟨v, means, there⟩ := said
      rw [there]
      exact .exported typed exported means
    | none =>
      rw [typed, exported] at said
      rw [show o.get? f = none from said, Option.getD_none]
      exact strongest_of_load scalars loads typed exported

/-- Layers in which everything can be read make a program serve. -/
theorem serve_of_wellFormed (of : l.Of arguments files environment) (wellFormed : l.WellFormed) :
    ∃ s filter said, launch arguments files environment = .serve s filter said := by
  obtain ⟨o, read⟩ := exists_options of.typed wellFormed.distinct wellFormed.typed
    wellFormed.exported
  have loads : ∃ loaded, ofEntry (performAll defaultEntries (l.ofFile ++ l.ofEnvironment)) =
      .ok loaded := by
    apply Field.exists_ofEntry_iff.mpr
    intro f
    cases last : last? f.key (l.ofFile ++ l.ofEnvironment) with
    | none =>
      rw [get?_performAll_of_none last]
      exact ⟨_, f.reading_default⟩
    | some a =>
      rw [get?_performAll_of_last last (wellFormed.scalars f a last)]
      exact wellFormed.read f a last
  obtain ⟨loaded, loads⟩ := loads
  rw [← load_of of] at loads
  rw [of.full] at read
  obtain ⟨filter, said, serves⟩ := exists_serve read loads
  exact ⟨_, filter, said, serves⟩

/-! ## Two readings of a variable -/

/-- What a text means on a command line is what it means in the environment, if it is read there. -/
theorem read_of_means {text : String} {origin : Option String} {v w : f.Value}
    (means : f.Means text v) (read : f.read (.scalar origin (.text text)) = .ok w) : w = v := by
  cases f with
  | host =>
    cases means
    exact (Except.ok.inj read).symm
  | port =>
    have named := asNat_of_names (.numeral (spells_of_port means)) (asPort_eq_ok_iff.mp read)
    exact UInt16.toNat_inj.mp (Int.ofNat_inj.mp named)
  | classpath =>
    cases means
    exact (Except.ok.inj read).symm
  | drainTimeout =>
    obtain ⟨m, reads, rfl⟩ := map_eq_ok_iff.mp read
    have named := asNat_of_names (.numeral (spells_of_word means)) reads
    rw [Int.ofNat_inj.mp named]
    exact UInt64.ofNat_toNat
  | corsEnabled => exact means.elim

/-! ## Settings do not depend on each other -/

/-- The variable is for the setting, or for a part of it. -/
def Concerns (f : Field) (v : Variable) : Prop := ∃ a ∈ ofVariable? v, a.key = f.key

instance decidableConcerns (f : Field) (v : Variable) : Decidable (Concerns f v) :=
  inferInstanceAs (Decidable (∃ a ∈ ofVariable? v, a.key = f.key))

/-- The layers say the same of a setting. -/
structure Agree (l l' : Layers) (f : Field) : Prop where
  given : l.given.filter (f.flag? = some ·.1) = l'.given.filter (f.flag? = some ·.1)
  environment : l.environment.filter (Concerns f ·) = l'.environment.filter (Concerns f ·)
  members : l.members.filter (fun m => (ofMember m).key = f.key) =
    l'.members.filter (fun m => (ofMember m).key = f.key)

/-- The layers say the same of all settings but one. -/
structure AgreeBut (l l' : Layers) (g : Field) : Prop where
  given : l.given.filter (¬ g.flag? = some ·.1) = l'.given.filter (¬ g.flag? = some ·.1)
  environment : l.environment.filter (¬ Concerns g ·) = l'.environment.filter (¬ Concerns g ·)
  members : l.members.filter (fun m => ¬ (ofMember m).key = g.key) =
    l'.members.filter (fun m => ¬ (ofMember m).key = g.key)

theorem find?_filter {α : Type} {p q : α → Prop} [DecidablePred p] [DecidablePred q]
    (wider : ∀ x, q x → p x) (xs : List α) : (xs.filter (p ·)).find? (q ·) = xs.find? (q ·) := by
  have same : (fun x => decide (decide (p x) = true ∧ decide (q x) = true)) = fun x => decide (q x)
      := by
    funext x
    by_cases here : q x
    · simp [here, wider x here]
    · simp [here]
  rw [List.find?_filter, same]

theorem filter_of_filter {α : Type} {p q : α → Prop} [DecidablePred p] [DecidablePred q]
    (narrower : ∀ x, p x → q x) {xs ys : List α} (same : xs.filter (q ·) = ys.filter (q ·)) :
    xs.filter (p ·) = ys.filter (p ·) := by
  have narrowed (zs : List α) : (zs.filter (q ·)).filter (p ·) = zs.filter (p ·) := by
    rw [List.filter_filter]
    apply List.filter_congr
    intro x _
    by_cases here : p x
    · simp [here, narrower x here]
    · simp [here]
  rw [← narrowed xs, same, narrowed]

variable {g : Field}

theorem AgreeBut.agree (same : l.AgreeBut l' g) (other : f ≠ g) : l.Agree l' f where
  given := by
    refine filter_of_filter ?_ same.given
    intro t here there
    exact other (Field.eq_of_flag? here there)
  environment := by
    refine filter_of_filter ?_ same.environment
    rintro v ⟨a, known, here⟩ ⟨a', known', there⟩
    rw [Option.mem_unique known known', there] at here
    exact other (Field.eq_of_key here.symm)
  members := by
    refine filter_of_filter ?_ same.members
    intro m here there
    exact other (Field.eq_of_key (here.symm.trans there))

theorem typed?_congr (agree : l.Agree l' f) : f.typed? l.given = f.typed? l'.given := by
  rw [Field.typed?, Field.typed?, ← List.head?_filter, ← List.head?_filter, agree.given]

/-- The variables that options go by are those of the settings. -/
theorem key?_of_variableName? {name : String} {h : Flag} (same : f.flag? = some h)
    (named : h.variableName? = some name) (value : String) :
    Variable.key? ⟨name, value⟩ = some f.key := by
  cases f with
  | corsEnabled => cases same
  | host | port | classpath | drainTimeout =>
    cases same
    cases named
    unfold Variable.key?
    dsimp only
    decide +kernel

theorem concerns_of_name {v : Variable} {name : String} {h : Flag} (same : f.flag? = some h)
    (named : h.variableName? = some name) (here : v.name = name) : Concerns f v := by
  obtain ⟨own, value⟩ := v
  obtain rfl : own = name := here
  have known : ofVariable? ⟨own, value⟩ =
      some ⟨.ofKey f.key, .scalar (some environmentOrigin) (.text value)⟩ := by
    rw [ofVariable?, key?_of_variableName? same named, Option.map_some]
  obtain ⟨whole, lower⟩ := f.ofKey_key
  refine ⟨_, known, ?_⟩
  rw [Assignment.key, whole]
  exact lower

/-- A variable that an option goes by sets the setting. -/
theorem last?_of_exported {text : String} (exported : f.exported? l.environment = some text) :
    last? f.key l.ofEnvironment ≠ none := by
  obtain ⟨h, same, exported⟩ := Option.bind_eq_some_iff.mp exported
  obtain ⟨name, named, found⟩ := Option.bind_eq_some_iff.mp exported
  obtain ⟨v, found, -⟩ := Option.map_eq_some_iff.mp found
  have own := List.find?_some found
  obtain ⟨a, known, here⟩ := concerns_of_name same named (of_decide_eq_true own)
  have there : a ∈ concerning f.key l.ofEnvironment :=
    List.mem_filter.mpr
      ⟨List.mem_filterMap.mpr ⟨v, List.mem_of_find?_eq_some found, known⟩, decide_eq_true here⟩
  intro none
  exact List.ne_nil_of_mem there (List.getLast?_eq_none_iff.mp none)

/-- The strongest layer gives one value. -/
theorem Strongest.unique {v w : f.Value} (strongest : l.Strongest f v)
    (strongest' : l.Strongest f w) : v = w := by
  have exports {text : String} (exported : f.exported? l.environment = some text) :=
    last?_of_exported exported
  cases strongest with
  | typed typed means =>
    cases strongest' with
    | typed typed' means' =>
      cases typed.symm.trans typed'
      exact means.unique means'
    | exported untyped | environment untyped | filed untyped | default untyped =>
      cases typed.symm.trans untyped
  | exported untyped exported means =>
    cases strongest' with
    | typed typed => cases typed.symm.trans untyped
    | exported _ exported' means' =>
      cases exported.symm.trans exported'
      exact means.unique means'
    | environment _ unexported => cases exported.symm.trans unexported
    | filed _ unset | default _ unset => exact absurd unset (exports exported)
  | environment untyped unexported last read =>
    cases strongest' with
    | typed typed => cases typed.symm.trans untyped
    | exported _ exported => cases exported.symm.trans unexported
    | environment _ _ last' read' =>
      cases last.symm.trans last'
      exact Except.ok.inj (read.symm.trans read')
    | filed _ unset | default _ unset => cases last.symm.trans unset
  | filed untyped unset last read =>
    cases strongest' with
    | typed typed => cases typed.symm.trans untyped
    | exported _ exported => exact absurd unset (exports exported)
    | environment _ _ last' => cases last'.symm.trans unset
    | filed _ _ last' read' =>
      cases last.symm.trans last'
      exact Except.ok.inj (read.symm.trans read')
    | default _ _ unfiled => cases last.symm.trans unfiled
  | default untyped unset unfiled =>
    cases strongest' with
    | typed typed => cases typed.symm.trans untyped
    | exported _ exported => exact absurd unset (exports exported)
    | environment _ _ last => cases last.symm.trans unset
    | filed _ _ last => cases last.symm.trans unfiled
    | default => rfl

theorem exported?_congr (agree : l.Agree l' f) :
    f.exported? l.environment = f.exported? l'.environment := by
  have narrowed (environment : List Variable) : f.exported? environment =
      f.exported? (environment.filter (Concerns f ·)) := by
    unfold Field.exported?
    cases same : f.flag? with
    | none => rfl
    | some h =>
      rw [Option.bind_some, Option.bind_some]
      unfold Flag.exported?
      cases named : h.variableName? with
      | none => rfl
      | some name =>
        rw [Option.bind_some, Option.bind_some, find?_filter]
        intro v here
        exact concerns_of_name same named here
  rw [narrowed, agree.environment, ← narrowed]

theorem concerning_ofEnvironment (l : Layers) (f : Field) :
    concerning f.key l.ofEnvironment =
      (l.environment.filter (Concerns f ·)).filterMap ofVariable? := by
  unfold concerning ofEnvironment
  rw [List.filter_filterMap, List.filterMap_filter]
  apply List.filterMap_congr
  intro v _
  by_cases concerns : Concerns f v
  · obtain ⟨a, known, here⟩ := concerns
    have concerns : Concerns f v := ⟨a, known, here⟩
    rw [Option.mem_def.mp known, if_pos (decide_eq_true concerns)]
    exact Option.filter_some_pos (decide_eq_true here)
  · rw [if_neg fun there => concerns (of_decide_eq_true there)]
    apply Option.filter_eq_none_iff.mpr
    intro a known here
    exact concerns ⟨a, known, of_decide_eq_true here⟩

theorem concerning_ofFile (l : Layers) (f : Field) :
    concerning f.key l.ofFile =
      (l.members.filter (fun m => (ofMember m).key = f.key)).map ofMember := by
  unfold concerning ofFile
  rw [List.filter_map, Function.comp_def]

theorem concerning_congr (agree : l.Agree l' f) :
    concerning f.key (l.ofFile ++ l.ofEnvironment) =
      concerning f.key (l'.ofFile ++ l'.ofEnvironment) := by
  have split (l : Layers) : concerning f.key (l.ofFile ++ l.ofEnvironment) =
      concerning f.key l.ofFile ++ concerning f.key l.ofEnvironment := List.filter_append ..
  rw [split, split, concerning_ofFile, concerning_ofFile, concerning_ofEnvironment,
    concerning_ofEnvironment, agree.members, agree.environment]

/-- A setting is the same wherever the layers say the same of it. -/
theorem of_congr {arguments' : List String} {files' : List File} {environment' : List Variable}
    {filter' : LogFilter} {said' : String} {s' : Settings} (agree : l.Agree l' f)
    (of : l.Of arguments files environment) (of' : l'.Of arguments' files' environment')
    (serves : launch arguments files environment = .serve s filter said)
    (serves' : launch arguments' files' environment' = .serve s' filter' said') :
    f.of s = f.of s' := by
  obtain ⟨o, loaded, read, loads, rfl⟩ := exists_of_serve serves
  obtain ⟨o', loaded', read', loads', rfl⟩ := exists_of_serve serves'
  rw [← of.full] at read
  rw [← of'.full] at read'
  have said := said_of_options of.typed read f
  have said' := said_of_options of'.typed read' f
  rw [typed?_congr agree, exported?_congr agree] at said
  rw [load_of of] at loads
  rw [load_of of'] at loads'
  have reading := Field.ofEntry_eq_ok_iff.mp loads f
  have reading' := Field.ofEntry_eq_ok_iff.mp loads' f
  rw [get?_performAll_congr (concerning_congr agree), reading'] at reading
  rw [Options.of_apply, Options.of_apply, said.unique said', Except.ok.inj reading]

/-- The layers of a program that serves can be read. -/
theorem exists_of (serves : launch arguments files environment = .serve s filter said) :
    ∃ l : Layers, l.Of arguments files environment := by
  obtain ⟨o, loaded, read, loads, rfl⟩ := exists_of_serve serves
  obtain ⟨given, typed⟩ := typed_of_options read
  rw [load_eq] at loads
  obtain ⟨members, filed, -⟩ := bind_eq_ok_iff.mp loads
  exact ⟨⟨given, fullEnvironment files environment, members⟩, typed, rfl, filed⟩

/-- Each setting comes from the strongest layer that says something of it, whether a program serves
or all that the layers say can be read. The two readings of a variable are one, and a setting does
not change with what the layers say of another. -/
theorem strongest_layer_decides :
    (∀ arguments files environment s filter said,
      launch arguments files environment = .serve s filter said →
      (∃ l : Layers, l.Of arguments files environment) ∧
        ∀ l : Layers, l.Of arguments files environment → l.Scalars →
          ∀ f : Field, l.Strongest f (f.of s)) ∧
    (∀ (l : Layers) arguments files environment, l.Of arguments files environment →
      l.WellFormed → ∃ s filter said,
        launch arguments files environment = .serve s filter said ∧
          ∀ f : Field, l.Strongest f (f.of s)) ∧
    (∀ (l : Layers) (f : Field) (v w : f.Value), l.Strongest f v → l.Strongest f w → v = w) ∧
    (∀ (f : Field) text origin (v w : f.Value), f.Means text v →
      f.read (.scalar origin (.text text)) = .ok w → w = v) ∧
    (∀ (l l' : Layers) arguments arguments' files files' environment environment' s s' filter
      filter' said said' (g : Field), l.Of arguments files environment →
      l'.Of arguments' files' environment' → l.AgreeBut l' g →
      launch arguments files environment = .serve s filter said →
      launch arguments' files' environment' = .serve s' filter' said' →
      ∀ f : Field, f ≠ g → f.of s = f.of s') := by
  refine ⟨?_, ?_, ?_, ?_, ?_⟩
  · intro arguments files environment s filter said serves
    refine ⟨exists_of serves, ?_⟩
    intro l of scalars
    exact strongest_of_serve of scalars serves
  · intro l arguments files environment of wellFormed
    obtain ⟨s, filter, said, serves⟩ := serve_of_wellFormed of wellFormed
    exact ⟨s, filter, said, serves, strongest_of_serve of wellFormed.scalars serves⟩
  · intro l f v w strongest strongest'
    exact strongest.unique strongest'
  · intro f text origin v w means read
    exact read_of_means means read
  · intro l l' arguments arguments' files files' environment environment' s s' filter filter' said
      said' g of of' same serves serves' f other
    exact of_congr (same.agree other) of of' serves serves'

/-- A host that is typed, a port in a file, and two variables. -/
def sample (host : String) : Layers where
  given := [(.host, host)]
  environment := [⟨"DEVSERVE_DRAIN_TIMEOUT_MS", "7"⟩, ⟨"DEVSERVE_CORS_ENABLED", "off"⟩]
  members := [("port", .scalar (some "devserve.yaml") (.int 1))]

def sampleFiles : List File := [⟨"devserve.yaml", Bytes.ofText (Measure.port.object 1)⟩]

theorem of_sample (host : String) :
    (sample host).Of ["--host=" ++ host] sampleFiles (sample host).environment where
  typed := by
    have written : ("--host=" ++ host).toList =
        '-' :: '-' :: (Flag.host.long.toList ++ '=' :: host.toList) := String.toList_append
    have mentions : Mentions ("--host=" ++ host).toList .host (some host) := by
      have mentions := Mentions.longValue (f := .host) host.toList
      rwa [String.ofList_toList, ← written] at mentions
    exact .attached (by rintro ⟨⟩) mentions .nil
  full := rfl
  filed := by
    have plain : Yaml.plain (toString (1 : Int)).toList = .ok (.int 1) := by decide +kernel
    have parsed := Yaml.read_object .port (some "devserve.yaml") 1
    rw [plain] at parsed
    have found : findFile sampleFiles =
      some (⟨"devserve.yaml", Bytes.ofText (Measure.port.object 1)⟩, Yaml.read) := rfl
    rw [fileMembers, found]
    dsimp only
    rw [readFile, Json.text?_ofText]
    dsimp only
    rw [parsed]
    rfl

theorem means_seven : Field.drainTimeout.Means "7" (7 : UInt64) := by
  change word "7" = .ok 7
  decide +kernel

theorem wellFormed_sample (host : String) : (sample host).WellFormed where
  distinct := by simp [sample]
  typed := by
    intro t there f same
    cases List.mem_singleton.mp there
    cases f with
    | host => exact ⟨_, rfl⟩
    | port | classpath | drainTimeout | corsEnabled => cases same
  exported := by
    intro f text exported
    cases f with
    | drainTimeout =>
      cases exported
      exact ⟨_, means_seven⟩
    | host | port | classpath | corsEnabled => cases exported
  scalars := by
    intro f a last
    cases f with
    | port | drainTimeout | corsEnabled =>
      cases last
      exact ⟨rfl, _, _, rfl⟩
    | host | classpath => cases last
  read := by
    intro f a last
    cases f with
    | port | drainTimeout | corsEnabled =>
      cases last
      exact ⟨_, rfl⟩
    | host | classpath => cases last

/-- Each layer decides a setting, and another host leaves the others as they are. -/
theorem four_layers_decide : ∃ s filter said s' filter' said',
    launch ["--host=localhost"] sampleFiles (sample "localhost").environment =
        .serve s filter said ∧
      s = ⟨"localhost", 1, none, 7, false⟩ ∧
      Field.drainTimeout.read (.scalar (some environmentOrigin) (.text "7")) =
        .ok (7 : UInt64) ∧
      launch ["--host=::1"] sampleFiles (sample "::1").environment = .serve s' filter' said' ∧
      ∀ f : Field, f ≠ .host → f.of s = f.of s' := by
  obtain ⟨decides, starts, unique, agrees, apart⟩ := strongest_layer_decides
  have wellFormed := wellFormed_sample "localhost"
  obtain ⟨s, filter, said, serves, -⟩ := starts _ _ _ _ (of_sample "localhost") wellFormed
  obtain ⟨s', filter', said', serves', -⟩ :=
    starts _ _ _ _ (of_sample "::1") (wellFormed_sample "::1")
  refine ⟨s, filter, said, s', filter', said', serves, Field.ext ?_, ?_, serves', ?_⟩
  · intro f
    have strongest := (decides _ _ _ _ _ _ serves).2 _ (of_sample "localhost") wellFormed.scalars f
    refine unique _ f _ _ strongest ?_
    cases f with
    | host => exact .typed rfl rfl
    | port => exact .filed rfl rfl rfl rfl
    | classpath => exact .default rfl rfl rfl
    | drainTimeout => exact .exported rfl rfl means_seven
    | corsEnabled => exact .environment rfl rfl rfl rfl
  · obtain ⟨w, read⟩ := wellFormed.read .drainTimeout _ rfl
    rw [← agrees .drainTimeout "7" (some environmentOrigin) (7 : UInt64) w means_seven read]
    exact read
  · exact apart _ _ _ _ _ _ _ _ _ _ _ _ _ _ .host (of_sample "localhost") (of_sample "::1")
      ⟨rfl, rfl, rfl⟩ serves serves'

end Layers

end HotSwap

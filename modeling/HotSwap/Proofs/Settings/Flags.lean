import HotSwap.Proofs.Settings.Arguments
import HotSwap.Proofs.Settings.Fields

/-!
# Options for settings

Every setting but one has an option. What an option says is the text that was typed behind it, or
else that of the variable with its name, and it is there only if that text can be read.
-/

namespace HotSwap

open CommandLine

/-- The text of the variable that an option goes by. -/
def CommandLine.Flag.exported? (environment : List Settings.Variable) (g : Flag) : Option String :=
  g.variableName?.bind fun name => (environment.find? (·.name = name)).map (·.value)

namespace Settings.Field

/-- The option for a setting. -/
def flag? : Field → Option Flag
  | host => some .host
  | port => some .port
  | classpath => some .classpath
  | drainTimeout => some .drainTimeout
  | corsEnabled => none

/-- What a text means behind the option for a setting. -/
def Means : (f : Field) → String → f.Value → Prop
  | host, text, value => value = text
  | port, text, value => CommandLine.port text = .ok value
  | classpath, text, value => value = some text
  | drainTimeout, text, value => word text = .ok value
  | corsEnabled, _, _ => False

theorem Means.unique {f : Field} {text : String} {v w : f.Value} (means : f.Means text v)
    (means' : f.Means text w) : v = w := by
  cases f with
  | host | classpath => exact means.trans means'.symm
  | port | drainTimeout => exact Except.ok.inj (means.symm.trans means')
  | corsEnabled => exact means.elim

/-- No two settings have one option. -/
theorem eq_of_flag? {f g : Field} {h : Flag} (same : f.flag? = some h) (same' : g.flag? = some h) :
    f = g := by
  cases f with
  | corsEnabled => cases same
  | host | port | classpath | drainTimeout =>
    cases same
    cases g with
    | corsEnabled => cases same'
    | host | port | classpath | drainTimeout =>
      first
      | rfl
      | cases same'

/-- The text that is typed for a setting. -/
def typed? (f : Field) (given : List (Flag × String)) : Option String :=
  (given.find? fun t => f.flag? = some t.1).map (·.2)

/-- The text of the variable that the option for a setting goes by. -/
def exported? (f : Field) (environment : List Variable) : Option String :=
  f.flag?.bind (·.exported? environment)

end Settings.Field

namespace CommandLine

open Settings

/-- What an option says, if it is there. -/
def Options.get? (o : Options) : (f : Field) → Option f.Value
  | .host => o.host
  | .port => o.port
  | .classpath => o.classpath.map some
  | .drainTimeout => o.drainTimeoutMs
  | .corsEnabled => .none

variable {o o' : Options} {f : Field} {g : Flag} {text : String} {p q : Progress}
  {given : List (Flag × String)} {environment : List Variable} {flags : List Flag}

/-- Options take the place of settings one by one. -/
theorem Options.of_apply (o : Options) (s : Settings) (f : Field) :
    f.of (o.apply s) = (o.get? f).getD (f.of s) := by
  cases f with
  | host => rfl
  | port => rfl
  | classpath =>
    change o.classpath.orElse (fun _ => s.classpath) = (o.classpath.map some).getD s.classpath
    cases o.classpath with
    | none => rfl
    | some c => rfl
  | drainTimeout => rfl
  | corsEnabled => rfl

/-- The option is what the text means, and is not there without a text. -/
def Options.Says (o : Options) (f : Field) (text? : Option String) : Prop :=
  match text? with
  | some text => ∃ v, f.Means text v ∧ o.get? f = some v
  | .none => o.get? f = .none

theorem Options.Says.unique {text? : Option String} (said : o.Says f text?)
    (said' : o'.Says f text?) : o.get? f = o'.get? f := by
  cases text? with
  | none => exact said.trans said'.symm
  | some text =>
    obtain ⟨v, means, there⟩ := said
    obtain ⟨w, means', there'⟩ := said'
    rw [there, there', means.unique means']

theorem Options.said_put (done : o.put g text = .ok o') (same : f.flag? = some g) :
    o'.Says f (some text) := by
  cases f with
  | host | classpath =>
    cases same
    cases done
    exact ⟨_, rfl, rfl⟩
  | port | drainTimeout =>
    cases same
    obtain ⟨v, read, ends⟩ := bind_eq_ok_iff.mp done
    cases ends
    exact ⟨v, read, rfl⟩
  | corsEnabled => cases same

/-- An option leaves the others as they are. -/
theorem Options.get?_put (done : o.put g text = .ok o') (other : f.flag? ≠ some g) :
    o'.get? f = o.get? f := by
  cases g with
  | host | classpath | logLevel | help | version =>
    cases done
    cases f with
    | host | port | classpath | drainTimeout | corsEnabled =>
      first
      | rfl
      | exact absurd rfl other
  | port | drainTimeout =>
    obtain ⟨v, read, ends⟩ := bind_eq_ok_iff.mp done
    cases ends
    cases f with
    | host | port | classpath | drainTimeout | corsEnabled =>
      first
      | rfl
      | exact absurd rfl other

/-- A text that means something is taken. -/
theorem Options.exists_put (o : Options)
    (means : ∀ f : Field, f.flag? = some g → ∃ v, f.Means text v) :
    ∃ o', o.put g text = .ok o' := by
  cases g with
  | host | classpath | logLevel | help | version => exact ⟨_, rfl⟩
  | port =>
    obtain ⟨v, read⟩ := means .port rfl
    exact ⟨_, bind_eq_ok_iff.mpr ⟨v, read, rfl⟩⟩
  | drainTimeout =>
    obtain ⟨v, read⟩ := means .drainTimeout rfl
    exact ⟨_, bind_eq_ok_iff.mpr ⟨v, read, rfl⟩⟩

namespace Progress

theorem take_eq_ok_iff : p.take g text = .ok q ↔
    g ∉ p.given ∧ ∃ o, p.options.put g text = .ok o ∧ q = ⟨o, p.given ++ [g], none⟩ := by
  unfold take
  by_cases repeated : g ∈ p.given
  · rw [if_pos repeated]
    constructor
    · rintro ⟨⟩
    · rintro ⟨fresh, -⟩
      exact absurd repeated fresh
  · rw [if_neg repeated]
    cases done : p.options.put g text with
    | error fault =>
      constructor
      · rintro ⟨⟩
      · rintro ⟨-, o, ⟨⟩, -⟩
    | ok o =>
      constructor
      · rintro ⟨⟩
        exact ⟨repeated, o, rfl, rfl⟩
      · rintro ⟨-, _, ⟨⟩, rfl⟩
        rfl

theorem takeAll_concat_iff : p.takeAll (given ++ [(g, text)]) = .ok q ↔
    ∃ r, p.takeAll given = .ok r ∧ r.take g text = .ok q := by
  rw [takeAll, List.foldlM_append, bind_eq_ok_iff]
  simp only [List.foldlM_cons, List.foldlM_nil, bind_pure]
  rfl

theorem given_of_takeAll (taken : start.takeAll given = .ok q) : q.given = given.map (·.1) := by
  induction given using List.reverseRecOn generalizing q with
  | nil =>
    cases taken
    rfl
  | append_singleton before last inductionHypothesis =>
    obtain ⟨r, first, taken⟩ := takeAll_concat_iff.mp taken
    obtain ⟨-, o, -, rfl⟩ := take_eq_ok_iff.mp taken
    rw [List.map_append, ← inductionHypothesis first]
    rfl

/-- After all arguments every option says what was typed for it. -/
theorem said_of_takeAll (taken : start.takeAll given = .ok q) (f : Field) :
    q.options.Says f (f.typed? given) := by
  induction given using List.reverseRecOn generalizing q with
  | nil =>
    cases taken
    cases f with
    | host | port | classpath | drainTimeout | corsEnabled => rfl
  | append_singleton before last inductionHypothesis =>
    obtain ⟨r, first, taken⟩ := takeAll_concat_iff.mp taken
    obtain ⟨fresh, o, done, rfl⟩ := take_eq_ok_iff.mp taken
    rw [given_of_takeAll first] at fresh
    have earlier := inductionHypothesis first
    by_cases same : f.flag? = some last.1
    · have absent : before.find? (fun t => f.flag? = some t.1) = none := by
        apply List.find?_eq_none.mpr
        intro t there again
        have again : f.flag? = some t.1 := of_decide_eq_true again
        apply fresh
        rw [← Option.some.inj (again.symm.trans same)]
        exact List.mem_map_of_mem there
      have typed : f.typed? (before ++ [last]) = some last.2 := by
        rw [Field.typed?, List.find?_append, absent, Option.none_or, List.find?_cons_of_pos]
        · rfl
        · exact decide_eq_true same
      rw [typed]
      exact Options.said_put done same
    · have typed : f.typed? (before ++ [last]) = f.typed? before := by
        rw [Field.typed?, List.find?_append, List.find?_cons_of_neg]
        · rw [List.find?_nil, Option.or_none]
          rfl
        · simpa using same
      rw [typed]
      unfold Options.Says
      rw [Options.get?_put done same]
      exact earlier

/-- Values are taken if they mean something and no option is given twice. -/
theorem exists_takeAll (distinct : (given.map (·.1)).Nodup)
    (means : ∀ t ∈ given, ∀ f : Field, f.flag? = some t.1 → ∃ v, f.Means t.2 v) :
    ∃ q, start.takeAll given = .ok q := by
  induction given using List.reverseRecOn with
  | nil => exact ⟨start, rfl⟩
  | append_singleton before last inductionHypothesis =>
    rw [List.map_append, List.nodup_append] at distinct
    obtain ⟨distinct, -, apart⟩ := distinct
    obtain ⟨earlier, here⟩ := List.forall_mem_append.mp means
    obtain ⟨r, first⟩ := inductionHypothesis distinct earlier
    have fresh : last.1 ∉ r.given := by
      rw [given_of_takeAll first]
      intro there
      exact apart _ there _ List.mem_cons_self rfl
    obtain ⟨o, done⟩ := r.options.exists_put (here last List.mem_cons_self)
    exact ⟨_, takeAll_concat_iff.mpr ⟨r, first, take_eq_ok_iff.mpr ⟨fresh, o, done, rfl⟩⟩⟩

/-! ## Variables -/

/-- A variable only counts for an option that was not typed. -/
theorem fill_eq (environment : List Variable) (p : Progress) (g : Flag) :
    p.fill environment g =
      if g ∈ p.given then .ok p else ((g.exported? environment).map (p.take g)).getD (.ok p) := by
  have exported : g.exported? environment =
      (g.variableName?.bind fun name => environment.find? (·.name = name)).map (·.value) := by
    rw [Flag.exported?, Option.map_bind]
    rfl
  rw [exported]
  unfold fill
  generalize (g.variableName?.bind fun name => environment.find? (·.name = name)) = found
  cases found with
  | none =>
    by_cases typed : g ∈ p.given
    · rw [if_pos typed]
    · rw [if_neg typed]
      rfl
  | some v => rfl

/-- An option that is typed, or whose variable is not there, stays as it is. -/
theorem fill_cases (filled : p.fill environment g = .ok q) :
    (q = p ∧ (g ∈ p.given ∨ g.exported? environment = none)) ∨
      g ∉ p.given ∧ ∃ text, g.exported? environment = some text ∧ p.take g text = .ok q := by
  rw [fill_eq] at filled
  by_cases typed : g ∈ p.given
  · rw [if_pos typed] at filled
    cases filled
    exact .inl ⟨rfl, .inl typed⟩
  · rw [if_neg typed] at filled
    cases known : g.exported? environment with
    | none =>
      rw [known] at filled
      cases filled
      exact .inl ⟨rfl, .inr rfl⟩
    | some text =>
      rw [known] at filled
      exact .inr ⟨typed, text, rfl, filled⟩

variable {g' : Flag}

theorem fill_other (other : g' ≠ g) (same : f.flag? = some g)
    (filled : p.fill environment g' = .ok q) :
    q.options.get? f = p.options.get? f ∧ (g ∈ q.given ↔ g ∈ p.given) := by
  rcases fill_cases filled with ⟨rfl, -⟩ | ⟨-, text, -, taken⟩
  · exact ⟨rfl, .rfl⟩
  · obtain ⟨-, o, done, rfl⟩ := take_eq_ok_iff.mp taken
    constructor
    · apply Options.get?_put done
      rw [same]
      intro again
      exact other (Option.some.inj again).symm
    · simp [other.symm]

theorem fillAll_other (absent : g ∉ flags) (same : f.flag? = some g)
    (filled : flags.foldlM (fill environment) p = .ok q) :
    q.options.get? f = p.options.get? f ∧ (g ∈ q.given ↔ g ∈ p.given) := by
  induction flags generalizing p with
  | nil =>
    cases filled
    exact ⟨rfl, .rfl⟩
  | cons first rest inductionHypothesis =>
    rw [List.foldlM_cons] at filled
    obtain ⟨r, here, later⟩ := bind_eq_ok_iff.mp filled
    obtain ⟨other, absent⟩ := List.ne_and_not_mem_of_not_mem_cons absent
    obtain ⟨kept, given⟩ := fill_other other.symm same here
    obtain ⟨kept', given'⟩ := inductionHypothesis absent later
    exact ⟨kept'.trans kept, given'.trans given⟩

/-- Each option is filled in once. -/
theorem fillAll_own (distinct : flags.Nodup) (there : g ∈ flags) (same : f.flag? = some g)
    (filled : flags.foldlM (fill environment) p = .ok q) :
    q.options.get? f = p.options.get? f ∧ (g ∈ p.given ∨ g.exported? environment = none) ∨
      g ∉ p.given ∧ ∃ text, g.exported? environment = some text ∧
        q.options.Says f (some text) := by
  obtain ⟨before, after, rfl⟩ := List.append_of_mem there
  rw [List.nodup_append, List.nodup_cons] at distinct
  obtain ⟨-, ⟨absent, -⟩, apart⟩ := distinct
  have absent' : g ∉ before := fun there => apart g there g List.mem_cons_self rfl
  rw [List.foldlM_append] at filled
  obtain ⟨r, earlier, filled⟩ := bind_eq_ok_iff.mp filled
  rw [List.foldlM_cons] at filled
  obtain ⟨r', here, later⟩ := bind_eq_ok_iff.mp filled
  obtain ⟨kept, given⟩ := fillAll_other absent' same earlier
  obtain ⟨kept', -⟩ := fillAll_other absent same later
  rcases fill_cases here with ⟨rfl, typed⟩ | ⟨untyped, text, exported, taken⟩
  · exact .inl ⟨kept'.trans kept, typed.imp_left given.mp⟩
  · obtain ⟨-, o, done, rfl⟩ := take_eq_ok_iff.mp taken
    obtain ⟨v, means, said⟩ := Options.said_put done same
    exact .inr ⟨fun typed => untyped (given.mpr typed), text, exported, v, means,
      kept'.trans said⟩

/-- Options are filled in if the texts of the variables mean something. -/
theorem exists_fillAll (means : ∀ g ∈ flags, ∀ text, g.exported? environment = some text →
      ∀ f : Field, f.flag? = some g → ∃ v, f.Means text v) (p : Progress) :
    ∃ q, flags.foldlM (fill environment) p = .ok q := by
  induction flags generalizing p with
  | nil => exact ⟨p, rfl⟩
  | cons first rest inductionHypothesis =>
    obtain ⟨here, later⟩ := List.forall_mem_cons.mp means
    have filled : ∃ r, p.fill environment first = .ok r := by
      rw [fill_eq]
      by_cases typed : first ∈ p.given
      · exact ⟨p, if_pos typed⟩
      · rw [if_neg typed]
        cases exported : first.exported? environment with
        | none => exact ⟨p, rfl⟩
        | some text =>
          obtain ⟨o, done⟩ := p.options.exists_put (here text exported)
          exact ⟨_, take_eq_ok_iff.mpr ⟨typed, o, done, rfl⟩⟩
    obtain ⟨r, filled⟩ := filled
    obtain ⟨q, rest⟩ := inductionHypothesis later r
    refine ⟨q, ?_⟩
    rw [List.foldlM_cons]
    exact bind_eq_ok_iff.mpr ⟨r, filled, rest⟩

end Progress

/-! ## Options -/

variable {arguments : List String}

theorem typed?_eq_none_iff (same : f.flag? = some g) :
    f.typed? given = none ↔ g ∉ given.map (·.1) := by
  rw [Field.typed?, Option.map_eq_none_iff, List.find?_eq_none]
  constructor
  · intro absent there
    obtain ⟨t, member, rfl⟩ := List.mem_map.mp there
    exact absent t member (decide_eq_true same)
  · intro absent t there again
    have again := of_decide_eq_true again
    apply absent
    rw [Option.some.inj (same.symm.trans again)]
    exact List.mem_map_of_mem there

theorem mem_all (g : Flag) : g ∈ Flag.all := by
  cases g with
  | host | port | classpath | drainTimeout | logLevel | help | version => decide

/-- An option says what was typed, or else what its variable says. -/
theorem said_of_options (typed : Typed arguments given)
    (read : options arguments environment = .ok o) (f : Field) :
    o.Says f ((f.typed? given).or (f.exported? environment)) := by
  obtain ⟨p, taken, read⟩ := bind_eq_ok_iff.mp read
  obtain ⟨q, filled, ends⟩ := bind_eq_ok_iff.mp read
  cases ends
  rw [Progress.arguments_of_typed typed] at taken
  have taken : Progress.start.takeAll given = .ok p := taken
  have earlier := Progress.said_of_takeAll taken f
  cases same : f.flag? with
  | none =>
    cases f with
    | host | port | classpath | drainTimeout => cases same
    | corsEnabled =>
      have untyped : Field.corsEnabled.typed? given = none := by
        rw [Field.typed?, Option.map_eq_none_iff, List.find?_eq_none]
        rintro t - ⟨⟩
      rw [untyped]
      rfl
  | some g =>
    have exports : f.exported? environment = g.exported? environment := by
      rw [Field.exported?, same, Option.bind_some]
    have names := Progress.given_of_takeAll taken
    rcases Progress.fillAll_own (by decide) (mem_all g) same filled with
      ⟨kept, settled⟩ | ⟨untyped, text, exported, said⟩
    · have same' : (f.typed? given).or (f.exported? environment) = f.typed? given := by
        rcases settled with typed | unset
        · rw [names] at typed
          cases known : f.typed? given with
          | none => exact absurd typed ((typed?_eq_none_iff same).mp known)
          | some text => rfl
        · rw [exports, unset, Option.or_none]
      rw [same']
      unfold Options.Says
      rw [kept]
      exact earlier
    · rw [names] at untyped
      rw [(typed?_eq_none_iff same).mpr untyped, exports, exported]
      exact said

theorem exists_options (typed : Typed arguments given) (distinct : (given.map (·.1)).Nodup)
    (means : ∀ t ∈ given, ∀ f : Field, f.flag? = some t.1 → ∃ v, f.Means t.2 v)
    (means' : ∀ (f : Field) text, f.exported? environment = some text → ∃ v, f.Means text v) :
    ∃ o, options arguments environment = .ok o := by
  obtain ⟨p, taken⟩ := Progress.exists_takeAll distinct means
  have read : Progress.start.arguments arguments = .ok p :=
    Progress.start_arguments_iff.mpr ⟨given, typed, taken⟩
  have filled : ∃ q, Flag.all.foldlM (Progress.fill environment) p = .ok q := by
    apply Progress.exists_fillAll
    intro g _ text exported f same
    apply means' f text
    rw [Field.exported?, same, Option.bind_some]
    exact exported
  obtain ⟨q, filled⟩ := filled
  exact ⟨q.options, bind_eq_ok_iff.mpr ⟨p, read, bind_eq_ok_iff.mpr ⟨q, filled, rfl⟩⟩⟩

/-- Options that are read were typed, and none twice. -/
theorem typed_of_options (read : options arguments environment = .ok o) :
    ∃ given, Typed arguments given := by
  obtain ⟨p, read, -⟩ := bind_eq_ok_iff.mp read
  obtain ⟨given, typed, -⟩ := Progress.start_arguments_iff.mp read
  exact ⟨given, typed⟩

end CommandLine

end HotSwap

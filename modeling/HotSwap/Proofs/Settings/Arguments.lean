import HotSwap.CommandLine.Launch
import HotSwap.Proofs.Settings.Merging
import Mathlib.Data.List.TakeWhile

/-!
# Arguments as they are typed

The arguments of a program are options, each with a value in the same argument or in the next one.
If arguments are read at all they are typed so, and what is read is each value in turn.
-/

namespace HotSwap.CommandLine

/-- An option that has a value. -/
def Flag.Valued (f : Flag) : Prop := f.placeholder? ≠ none

/-- An argument names an option, and gives its value or leaves it to the next argument. -/
inductive Mentions : List Char → Flag → Option String → Prop
  | long {f : Flag} : Mentions ('-' :: '-' :: f.long.toList) f none
  | longValue {f : Flag} (value : List Char) :
      Mentions ('-' :: '-' :: (f.long.toList ++ '=' :: value)) f (some (String.ofList value))
  | letter {f : Flag} {c : Char} (known : f.letter? = some c) : Mentions ['-', c] f none
  | letterEquals {f : Flag} {c : Char} (known : f.letter? = some c) (value : List Char) :
      Mentions ('-' :: c :: '=' :: value) f (some (String.ofList value))
  | letterValue {f : Flag} {c d : Char} (known : f.letter? = some c) (other : d ≠ '=')
      (value : List Char) : Mentions ('-' :: c :: d :: value) f (some (String.ofList (d :: value)))

/-- An argument that cannot be an option. -/
def Plain (s : String) : Prop := ∀ c rest, s.toList ≠ '-' :: c :: rest

/-- The arguments give these values to these options, in this order. -/
inductive Typed : List String → List (Flag × String) → Prop
  | nil : Typed [] []
  | dashes : Typed ["--"] []
  | attached {s value : String} {f : Flag} {rest : List String} {given : List (Flag × String)}
      (valued : f.Valued) (mentions : Mentions s.toList f (some value)) (later : Typed rest given) :
      Typed (s :: rest) ((f, value) :: given)
  | separate {s value : String} {f : Flag} {rest : List String} {given : List (Flag × String)}
      (valued : f.Valued) (mentions : Mentions s.toList f none) (plain : Plain value)
      (later : Typed rest given) : Typed (s :: value :: rest) ((f, value) :: given)

variable {f : Flag} {s value : String} {attached : Option String} {p q : Progress}
  {arguments : List String} {given : List (Flag × String)} {c : Char} {text : List Char}

namespace Flag

theorem ofLong?_long (f : Flag) : ofLong? f.long = some f := by
  cases f with
  | host | port | classpath | drainTimeout | logLevel | help | version => rfl

theorem long_of_ofLong? (known : ofLong? s = some f) : f.long = s :=
  of_decide_eq_true (List.find?_some (p := fun f : Flag => decide (f.long = s)) known)

theorem letter?_of_ofLetter? (known : ofLetter? c = some f) : f.letter? = some c :=
  of_decide_eq_true (List.find?_some (p := fun f : Flag => decide (f.letter? = some c)) known)

/-- No two options have one letter, and no letter is a dash. -/
theorem ofLetter?_letter (known : f.letter? = some c) : ofLetter? c = some f ∧ c ≠ '-' := by
  cases f with
  | port | help | version =>
    cases known
    decide
  | host | classpath | drainTimeout | logLevel => cases known

theorem long_no_equals (f : Flag) : ∀ c ∈ f.long.toList, decide (c ≠ '=') = true := by
  apply List.all_eq_true.mp
  cases f with
  | host | port | classpath | drainTimeout | logLevel | help | version => decide

end Flag

namespace Progress

theorem option_valued (p : Progress) (valued : f.Valued) (attached : Option String) :
    p.option f attached = p.close >>= fun q =>
      match attached with
      | some value => q.take f value
      | none => .ok { q with open? := some (f, none) } := by
  cases f with
  | help | version => exact absurd rfl valued
  | host | port | classpath | drainTimeout | logLevel =>
    cases attached with
    | none => rfl
    | some value => rfl

/-- An option without a value ends the program. -/
theorem valued_of_option (read : p.option f attached = .ok q) : f.Valued := by
  cases f with
  | host | port | classpath | drainTimeout | logLevel =>
    intro none
    cases none
  | help | version =>
    cases attached with
    | some value => cases read
    | none =>
      obtain ⟨_, -, ends⟩ := bind_eq_ok_iff.mp read
      cases ends

theorem argument_long (p : Progress) (dashes : s.toList = '-' :: '-' :: text) :
    p.argument s = p.long text := by
  unfold argument
  rw [dashes]
  rfl

theorem argument_short (p : Progress) (dash : s.toList = '-' :: c :: text) (other : c ≠ '-') :
    p.argument s = p.short c text := by
  unfold argument
  rw [dash]
  split
  · next same =>
    cases same
    exact absurd rfl other
  · next same =>
    cases same
    rfl
  · next short => exact absurd rfl (short c text)

theorem argument_plain (p : Progress) (plain : Plain s) : p.argument s = p.plain s := by
  unfold argument
  split
  · next dashes => exact absurd dashes (plain _ _)
  · next dash => exact absurd dash (plain _ _)
  · rfl

theorem long_name (p : Progress) (f : Flag) : p.long f.long.toList = p.option f none := by
  have whole := f.long_no_equals
  have name : f.long.toList.takeWhile (· ≠ '=') = f.long.toList :=
    List.takeWhile_eq_self_iff.mpr whole
  have behind : f.long.toList.dropWhile (· ≠ '=') = [] := List.dropWhile_eq_nil_iff.mpr whole
  unfold long
  rw [name, behind, String.ofList_toList]
  dsimp only
  rw [f.ofLong?_long]

/-- The name of an option ends at the equals sign. -/
theorem long_value (p : Progress) (f : Flag) (value : List Char) :
    p.long (f.long.toList ++ '=' :: value) = p.option f (some (String.ofList value)) := by
  have whole := f.long_no_equals
  have name : (f.long.toList ++ '=' :: value).takeWhile (· ≠ '=') = f.long.toList :=
    (List.takeWhile_append_of_pos whole).trans (List.append_nil _)
  have behind : (f.long.toList ++ '=' :: value).dropWhile (· ≠ '=') = '=' :: value :=
    List.dropWhile_append_of_pos whole
  unfold long
  rw [name, behind, String.ofList_toList]
  dsimp only
  rw [f.ofLong?_long]

theorem argument_of_mentions (valued : f.Valued) (mentions : Mentions s.toList f attached)
    (p : Progress) : p.argument s = p.option f attached := by
  generalize split : s.toList = cs at mentions
  cases mentions with
  | long => exact (p.argument_long split).trans (p.long_name f)
  | longValue value => exact (p.argument_long split).trans (p.long_value f value)
  | letter known =>
    obtain ⟨letter, other⟩ := Flag.ofLetter?_letter known
    rw [p.argument_short split other, short, letter]
    exact if_neg valued
  | letterEquals known value =>
    obtain ⟨letter, other⟩ := Flag.ofLetter?_letter known
    rw [p.argument_short split other, short, letter]
    exact if_neg valued
  | letterValue known equals value =>
    obtain ⟨letter, other⟩ := Flag.ofLetter?_letter known
    rw [p.argument_short split other]
    unfold short
    rw [letter]
    refine (if_neg valued).trans ?_
    split
    · next same => cases same
    · next same =>
      cases same
      exact absurd rfl equals
    · rfl

theorem mentions_of_long (read : p.long text = .ok q) :
    ∃ f attached, Mentions ('-' :: '-' :: text) f attached ∧ p.option f attached = .ok q := by
  unfold long at read
  dsimp only at read
  split at read
  · cases read
  · next f known =>
    have name : f.long.toList = text.takeWhile (· ≠ '=') := by
      rw [Flag.long_of_ofLong? known, String.toList_ofList]
    have split := List.takeWhile_append_dropWhile (p := (· ≠ '=')) (l := text)
    rw [← name] at split
    cases behind : text.dropWhile (· ≠ '=') with
    | nil =>
      rw [behind, List.append_nil] at split
      rw [behind] at read
      exact ⟨f, none, split ▸ .long, read⟩
    | cons c value =>
      have mark : c = '=' := by
        have stops := List.head?_dropWhile_not (· ≠ '=') text
        rw [behind] at stops
        simpa using stops
      rw [behind, mark] at split
      rw [behind] at read
      exact ⟨f, some (String.ofList value), split ▸ .longValue value, read⟩

theorem mentions_of_short (read : p.short c text = .ok q) :
    ∃ f attached, Mentions ('-' :: c :: text) f attached ∧ p.option f attached = .ok q := by
  unfold short at read
  split at read
  · cases read
  · next f known =>
    have letter := Flag.letter?_of_ofLetter? known
    by_cases valued : f.placeholder? = none
    · rw [if_pos valued] at read
      exact absurd valued (valued_of_option read)
    · rw [if_neg valued] at read
      split at read
      · exact ⟨f, none, .letter letter, read⟩
      · next value => exact ⟨f, _, .letterEquals letter value, read⟩
      · next empty equals =>
        cases text with
        | nil => exact absurd rfl empty
        | cons d value =>
          have other : d ≠ '=' := by
            rintro rfl
            exact equals value rfl
          exact ⟨f, _, .letterValue letter other value, read⟩

/-- An argument is an option or the value of the one before it. -/
theorem mentions_of_argument (read : p.argument s = .ok q) :
    (∃ f attached, f.Valued ∧ Mentions s.toList f attached ∧ p.option f attached = .ok q) ∨
      (Plain s ∧ p.plain s = .ok q) := by
  unfold argument at read
  split at read
  · next text dashes =>
    obtain ⟨f, attached, mentions, taken⟩ := mentions_of_long read
    exact .inl ⟨f, attached, valued_of_option taken, dashes ▸ mentions, taken⟩
  · next c rest long dash =>
    obtain ⟨f, attached, mentions, taken⟩ := mentions_of_short read
    exact .inl ⟨f, attached, valued_of_option taken, dash ▸ mentions, taken⟩
  · next text long short =>
    refine .inr ⟨?_, read⟩
    intro c rest same
    exact short c rest same

/-! ## All arguments -/

theorem open?_of_take (taken : p.take f value = .ok q) : q.open? = none := by
  unfold take at taken
  split at taken
  · cases taken
  · split at taken
    · cases taken
      rfl
    · cases taken

theorem open?_of_close (closed : p.close = .ok q) : q.open? = none := by
  unfold close at closed
  split at closed
  · next none =>
    cases closed
    exact none
  · cases closed
  · exact open?_of_take closed

theorem close_of_open? (none : p.open? = none) : p.close = .ok p := by rw [close, none]

/-- Each value in turn. -/
def takeAll (p : Progress) (given : List (Flag × String)) : Except Stop Progress :=
  given.foldlM (fun q t => q.take t.1 t.2) p

theorem takeAll_cons (p : Progress) (f : Flag) (value : String) (given : List (Flag × String)) :
    p.takeAll ((f, value) :: given) = p.take f value >>= (·.takeAll given) := List.foldlM_cons

theorem ne_dashes (mentions : Mentions s.toList f attached) : s ≠ "--" := by
  rintro rfl
  generalize split : "--".toList = cs at mentions
  cases mentions with
  | long =>
    cases f with
    | host | port | classpath | drainTimeout | logLevel | help | version => cases split
  | longValue value =>
    cases f with
    | host | port | classpath | drainTimeout | logLevel | help | version => cases split
  | letter known =>
    cases split
    exact (Flag.ofLetter?_letter known).2 rfl
  | letterEquals known value | letterValue known other value => cases split

theorem ne_dashes_of_plain (plain : Plain s) : s ≠ "--" := by
  rintro rfl
  exact plain '-' [] rfl

theorem arguments_cons (p : Progress) (other : s ≠ "--") (rest : List String) :
    p.arguments (s :: rest) = p.argument s >>= (·.arguments rest) := by
  rw [Progress.arguments.eq_def]
  exact if_neg other

/-- An option takes the value of the next argument. -/
theorem arguments_separate (p : Progress) (valued : f.Valued)
    (mentions : Mentions s.toList f none) (plain : Plain value) (rest : List String) :
    p.arguments (s :: value :: rest) = p.close >>= fun q =>
      ({ q with open? := some (f, some value) } : Progress).arguments rest := by
  rw [arguments_cons p (ne_dashes mentions), argument_of_mentions valued mentions,
    option_valued p valued, bind_assoc]
  congr 1
  funext q
  change ({ q with open? := some (f, none) } : Progress).arguments (value :: rest) = _
  rw [arguments_cons _ (ne_dashes_of_plain plain), argument_plain _ plain]
  rfl

/-- Arguments that are typed so are read as their values, behind the one that is left. -/
theorem arguments_of_typed (typed : Typed arguments given) (p : Progress) :
    p.arguments arguments = p.close >>= (·.takeAll given) := by
  induction typed generalizing p with
  | nil =>
    rw [Progress.arguments]
    exact (bind_pure _).symm
  | dashes =>
    rw [Progress.arguments.eq_def]
    exact (bind_pure _).symm
  | @attached s value f rest given valued mentions later inductionHypothesis =>
    rw [arguments_cons p (ne_dashes mentions), argument_of_mentions valued mentions,
      option_valued p valued, bind_assoc]
    congr 1
    funext q
    change (q.take f value >>= (·.arguments rest)) = q.takeAll _
    rw [takeAll_cons]
    cases taken : q.take f value with
    | error stop => rfl
    | ok r =>
      refine (inductionHypothesis r).trans ?_
      rw [close_of_open? (open?_of_take taken)]
  | @separate s value f rest given valued mentions plain later inductionHypothesis =>
    rw [arguments_separate p valued mentions plain]
    cases closed : p.close with
    | error stop => rfl
    | ok q =>
      refine (inductionHypothesis _).trans ?_
      have same : ({ q with open? := none } : Progress) = q := by
        obtain ⟨options, taken, open?⟩ := q
        cases open?_of_close closed
        rfl
      change (({ q with open? := none } : Progress).take f value) >>= _ = q.takeAll _
      rw [same]
      exact (takeAll_cons q f value given).symm

/-- The arguments that may follow, the first of which is a value if an option is without one. -/
def Awaits (open? : Option (Flag × Option String)) (arguments : List String) : Prop :=
  match open? with
  | some (_, none) =>
    ∃ value rest given, arguments = value :: rest ∧ Plain value ∧ Typed rest given
  | _ => ∃ given, Typed arguments given

theorem awaits_of_close (closed : p.close = .ok q) (typed : ∃ given, Typed arguments given) :
    Awaits p.open? arguments := by
  unfold close at closed
  split at closed
  · next none =>
    rw [none]
    exact typed
  · cases closed
  · next known =>
    rw [known]
    exact typed

/-- Arguments that are read are typed. -/
theorem awaits_of_arguments (read : p.arguments arguments = .ok q) : Awaits p.open? arguments := by
  induction arguments generalizing p with
  | nil => exact awaits_of_close read ⟨[], .nil⟩
  | cons s rest inductionHypothesis =>
    by_cases dashes : s = "--"
    · subst dashes
      rw [Progress.arguments.eq_def] at read
      cases rest with
      | nil => exact awaits_of_close read ⟨[], .dashes⟩
      | cons t rest => cases read
    · rw [arguments_cons p dashes] at read
      obtain ⟨r, first, others⟩ := bind_eq_ok_iff.mp read
      have later := inductionHypothesis others
      rcases mentions_of_argument first with ⟨f, attached, valued, mentions, taken⟩ | ⟨plain, taken⟩
      · rw [option_valued p valued] at taken
        obtain ⟨q', closed, taken⟩ := bind_eq_ok_iff.mp taken
        cases attached with
        | some value =>
          rw [open?_of_take taken] at later
          obtain ⟨given, typed⟩ := later
          exact awaits_of_close closed ⟨_, .attached valued mentions typed⟩
        | none =>
          cases taken
          obtain ⟨value, rest, given, rfl, plain, typed⟩ := later
          exact awaits_of_close closed ⟨_, .separate valued mentions plain typed⟩
      · unfold Progress.plain at taken
        split at taken
        · next f known =>
          cases taken
          obtain ⟨given, typed⟩ := later
          rw [known]
          exact ⟨s, rest, given, rfl, plain, typed⟩
        · cases taken

/-- All arguments are read exactly if they are typed and each value can be taken. -/
theorem start_arguments_iff : start.arguments arguments = .ok q ↔
    ∃ given, Typed arguments given ∧ start.takeAll given = .ok q := by
  constructor
  · intro read
    obtain ⟨given, typed⟩ := awaits_of_arguments read
    rw [arguments_of_typed typed] at read
    exact ⟨given, typed, read⟩
  · rintro ⟨given, typed, taken⟩
    rw [arguments_of_typed typed]
    exact taken

end Progress

end HotSwap.CommandLine

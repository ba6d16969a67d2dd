import HotSwap.Proofs.Settings.ShortNumbers

/-!
# Numbers that are settings

A number given by a program, by the environment or on a line of its own is taken as it is or
refused. So it is between braces if it has 63 bits and a sign. There one notation refuses any other,
and in the rest it is a fraction first: one below zero becomes zero, and a great one becomes what a
fraction is nearest to.
-/

namespace HotSwap

open Settings

variable {n : Int} {m : Nat} {x : Scalar} {name : String} {origin : Option String}

/-- What a setting is when whole numbers of other than 63 bits are fractions first. -/
structure Rounds (n : Int) (m : Nat) : Prop where
  kept : Word.FitsSigned 63 n → m = n
  below : n < -2 ^ 63 → m = 0
  above : 2 ^ 63 ≤ n → 2 ^ 60 ≤ m
  nearest : 2 ^ 63 ≤ n → n < 2 ^ 64 → m = clamp (Binary64.ofNat false n.toNat).round

theorem Rounds.of_eq (same : m = n) (fits : Word.FitsSigned 63 n) : Rounds n m where
  kept _ := same
  below small := by
    obtain ⟨least, -⟩ := fits
    change -((2 ^ 63 : Nat) : Int) ≤ n at least
    omega
  above great := by
    obtain ⟨-, most⟩ := fits
    change n < (2 ^ 63 : Nat) at most
    omega
  nearest great := by
    obtain ⟨-, most⟩ := fits
    change n < (2 ^ 63 : Nat) at most
    omega

theorem clamp_nonpos {z : Int} (small : z ≤ 0) : clamp z = 0 := by
  rw [clamp, Int.toNat_of_nonpos small]
  exact Nat.zero_min _

theorem le_clamp {z : Int} (great : ((2 ^ 60 : Nat) : Int) ≤ z) : 2 ^ 60 ≤ clamp z := by
  have short : 2 ^ 60 ≤ Word.count 64 - 1 := by decide
  rw [clamp]
  omega

/-- What is read from what a number has become. -/
theorem Keeps.rounds (keeps : Keeps n x) (read : asNat name (.scalar origin x) = .ok m) :
    Rounds n m := by
  cases keeps with
  | whole fits => exact .of_eq (asNat_of_names .number read) fits
  | @fraction x wide sign least near =>
    rw [asNat] at read
    cases read
    refine ⟨fun fits => absurd fits wide, ?_, ?_, ?_⟩
    · intro small
      apply clamp_nonpos
      apply Binary64.round_nonpos
      rw [sign]
      exact decide_eq_true (by omega)
    · intro great
      apply le_clamp
      apply Binary64.le_round least
      rw [sign]
      exact decide_eq_false (by omega)
    · intro great fits
      have natural : ¬ n < 0 := by omega
      have same : n.natAbs = n.toNat := by omega
      have small : n.natAbs < 2 ^ 64 := by omega
      rw [near small, decide_eq_false natural, same]
  | infinite great =>
    rw [asNat] at read
    cases read
    have great : 2 ^ 64 ≤ n.natAbs := great
    refine ⟨fun fits => ?_, ?_, ?_, ?_⟩
    · exact absurd (small_of_word (.inl fits)) (Nat.not_lt.mpr great)
    · intro small
      rw [if_pos (decide_eq_true (by omega))]
    · intro wide
      rw [if_neg (by simpa using (show 0 ≤ n by omega))]
      decide
    · intro wide small
      omega

/-- A number of 64 bits that is no word of 63 bits and a sign is a fraction. -/
theorem Keeps.exists_fraction (keeps : Keeps n x) (wide : n < -2 ^ 63 ∨ 2 ^ 63 ≤ n)
    (small : n.natAbs < 2 ^ 64) : ∃ y, x = .float y := by
  cases keeps with
  | whole fits =>
    obtain ⟨least, most⟩ := fits
    change -((2 ^ 63 : Nat) : Int) ≤ n at least
    change n < (2 ^ 63 : Nat) at most
    omega
  | fraction => exact ⟨_, rfl⟩
  | infinite great => exact absurd small (Nat.not_lt.mpr great)

namespace Settings

open Assignment

variable {files : List File} {environment : List Variable} {file : File} {read : Notation}
  {measure : Measure} {s : Settings} {text : String} {assignments : List Assignment}
  {a : Assignment} {p : Scalar → Prop}

namespace Measure

/-- The name of a number is the whole of its path. -/
theorem ofKey_key (measure : Measure) :
    Path.ofKey measure.key = ⟨measure.key, []⟩ ∧ Text.lowercase measure.key = measure.key := by
  cases measure with
  | port => exact Field.port.ofKey_key
  | drainTimeout => exact Field.drainTimeout.ofKey_key

/-- The text is refused, or is a table where the number holds a scalar of some kind. -/
def Given (measure : Measure) (read : Notation) (text : String) (p : Scalar → Prop) : Prop :=
  ∀ origin e, read origin text = .ok e → ∃ x, p x ∧ e = .single origin measure.key x

theorem given_toml (measure : Measure) (n : Int) :
    measure.Given Toml.read (measure.key ++ "=" ++ toString n) (Names n) := by
  intro origin e parsed
  exact ⟨.int n, .number, Toml.read_line measure origin n parsed⟩

theorem given_sections (measure : Measure) (n : Int) :
    measure.Given Relaxed.readSections (measure.key ++ "=" ++ toString n) (Names n) := by
  intro origin e parsed
  rw [Relaxed.readSections_line] at parsed
  cases parsed
  exact ⟨.text (toString n), .numeral (Digits.spells_toString n), rfl⟩

theorem given_json (measure : Measure) (n : Int) :
    measure.Given readJson (measure.object n) (Keeps n) := by
  intro origin e parsed
  obtain ⟨m, number, rfl⟩ := (readJson_object_iff measure origin n).mp parsed
  exact ⟨_, Json.keeps_number? number, rfl⟩

/-- A number of 64 bits is not refused by a reader of JSON. -/
theorem taken_json (measure : Measure) (small : n.natAbs < Word.count 64)
    (origin : Option String) : ∃ e, readJson origin (measure.object n) = .ok e :=
  ⟨_, (readJson_object_iff measure origin n).mpr ⟨_, Json.Numeral.number?_ofNat _ small, rfl⟩⟩

theorem given_yaml (measure : Measure) (n : Int) :
    measure.Given Yaml.read (measure.object n) (Keeps n) := by
  intro origin e parsed
  obtain ⟨x, plain, keeps⟩ := Yaml.plain_toString n
  rw [Yaml.read_object, plain] at parsed
  cases parsed
  exact ⟨x, keeps, rfl⟩

theorem taken_yaml (measure : Measure) (n : Int) (origin : Option String) :
    ∃ e, Yaml.read origin (measure.object n) = .ok e := by
  obtain ⟨x, plain, -⟩ := Yaml.plain_toString n
  rw [Yaml.read_object, plain]
  exact ⟨_, rfl⟩

theorem read_ron (measure : Measure) (n : Int) : ∃ x, Keeps n x ∧ ∀ origin,
    Relaxed.read .ron origin (measure.object n) = .ok (.single origin measure.key x) := by
  obtain ⟨x, word, keeps⟩ := Relaxed.Dialect.ronWord?_toString n
  refine ⟨x, keeps, fun origin => ?_⟩
  rw [Relaxed.read_object, Relaxed.Dialect.word?, word]
  rfl

theorem given_ron (measure : Measure) (n : Int) :
    measure.Given (Relaxed.read .ron) (measure.object n) (Keeps n) := by
  intro origin e parsed
  obtain ⟨x, keeps, taken⟩ := measure.read_ron n
  cases (taken origin).symm.trans parsed
  exact ⟨x, keeps, rfl⟩

/-- Only a whole number of 63 bits and a sign is taken here. -/
theorem given_json5 (measure : Measure) (n : Int) :
    measure.Given (Relaxed.read .json5) (measure.object n)
      fun x => Word.FitsSigned 63 n ∧ x = .int n := by
  intro origin e parsed
  rw [Relaxed.read_object, Relaxed.Dialect.word?, Relaxed.Dialect.json5Word?_toString] at parsed
  by_cases fits : Word.FitsSigned 63 n
  · rw [if_pos fits] at parsed
    cases parsed
    exact ⟨_, ⟨fits, rfl⟩, rfl⟩
  · rw [if_neg fits] at parsed
    cases parsed

theorem Given.mono {q : Scalar → Prop} (given : measure.Given read text p)
    (more : ∀ x, p x → q x) : measure.Given read text q := by
  intro origin e parsed
  obtain ⟨x, kind, same⟩ := given origin e parsed
  exact ⟨x, more x kind, same⟩

/-- A small number is read by the field it is for. -/
theorem exists_read {f : Field} {e : Entry} (same : measure.key = f.key) (small : m < Word.count 16)
    (reads : asNat measure.key e = .ok m) : ∃ v, f.read e = .ok v := by
  rw [same] at reads
  cases f with
  | port =>
    refine ⟨UInt16.ofNat m, asPort_eq_ok_iff.mpr ?_⟩
    rw [UInt16.toNat_ofNat_of_lt' small]
    exact reads
  | drainTimeout => exact ⟨UInt64.ofNat m, congrArg (Except.map UInt64.ofNat) reads⟩
  | host | classpath | corsEnabled =>
    cases measure with
    | port => exact absurd same (by decide)
    | drainTimeout => exact absurd same (by decide)

/-- A number that is set last by a scalar is read from it. -/
theorem asNat_of_last (last : last? measure.key assignments = some a) (plain : a.Plain)
    (loaded : ofEntry (performAll defaultEntries assignments) = .ok s) :
    asNat measure.key a.value = .ok (measure.of s) :=
  measure.asNat_of_ofEntry loaded (get?_performAll_of_last last plain)

theorem eq_of_names (last : last? measure.key assignments = some a) (straight : a.path.steps = [])
    (value : a.value = .scalar origin x) (names : Names n x)
    (loaded : ofEntry (performAll defaultEntries assignments) = .ok s) : measure.of s = n := by
  have read := asNat_of_last last ⟨straight, origin, x, value⟩ loaded
  rw [value] at read
  exact asNat_of_names names read

theorem concerns_ofMember (measure : Measure) (e : Entry) :
    (ofMember (measure.key, e)).key = measure.key := by
  obtain ⟨straight, lower⟩ := measure.ofKey_key
  rw [ofMember, Assignment.key, straight]
  exact lower

theorem plain_ofMember (measure : Measure) (origin : Option String) (x : Scalar) :
    (ofMember (measure.key, .scalar origin x)).Plain :=
  ⟨congrArg Path.steps measure.ofKey_key.1, origin, x, rfl⟩

/-- What is loaded if a file has only one member. -/
theorem load_single (found : findFile files = some (file, read))
    (content : file.content = Bytes.ofText text)
    (parsed : read (some file.name) text = .ok (.single (some file.name) measure.key x))
    (environment : List Variable) :
    load files environment = ofEntry (performAll defaultEntries
      (ofMember (measure.key, .scalar (some file.name) x) ::
        environment.filterMap ofVariable?)) := by
  have filed : fileMembers files = .ok [(measure.key, .scalar (some file.name) x)] := by
    rw [fileMembers, found]
    dsimp only
    rw [readFile, content, Json.text?_ofText]
    dsimp only
    rw [parsed]
    rfl
  rw [load_eq, filed]
  rfl

/-- A number that only a file gives is read from it. -/
theorem asNat_of_load (given : measure.Given read text p)
    (found : findFile files = some (file, read)) (content : file.content = Bytes.ofText text)
    (untouched : last? measure.key (environment.filterMap ofVariable?) = none)
    (loaded : load files environment = .ok s) :
    ∃ origin x, p x ∧ asNat measure.key (.scalar origin x) = .ok (measure.of s) := by
  cases parsed : read (some file.name) text with
  | error reason =>
    rw [load_eq, fileMembers, found] at loaded
    simp only [readFile, content, Json.text?_ofText, parsed] at loaded
    cases loaded
  | ok e =>
    obtain ⟨x, kind, rfl⟩ := given _ e parsed
    rw [load_single found content parsed] at loaded
    have last : last? measure.key (ofMember (measure.key, .scalar (some file.name) x) ::
        environment.filterMap ofVariable?) =
        some (ofMember (measure.key, .scalar (some file.name) x)) := by
      rw [← List.singleton_append, last?_append, untouched,
        last?_singleton (measure.concerns_ofMember _)]
      rfl
    exact ⟨_, x, kind, asNat_of_last last (measure.plain_ofMember _ x) loaded⟩

end Measure

/-- The notation of a file is that of its extension. -/
theorem exists_extension (found : findFile files = some (file, read)) :
    ∃ extension, (extension, read) ∈ notations ∧ file.name = baseName ++ "." ++ extension := by
  unfold findFile at found
  split at found
  · cases found
  · obtain ⟨⟨extension, reader⟩, there, here⟩ := List.exists_of_findSome?_eq_some found
    obtain ⟨f, named, same⟩ := Option.map_eq_some_iff.mp here
    cases same
    have name := List.find?_some named
    exact ⟨extension, there, of_decide_eq_true name⟩

/-- The files where a setting stands on a line of its own. -/
def lineFiles : List String := ["devserve.toml", "devserve.ini"]

/-- The file where a whole number of other than 63 bits and a sign is refused between braces. -/
def boundedFile : String := "devserve.json5"

/-- What a file gives between braces, by its name. -/
structure Braces (measure : Measure) (n : Int) (name : String) (read : Notation) : Prop where
  keeps : measure.Given read (measure.object n) (Keeps n)
  names : name = boundedFile → measure.Given read (measure.object n) (Names n)
  taken : name ≠ boundedFile → n.natAbs < Word.count 64 →
    ∀ origin, ∃ e, read origin (measure.object n) = .ok e

namespace Braces

theorem json (measure : Measure) (n : Int) : Braces measure n "devserve.json" readJson where
  keeps := measure.given_json n
  names same := absurd same (by decide)
  taken _ := measure.taken_json

theorem yaml (measure : Measure) (n : Int) (other : name ≠ boundedFile) :
    Braces measure n name Yaml.read where
  keeps := measure.given_yaml n
  names same := absurd same other
  taken _ _ := measure.taken_yaml n

theorem ron (measure : Measure) (n : Int) :
    Braces measure n "devserve.ron" (Relaxed.read .ron) where
  keeps := measure.given_ron n
  names same := absurd same (by decide)
  taken _ _ origin := by
    obtain ⟨x, -, taken⟩ := measure.read_ron n
    exact ⟨_, taken origin⟩

theorem json5 (measure : Measure) (n : Int) :
    Braces measure n boundedFile (Relaxed.read .json5) where
  keeps := (measure.given_json5 n).mono fun _ ⟨fits, same⟩ => same ▸ .whole fits
  names _ := (measure.given_json5 n).mono fun _ ⟨_, same⟩ => same ▸ .number
  taken other := absurd rfl other

end Braces

/-- What a file gives, by its name. -/
theorem given_of_found (found : findFile files = some (file, read)) (measure : Measure) (n : Int) :
    (file.name ∈ lineFiles → measure.Given read (measure.key ++ "=" ++ toString n) (Names n)) ∧
      (file.name ∉ lineFiles → Braces measure n file.name read) := by
  obtain ⟨extension, known, name⟩ := exists_extension found
  rw [name]
  simp only [notations, List.mem_cons, Prod.mk.injEq, List.not_mem_nil, or_false] at known
  rcases known with ⟨rfl, rfl⟩ | ⟨rfl, rfl⟩ | ⟨rfl, rfl⟩ | ⟨rfl, rfl⟩ | ⟨rfl, rfl⟩ | ⟨rfl, rfl⟩ |
    ⟨rfl, rfl⟩
  · exact ⟨fun _ => measure.given_toml n, absurd (by decide)⟩
  · exact ⟨fun named => absurd named (by decide), fun _ => .json measure n⟩
  · exact ⟨fun named => absurd named (by decide), fun _ => .yaml measure n (by decide)⟩
  · exact ⟨fun named => absurd named (by decide), fun _ => .yaml measure n (by decide)⟩
  · exact ⟨fun _ => measure.given_sections n, absurd (by decide)⟩
  · exact ⟨fun named => absurd named (by decide), fun _ => .ron measure n⟩
  · exact ⟨fun named => absurd named (by decide), fun _ => .json5 measure n⟩

/-- The number is set last by a scalar that names it. -/
def Measure.Names (measure : Measure) (n : Int) (assignments : List Assignment) : Prop :=
  ∃ a origin x, last? measure.key assignments = some a ∧ a.path.steps = [] ∧
    a.value = .scalar origin x ∧ Settings.Names n x

/-- Between braces a number below those of 63 bits and a sign makes zero of a setting. -/
theorem exists_load (found : findFile files = some (file, read)) (other : file.name ∉ lineFiles)
    (unbounded : file.name ≠ boundedFile)
    (content : file.content = Bytes.ofText (measure.object n)) (small : -2 ^ 64 < n)
    (below : n < -2 ^ 63) : ∃ s, load files [] = .ok s := by
  have braces := (given_of_found found measure n).2 other
  have fits : n.natAbs < 2 ^ 64 := by omega
  obtain ⟨e, parsed⟩ := braces.taken unbounded fits (some file.name)
  obtain ⟨x, keeps, rfl⟩ := braces.keeps _ e parsed
  obtain ⟨y, rfl⟩ := keeps.exists_fraction (by omega) fits
  have reads : asNat measure.key (.scalar (some file.name) (.float y)) = .ok (clamp y.round) := rfl
  rw [(keeps.rounds reads).below below] at reads
  rw [Measure.load_single found content parsed, List.filterMap_nil]
  apply Field.exists_ofEntry_iff.mpr
  intro f
  by_cases same : measure.key = f.key
  · have concerns := (measure.concerns_ofMember (.scalar (some file.name) (.float y))).trans same
    rw [get?_performAll_of_last (last?_singleton concerns) (measure.plain_ofMember _ _)]
    exact measure.exists_read same (by decide) reads
  · have untouched : last? f.key [ofMember (measure.key, .scalar (some file.name) (.float y))] =
        none := by
      apply last?_singleton_of_ne
      rwa [measure.concerns_ofMember]
    rw [get?_performAll_of_none untouched]
    exact ⟨_, f.reading_default⟩

/-- Whoever sets a number, it is what is given or nothing, unless a file gives it between braces. -/
theorem numbers_are_kept_or_rounded (measure : Measure) (n : Int) :
    (∀ values assignments s, valueAssignments values = .ok assignments →
      measure.Names n assignments → override values = .ok s → measure.of s = n) ∧
    (∀ files environment members s, fileMembers files = .ok members →
      measure.Names n (members.map ofMember ++ environment.filterMap ofVariable?) →
      load files environment = .ok s → measure.of s = n) ∧
    (∀ files environment file read s, findFile files = some (file, read) →
      last? measure.key (environment.filterMap ofVariable?) = none →
      load files environment = .ok s →
      (file.name ∈ lineFiles →
        file.content = Bytes.ofText (measure.key ++ "=" ++ toString n) → measure.of s = n) ∧
      (file.name ∉ lineFiles →
        file.content = Bytes.ofText (measure.object n) → Rounds n (measure.of s)) ∧
      (file.name = boundedFile →
        file.content = Bytes.ofText (measure.object n) → measure.of s = n)) ∧
    (∀ files file read, findFile files = some (file, read) → file.name ∉ lineFiles →
      file.name ≠ boundedFile → file.content = Bytes.ofText (measure.object n) →
      -2 ^ 64 < n → n < -2 ^ 63 → ∃ s, load files [] = .ok s ∧ measure.of s = 0) := by
  refine ⟨?_, ?_, ?_, ?_⟩
  · rintro values assignments s parsed ⟨a, origin, x, last, straight, value, names⟩ succeeds
    rw [override_eq, parsed] at succeeds
    exact Measure.eq_of_names last straight value names succeeds
  · rintro files environment members s filed ⟨a, origin, x, last, straight, value, names⟩ loaded
    rw [load_eq, filed] at loaded
    exact Measure.eq_of_names last straight value names loaded
  · intro files environment file read s found untouched loaded
    obtain ⟨line, braces⟩ := given_of_found found measure n
    refine ⟨?_, ?_, ?_⟩
    · intro named content
      obtain ⟨origin, x, names, reads⟩ :=
        Measure.asNat_of_load (line named) found content untouched loaded
      exact asNat_of_names names reads
    · intro named content
      obtain ⟨origin, x, keeps, reads⟩ :=
        Measure.asNat_of_load (braces named).keeps found content untouched loaded
      exact keeps.rounds reads
    · intro bounded content
      have other : file.name ∉ lineFiles := bounded ▸ by decide
      obtain ⟨origin, x, names, reads⟩ :=
        Measure.asNat_of_load ((braces other).names bounded) found content untouched loaded
      exact asNat_of_names names reads
  · intro files file read found named unbounded content small below
    obtain ⟨s, loaded⟩ := exists_load found named unbounded content small below
    obtain ⟨origin, x, keeps, reads⟩ := Measure.asNat_of_load
      ((given_of_found found measure n).2 named).keeps found content rfl loaded
    exact ⟨s, loaded, (keeps.rounds reads).below below⟩

/-- The number next to those of 63 bits and a sign is taken for zero. -/
theorem low_port_becomes_zero :
    ∃ s, load [⟨"devserve.json", Bytes.ofText "\x7b\"port\":-9223372036854775809\x7d"⟩] [] = .ok s ∧
      s.port = 0 := by
  have object : Measure.port.object (-9223372036854775809) =
      "\x7b\"port\":-9223372036854775809\x7d" := by decide +kernel
  obtain ⟨s, loaded, zero⟩ := (numbers_are_kept_or_rounded .port (-9223372036854775809)).2.2.2
    [⟨"devserve.json", Bytes.ofText "\x7b\"port\":-9223372036854775809\x7d"⟩] _ readJson rfl
    (by decide) (by decide) (congrArg Bytes.ofText object.symm) (by decide) (by decide)
  exact ⟨s, loaded, UInt16.toNat_inj.mp zero⟩

end Settings

end HotSwap

import HotSwap.Proofs.Settings.Merging

/-!
# Settings one by one

Each setting is read from what its key holds and from nothing else, and the settings are there if
all of them can be read.
-/

namespace HotSwap.Settings

inductive Field where
  | host
  | port
  | classpath
  | drainTimeout
  | corsEnabled
  deriving DecidableEq

namespace Field

def Value : Field → Type
  | host => String
  | port => UInt16
  | classpath => Option String
  | drainTimeout => UInt64
  | corsEnabled => Bool

def key : Field → String
  | host => "host"
  | port => "port"
  | classpath => "classpath"
  | drainTimeout => "drain_timeout_ms"
  | corsEnabled => "cors_enabled"

def of (s : Settings) : (f : Field) → f.Value
  | host => s.host
  | port => s.port
  | classpath => s.classpath
  | drainTimeout => s.drainTimeoutMs
  | corsEnabled => s.corsEnabled

/-- The value of a setting that is set. -/
def read : (f : Field) → Entry → Except LoadError f.Value
  | host => asText "host"
  | port => asPort "port"
  | classpath => asOptionalText "classpath"
  | drainTimeout => fun e => (asNat "drain_timeout_ms" e).map UInt64.ofNat
  | corsEnabled => asBool "cors_enabled"

/-- The value of a setting, which is that of the defaults unless it is set. -/
def reading (f : Field) (held : Option Entry) : Except LoadError f.Value :=
  match held with
  | some e => f.read e
  | none => .ok (f.of default)

/-- No two settings have one key. -/
theorem eq_of_key {f g : Field} (same : f.key = g.key) : f = g := by
  cases f with
  | host | port | classpath | drainTimeout | corsEnabled =>
    cases g with
    | host | port | classpath | drainTimeout | corsEnabled =>
      first
      | rfl
      | exact absurd same (by decide)

/-- The key of a setting is the whole of its path. -/
theorem ofKey_key (f : Field) :
    Path.ofKey f.key = ⟨f.key, []⟩ ∧ Text.lowercase f.key = f.key := by
  cases f with
  | host => decide +kernel
  | port => decide +kernel
  | classpath => decide +kernel
  | drainTimeout => decide +kernel
  | corsEnabled => decide +kernel

theorem ext {s t : Settings} (same : ∀ f : Field, f.of s = f.of t) : s = t := by
  obtain ⟨⟩ := s
  obtain ⟨⟩ := t
  have host := same .host
  have port := same .port
  have classpath := same .classpath
  have drain := same .drainTimeout
  have cors := same .corsEnabled
  simp only [of] at host port classpath drain cors
  subst host port classpath drain cors
  rfl

variable {root : Entry} {s : Settings}

/-- Settings are read field by field. -/
theorem ofEntry_eq_ok_iff :
    ofEntry root = .ok s ↔ ∀ f : Field, f.reading (root.get? f.key) = .ok (f.of s) := by
  have drains : Field.drainTimeout.reading (root.get? "drain_timeout_ms") =
      (setting root "drain_timeout_ms" default.drainTimeoutMs.toNat asNat).map UInt64.ofNat := by
    rw [setting]
    cases root.get? "drain_timeout_ms" with
    | none => rfl
    | some e => rfl
  simp only [ofEntry, bind_eq_ok_iff]
  constructor
  · rintro ⟨host, hosts, port, ports, classpath, classpaths, drain, drainsTo, cors, allows, ⟨⟩⟩ f
    cases f with
    | host => exact hosts
    | port => exact ports
    | classpath => exact classpaths
    | drainTimeout =>
      apply drains.trans
      rw [drainsTo]
      rfl
    | corsEnabled => exact allows
  · intro reads
    obtain ⟨drain, drainsTo, ends⟩ := map_eq_ok_iff.mp (drains.symm.trans (reads .drainTimeout))
    refine ⟨s.host, reads .host, s.port, reads .port, s.classpath, reads .classpath, drain,
      drainsTo, s.corsEnabled, reads .corsEnabled, ?_⟩
    rw [ends]
    rfl

/-- There are settings if every field can be read. -/
theorem exists_ofEntry_iff :
    (∃ s, ofEntry root = .ok s) ↔ ∀ f : Field, ∃ v, f.reading (root.get? f.key) = .ok v := by
  constructor
  · rintro ⟨s, loaded⟩ f
    exact ⟨f.of s, ofEntry_eq_ok_iff.mp loaded f⟩
  · intro reads
    obtain ⟨host, hosts⟩ := reads .host
    obtain ⟨port, ports⟩ := reads .port
    obtain ⟨classpath, classpaths⟩ := reads .classpath
    obtain ⟨drain, drains⟩ := reads .drainTimeout
    obtain ⟨cors, allows⟩ := reads .corsEnabled
    refine ⟨⟨host, port, classpath, drain, cors⟩, ofEntry_eq_ok_iff.mpr ?_⟩
    intro f
    cases f with
    | host => exact hosts
    | port => exact ports
    | classpath => exact classpaths
    | drainTimeout => exact drains
    | corsEnabled => exact allows

/-- The defaults are read as what they are. -/
theorem reading_default (f : Field) :
    f.reading (defaultEntries.get? f.key) = .ok (f.of default) := by
  have small {n : Int} (natural : 0 ≤ n) (least : n < 2 ^ 16) : Word.Fits 64 n := by
    refine ⟨natural, ?_⟩
    change n < (2 ^ 64 : Nat)
    omega
  cases f with
  | host => rfl
  | port =>
    change asPort "port" (.scalar none (.int 8080)) = .ok 8080
    rw [asPort, asNat, if_pos (small (by decide) (by decide))]
    rfl
  | classpath => rfl
  | drainTimeout =>
    change (asNat "drain_timeout_ms" (.scalar none (.int 5000))).map UInt64.ofNat = .ok 5000
    rw [asNat, if_pos (small (by decide) (by decide))]
    rfl
  | corsEnabled => rfl

end Field

end HotSwap.Settings

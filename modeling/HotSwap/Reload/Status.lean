import HotSwap.Decimal.Word
import HotSwap.Json.Printer
import HotSwap.Json.Record
import HotSwap.Time.Instant

/-!
# The state of reloading

The status tells what the last attempts did. An attempt begins, and succeeds or fails; a failure is
shown for no longer than it takes to note it.
-/

namespace HotSwap

inductive Phase where
  | idle
  | reloading
  | failed
  deriving DecidableEq, Repr

namespace Phase

def all : List Phase := [idle, reloading, failed]

def render : Phase → String
  | idle => "idle"
  | reloading => "reloading"
  | failed => "failed"

def ofText (s : String) : Json.Scan Phase :=
  match all.find? (·.render = s) with
  | some p => pure p
  | none => Json.Scan.fail (.unknownVariant s (all.map render))

def name : Json.Scan Phase := do ofText (← Json.Reader.text "variant identifier")

/-- A phase is its name, or an object with the name as its only key, over `null`. -/
def reader : Json.Reader Phase := fun depth => do
  match ← Json.Scan.look with
  | none => Json.Scan.failNext .unfinishedValue
  | some 34 => name
  | some 123 =>
    match depth with
    | 0 => Json.Scan.failNext .tooDeep
    | _ + 1 =>
      Json.Scan.drop
      let p ← name
      Json.Scan.colon
      Json.Reader.unit
      match ← Json.Scan.look with
      | some 125 => Json.Scan.drop
      | some _ => Json.Scan.fail .expectedValue
      | none => Json.Scan.fail .unfinishedObject
      return p
  | some _ => Json.Scan.failNext .expectedValue

end Phase

/-- A natural number of 64 bits. -/
def readCount : Json.Scan Nat := Json.Reader.natBelow (Word.count 64) "u64"

def Instant.reader : Json.Scan Instant := do
  let s ← Json.Reader.text "an RFC 3339 formatted date and time string"
  match Instant.parse s with
  | .ok t => pure t
  | .error e => Json.Scan.fail (.refused e.message)

structure Status where
  phase : Phase
  /-- Of the engine that the latest successful attempt installed. -/
  generation : Nat
  reloadCount : Nat
  lastStartedAt : Option Instant
  lastSuccessAt : Option Instant
  lastFailureAt : Option Instant
  lastError : Option String
  deriving DecidableEq

namespace Status

def initial : Status := ⟨.idle, 0, 0, none, none, none, none⟩

def begin (s : Status) (now : Instant) : Status :=
  { s with phase := .reloading, lastStartedAt := some now }

def succeed (s : Status) (now : Instant) (generation : Nat) : Status :=
  { s with
    phase := .idle
    generation := generation
    reloadCount := s.reloadCount + 1
    lastSuccessAt := some now }

def fail (s : Status) (now : Instant) (error : String) : Status :=
  { s with phase := .failed, lastFailureAt := some now, lastError := some error }

def settle (s : Status) : Status := { s with phase := .idle }

/-- The members of a status; `clock` writes an instant. -/
def members (clock : Instant → String) (s : Status) : Json.Members :=
  let at? (t : Option Instant) : Json := .ofOption (fun t => .text (clock t)) t
  [("phase", .text s.phase.render),
    ("generation", .nat s.generation),
    ("reload_count", .nat s.reloadCount),
    ("last_started_at", at? s.lastStartedAt),
    ("last_success_at", at? s.lastSuccessAt),
    ("last_failure_at", at? s.lastFailureAt),
    ("last_error", .ofOption .text s.lastError)]

def toJson (clock : Instant → String) (s : Status) : Json := .object (s.members clock)

structure Draft where
  phase : Option Phase
  generation : Option Nat
  reloadCount : Option Nat
  lastStartedAt : Option (Option Instant)
  lastSuccessAt : Option (Option Instant)
  lastFailureAt : Option (Option Instant)
  lastError : Option (Option String)

def readInstant : Json.Reader (Option Instant) := Json.Reader.option fun _ => Instant.reader

def shape : Json.Record Draft Status where
  name := "ReloadStatus"
  fields := [
    { key := "phase"
      optional := false
      given := fun d => d.phase.isSome
      read := fun d depth => do return { d with phase := some (← Phase.reader depth) } },
    { key := "generation"
      optional := false
      given := fun d => d.generation.isSome
      read := fun d _ => do return { d with generation := some (← readCount) } },
    { key := "reload_count"
      optional := false
      given := fun d => d.reloadCount.isSome
      read := fun d _ => do return { d with reloadCount := some (← readCount) } },
    { key := "last_started_at"
      optional := false
      given := fun d => d.lastStartedAt.isSome
      read := fun d depth => do return { d with lastStartedAt := some (← readInstant depth) } },
    { key := "last_success_at"
      optional := false
      given := fun d => d.lastSuccessAt.isSome
      read := fun d depth => do return { d with lastSuccessAt := some (← readInstant depth) } },
    { key := "last_failure_at"
      optional := false
      given := fun d => d.lastFailureAt.isSome
      read := fun d depth => do return { d with lastFailureAt := some (← readInstant depth) } },
    { key := "last_error"
      optional := false
      given := fun d => d.lastError.isSome
      read := fun d depth => do
        let given ← Json.Reader.option (fun _ => Json.Reader.text "a string") depth
        return { d with lastError := some given } }]
  blank := ⟨none, none, none, none, none, none, none⟩
  finish := fun d => do
    let phase ← Json.required "phase" d.phase
    let generation ← Json.required "generation" d.generation
    let reloadCount ← Json.required "reload_count" d.reloadCount
    return ⟨phase, generation, reloadCount, d.lastStartedAt.join, d.lastSuccessAt.join,
      d.lastFailureAt.join, d.lastError.join⟩

def reader : Json.Reader Status := shape.reader

end Status

/-- What a successful reload did. -/
structure Report where
  provider : String
  generation : Nat
  previousGeneration : Option Nat
  durationMs : Nat
  deriving DecidableEq, Repr

namespace Report

def toJson (r : Report) : Json :=
  .object [
    ("provider", .text r.provider),
    ("generation", .nat r.generation),
    ("previous_generation", .ofOption .nat r.previousGeneration),
    ("duration_ms", .nat r.durationMs)]

structure Draft where
  provider : Option String
  generation : Option Nat
  previousGeneration : Option (Option Nat)
  durationMs : Option Nat

def shape : Json.Record Draft Report where
  name := "ReloadReport"
  fields := [
    { key := "provider"
      optional := false
      given := fun d => d.provider.isSome
      read := fun d _ => do return { d with provider := some (← Json.Reader.text "a string") } },
    { key := "generation"
      optional := false
      given := fun d => d.generation.isSome
      read := fun d _ => do return { d with generation := some (← readCount) } },
    { key := "previous_generation"
      optional := false
      given := fun d => d.previousGeneration.isSome
      read := fun d depth => do
        let given ← Json.Reader.option (fun _ => readCount) depth
        return { d with previousGeneration := some given } },
    { key := "duration_ms"
      optional := false
      given := fun d => d.durationMs.isSome
      read := fun d _ => do return { d with durationMs := some (← readCount) } }]
  blank := ⟨none, none, none, none⟩
  finish := fun d => do
    let provider ← Json.required "provider" d.provider
    let generation ← Json.required "generation" d.generation
    let durationMs ← Json.required "duration_ms" d.durationMs
    return ⟨provider, generation, d.previousGeneration.join, durationMs⟩

def reader : Json.Reader Report := shape.reader

end Report

end HotSwap

import HotSwap.Decimal.Word
import HotSwap.Json.Printer
import HotSwap.Json.Record
import HotSwap.Time.Duration

/-!
# Settings of the server
-/

namespace HotSwap

structure Settings where
  host : String
  /-- Zero stands for any free port. -/
  port : UInt16
  /-- Paths, set apart by colons. -/
  classpath : Option String
  drainTimeoutMs : UInt64
  corsEnabled : Bool
  deriving DecidableEq

namespace Settings

def default : Settings := ⟨"0.0.0.0", 8080, none, 5000, true⟩

/-- The parts of a list of paths, empty ones included. -/
def segments : List Char → List (List Char)
  | [] => [[]]
  | c :: rest =>
    if c = ':' then [] :: segments rest
    else
      match segments rest with
      | [] => [[c]]
      | first :: others => (c :: first) :: others

def splitPaths (s : String) : List String :=
  ((segments s.toList).filter (· ≠ [])).map String.ofList

def classpathEntries (s : Settings) : List String := (s.classpath.map splitPaths).getD []

def toJson (s : Settings) : Json :=
  .object [
    ("host", .text s.host),
    ("port", .nat s.port.toNat),
    ("classpath", .ofOption .text s.classpath),
    ("drain_timeout_ms", .nat s.drainTimeoutMs.toNat),
    ("cors_enabled", .bool s.corsEnabled)]

def render (s : Settings) : String :=
  Text.braced "DevServeConfig" [
    ("host", Text.quoted s.host),
    ("port", toString s.port.toNat),
    ("classpath",
      match s.classpath with
      | some c => "Some(" ++ Text.quoted c ++ ")"
      | none => "None"),
    ("drain_timeout_ms", toString s.drainTimeoutMs.toNat),
    ("cors_enabled", toString s.corsEnabled)]

structure Draft where
  host : Option String
  port : Option Nat
  classpath : Option (Option String)
  drainTimeoutMs : Option Nat
  corsEnabled : Option Bool

def shape : Json.Record Draft Settings where
  name := "DevServeConfig"
  fields := [
    { key := "host"
      optional := false
      given := fun d => d.host.isSome
      read := fun d _ => do return { d with host := some (← Json.Reader.text "a string") } },
    { key := "port"
      optional := false
      given := fun d => d.port.isSome
      read := fun d _ => do
        return { d with port := some (← Json.Reader.natBelow (Word.count 16) "u16") } },
    { key := "classpath"
      optional := true
      given := fun d => d.classpath.isSome
      read := fun d depth => do
        let given ← Json.Reader.option (fun _ => Json.Reader.text "a string") depth
        return { d with classpath := some given } },
    { key := "drain_timeout_ms"
      optional := false
      given := fun d => d.drainTimeoutMs.isSome
      read := fun d _ => do
        return { d with drainTimeoutMs := some (← Json.Reader.natBelow (Word.count 64) "u64") } },
    { key := "cors_enabled"
      optional := false
      given := fun d => d.corsEnabled.isSome
      read := fun d _ => do return { d with corsEnabled := some (← Json.Reader.bool) } }]
  blank := ⟨none, none, none, none, none⟩
  finish := fun d => do
    let host ← Json.required "host" d.host
    let port ← Json.required "port" d.port
    let drainTimeoutMs ← Json.required "drain_timeout_ms" d.drainTimeoutMs
    let corsEnabled ← Json.required "cors_enabled" d.corsEnabled
    return ⟨host, UInt16.ofNat port, d.classpath.join, UInt64.ofNat drainTimeoutMs, corsEnabled⟩

def reader : Json.Reader Settings := shape.reader

end Settings

end HotSwap

import HotSwap.Decimal.Word
import HotSwap.Settings.Basic
import HotSwap.Settings.Path

/-!
# From entries to settings

A setting is converted from whatever scalar is given for it. Words of assent and denial are
booleans and, digits apart, the numbers one and zero.
-/

namespace HotSwap.Settings

/-- Why there are no settings. -/
inductive LoadError where
  | mismatch (found : Unexpected) (expected : String) (key origin : Option String)
  | path (refusal : Path.Refusal)
  /-- A file that cannot be read as what its name says. -/
  | file (reason name : String)
  deriving DecidableEq

def LoadError.message : LoadError → String
  | mismatch found expected key origin =>
    "invalid type: " ++ found.describe ++ ", expected " ++ expected ++
      (match key with
      | some k => " for key `" ++ k ++ "`"
      | none => "") ++
      (match origin with
      | some o => " in " ++ o
      | none => "")
  | path refusal => refusal.message
  | file reason name => reason ++ " in " ++ name

def assents : List String := ["true", "on", "yes"]

def denials : List String := ["false", "off", "no"]

def mismatch {α : Type} (e : Entry) (expected key : String) : Except LoadError α :=
  .error (.mismatch e.unexpected expected (some key) e.origin)

def asBool (key : String) (e : Entry) : Except LoadError Bool :=
  match e with
  | .scalar _ (.bool b) => .ok b
  | .scalar _ (.int n) => .ok (n ≠ 0)
  | .scalar _ (.float x) => .ok (¬ x.IsZero)
  | .scalar _ (.infinite _) => .ok true
  | .scalar _ .notANumber => .ok true
  | .scalar origin (.text s) =>
    let low := Text.lowercase s
    if low ∈ "1" :: assents then .ok true
    else if low ∈ "0" :: denials then .ok false
    else .error (.mismatch (.scalar (.text low)) "a boolean" (some key) origin)
  | _ => mismatch e "a boolean" key

/-- The natural number that digits spell, behind a plus sign or none. -/
def natOf? (s : String) : Option Nat :=
  let digits := match s.toList with
    | '+' :: rest => rest
    | cs => cs
  if digits ≠ [] ∧ digits.all Char.isDigit then some (Digits.value digits) else none

/-- The nearest natural number of 64 bits. -/
def clamp (n : Int) : Nat := min n.toNat (Word.count 64 - 1)

def asNat (key : String) (e : Entry) : Except LoadError Nat :=
  match e with
  | .scalar _ (.bool b) => .ok b.toNat
  | .scalar _ (.int n) =>
    if Word.Fits 64 n then .ok n.toNat else mismatch e "an unsigned 64 bit or less integer" key
  | .scalar _ (.float x) => .ok (clamp x.round)
  | .scalar _ (.infinite negative) => .ok (if negative then 0 else Word.count 64 - 1)
  | .scalar _ .notANumber => .ok 0
  | .scalar _ (.text s) =>
    let low := Text.lowercase s
    if low ∈ assents then .ok 1
    else if low ∈ denials then .ok 0
    else
      match natOf? s with
      | some n => if n < Word.count 64 then .ok n else mismatch e "an integer" key
      | none => mismatch e "an integer" key
  | _ => mismatch e "an integer" key

def asPort (key : String) (e : Entry) : Except LoadError UInt16 := do
  let n ← asNat key e
  if n < Word.count 16 then return UInt16.ofNat n
  else throw (.mismatch (.unsigned n) "an unsigned 16 bit integer" (some key) none)

def asText (key : String) (e : Entry) : Except LoadError String :=
  match e with
  | .scalar _ s =>
    match s.render? with
    | some t => .ok t
    | none => mismatch e "a string" key
  | _ => mismatch e "a string" key

def asOptionalText (key : String) : Entry → Except LoadError (Option String)
  | .scalar _ .null => .ok none
  | e => (asText key e).map some

/-- The value of a setting, or its default if nothing sets it. -/
def setting {α : Type} (root : Entry) (key : String) (otherwise : α)
    (read : String → Entry → Except LoadError α) : Except LoadError α :=
  match root.get? key with
  | some e => read key e
  | none => .ok otherwise

def ofEntry (root : Entry) : Except LoadError Settings := do
  let host ← setting root "host" default.host asText
  let port ← setting root "port" default.port asPort
  let classpath ← setting root "classpath" none asOptionalText
  let drain ← setting root "drain_timeout_ms" default.drainTimeoutMs.toNat asNat
  let cors ← setting root "cors_enabled" default.corsEnabled asBool
  return ⟨host, port, classpath, UInt64.ofNat drain, cors⟩

/-- The entries that the defaults are. -/
def defaultEntries : Entry :=
  .table none [
    ("cors_enabled", .scalar none (.bool default.corsEnabled)),
    ("drain_timeout_ms", .scalar none (.int default.drainTimeoutMs.toNat)),
    ("host", .scalar none (.text default.host)),
    ("port", .scalar none (.int default.port.toNat))]

end HotSwap.Settings

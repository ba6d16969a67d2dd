import HotSwap.Decimal.Digits
import HotSwap.Decimal.Word
import HotSwap.Text.Blank
import HotSwap.Time.Calendar

/-!
# Instants and their RFC 3339 text

An instant is read from a date and time with an offset and written in universal time, with as many
groups of three fraction digits as it needs. A leap second is the second after 59.
-/

namespace HotSwap

structure Instant where
  /-- Since the epoch. -/
  seconds : Int
  /-- A billion or more within a leap second. -/
  nanos : Nat
  deriving DecidableEq, Repr

namespace Instant

def billion : Nat := 1000000000

def ofMillis (ms : Nat) : Instant := ⟨ms / 1000, ms % 1000 * 1000000⟩

def yearText (year : Int) : String :=
  if 0 ≤ year ∧ year ≤ 9999 then Digits.padded 4 year.natAbs
  else (if year < 0 then "-" else "+") ++ Digits.padded 4 year.natAbs

def fractionText (nanos : Nat) : String :=
  if nanos = 0 then ""
  else if nanos % 1000000 = 0 then "." ++ Digits.padded 3 (nanos / 1000000)
  else if nanos % 1000 = 0 then "." ++ Digits.padded 6 (nanos / 1000)
  else "." ++ Digits.padded 9 nanos

def render (t : Instant) : String :=
  let date := Date.ofDays (t.seconds / 86400)
  let time := (t.seconds % 86400).toNat
  let leap := if billion ≤ t.nanos then 1 else 0
  let two := Digits.padded 2
  yearText date.year ++ "-" ++ two date.month ++ "-" ++ two date.day ++ "T" ++
    two (time / 3600) ++ ":" ++ two (time / 60 % 60) ++ ":" ++ two (time % 60 + leap) ++
    fractionText (t.nanos % billion) ++ "Z"

/-- Why a text is no instant. -/
inductive Refusal where
  | tooShort
  | tooLong
  | invalid
  | outOfRange
  | impossible
  deriving DecidableEq, Repr

def Refusal.message : Refusal → String
  | tooShort => "premature end of input"
  | tooLong => "trailing input"
  | invalid => "input contains invalid characters"
  | outOfRange => "input is out of range"
  | impossible => "no possible date and time matching input"

/-- Reads a part off the front of the text. -/
abbrev Part := StateT (List Char) (Except Refusal)

def digits : Option Nat → Nat → Nat → List Char → Except Refusal (Nat × List Char)
  | some 0, _, n, s => .ok (n, s)
  | _, 0, _, [] => .error .tooShort
  | _, _, n, [] => .ok (n, [])
  | width, count, n, c :: s =>
    if c.isDigit then
      let m := 10 * n + (c.toNat - 48)
      if m < Word.count 63 then digits (width.map (· - 1)) (count + 1) m s else .error .outOfRange
    else if count = 0 then .error .invalid
    else .ok (n, c :: s)

/-- Digits, at most `width` of them if that is given. -/
def number (width : Option Nat) : Part Nat := fun s => digits width 0 0 s

def blank : Part Unit := modify Text.dropBlanks

/-- One of some characters. -/
def oneOf (allowed : List Char) : Part Unit := do
  match ← get with
  | [] => throw .tooShort
  | c :: s => if c ∈ allowed then set s else throw .invalid

def fit (lo hi : Int) (n : Int) : Part Unit :=
  if lo ≤ n ∧ n ≤ hi then pure () else throw .outOfRange

/-- A year has four digits, or a sign and as many digits as it needs. -/
def year : Part Int := do
  blank
  let y : Int ← match ← get with
    | '-' :: s => set s; pure (-(← number none : Int))
    | '+' :: s => set s; pure (← number none : Int)
    | _ => pure (← number (some 4) : Int)
  if Word.FitsSigned 31 y then return y else throw .outOfRange

def field (lo hi : Nat) : Part Nat := do
  blank
  let n ← number (some 2)
  fit lo hi n
  return n

def mark (c : Char) : Part Unit := do
  blank
  oneOf [c]

def date : Part Date := do
  let y ← year
  mark '-'
  let m ← field 1 12
  mark '-'
  return ⟨y, m, ← field 1 31⟩

/-- Digits of a second's fraction, in billionths; those after the ninth are dropped. -/
def fraction : Part Nat := do
  match ← get with
  | '.' :: s =>
    set s
    let n ← number (some 9)
    let rest ← get
    set (rest.dropWhile Char.isDigit)
    return n * Nat.pow 10 (9 - (s.length - rest.length))
  | _ => return 0

def twoDigits : Part (Nat × Nat) := do
  match ← get with
  | [] => throw .tooShort
  | [c] => if c.utf8Size < 2 then throw .tooShort else throw .invalid
  | a :: b :: s =>
    if a.isDigit ∧ b.isDigit then
      set s
      return (a.toNat - 48, b.toNat - 48)
    else throw .invalid

def hoursAndMinutes : Part Nat := do
  let (h, k) ← twoDigits
  modify fun s => s.dropWhile fun c => c = ':' ∨ Text.IsBlank c
  let (m, n) ← twoDigits
  if 6 ≤ m then throw .outOfRange
  return (h * 10 + k) * 60 + m * 10 + n

/-- Minutes east of universal time. -/
def offset : Part Int := do
  match ← get with
  | [] => throw .tooShort
  | c :: s =>
    if (String.ofList ((c :: s).take 3)).toLower = "utc" then
      set (s.drop 2)
      return 0
    else
      set s
      if c = 'Z' ∨ c = 'z' then return 0
      else if c = '+' then return (← hoursAndMinutes : Int)
      else if c = '-' ∨ c = '\u2212' then return -(← hoursAndMinutes : Int)
      else throw .invalid

/-- The first and the last year of an instant. -/
def years : Int × Int := (-262143, 262142)

def whole : Part Instant := do
  let date ← date
  oneOf ['T', 't', ' ']
  let hour ← field 0 23
  mark ':'
  let minute ← field 0 59
  mark ':'
  let second ← field 0 60
  let nanos ← fraction
  blank
  let east ← offset
  blank
  if (← get) ≠ [] then throw .tooLong
  fit years.1 years.2 date.year
  if ¬ date.IsValid then throw .outOfRange
  fit (-1439) 1439 east
  let minutes : Int := date.toDays * 1440 + hour * 60 + minute - east
  let t : Instant :=
    if second = 60 then ⟨minutes * 60 + 59, billion + nanos⟩ else ⟨minutes * 60 + second, nanos⟩
  let utcYear := (Date.ofDays (t.seconds / 86400)).year
  if years.1 ≤ utcYear ∧ utcYear ≤ years.2 then return t else throw .impossible

def parse (text : String) : Except Refusal Instant := whole.run' text.toList

end Instant

end HotSwap

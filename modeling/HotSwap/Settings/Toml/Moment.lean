import HotSwap.Decimal.Digits
import HotSwap.Settings.Toml.Fault
import HotSwap.Time.Calendar

/-!
# Dates and times of TOML

A moment is a date, a time, or a date with a time and perhaps an offset. Behind its first mark it is
one or a fault. As a value it is its text: `T` before the time, no zeros at the end of a fraction.
-/

namespace HotSwap.Toml

structure Clock where
  hour : Nat
  minute : Nat
  second : Nat
  nanosecond : Nat
  deriving DecidableEq, Repr

inductive Offset where
  | utc
  | minutes (negative : Bool) (n : Nat)
  deriving DecidableEq, Repr

structure Moment where
  date : Option Date
  clock : Option Clock
  offset : Option Offset
  deriving DecidableEq, Repr

def dateText (d : Date) : String :=
  Digits.padded 4 d.year.natAbs ++ "-" ++ Digits.padded 2 d.month ++ "-" ++ Digits.padded 2 d.day

def Clock.render (c : Clock) : String :=
  let fraction := Digits.trimmed (Digits.padded 9 c.nanosecond)
  Digits.padded 2 c.hour ++ ":" ++ Digits.padded 2 c.minute ++ ":" ++ Digits.padded 2 c.second ++
    if fraction = "" then "" else "." ++ fraction

def Offset.render : Offset → String
  | utc => "Z"
  | minutes negative n =>
    (if negative ∧ n ≠ 0 then "-" else "+") ++ Digits.padded 2 (n / 60) ++ ":" ++
      Digits.padded 2 (n % 60)

def Moment.render (m : Moment) : String :=
  let date := (m.date.map dateText).getD ""
  let clock := (m.clock.map Clock.render).getD ""
  let delimiter := if m.date.isSome ∧ m.clock.isSome then "T" else ""
  date ++ delimiter ++ clock ++ (m.offset.map Offset.render).getD ""

/-- A number of just so many digits. -/
def digits? (width : Nat) (s : List Char) : Option (Nat × List Char) :=
  let first := s.take width
  if first.length = width ∧ first.all Char.isDigit then some (Digits.value first, s.drop width)
  else none

/-- Two digits in a range; `label` names what would be wrong. -/
def twoDigits (label : String) (low high : Nat) (s : List Char) : Except Fault (Nat × List Char) :=
  match digits? 2 s with
  | none => fail ("invalid " ++ label) s
  | some (n, rest) =>
    if low ≤ n ∧ n ≤ high then .ok (n, rest)
    else fail ("invalid " ++ label ++ "\n" ++ outOfRange) s

def mark (label : String) (c : Char) (s : List Char) : Except Fault (List Char) :=
  if s.head? = some c then .ok (s.drop 1) else fail ("invalid " ++ label) s

/-- Four digits and a line start a date. -/
def date? (s : List Char) : Option (Except Fault (Date × List Char)) :=
  match digits? 4 s with
  | some (year, '-' :: rest) => some do
    let (month, rest) ← twoDigits "date-time" 1 12 rest
    let rest ← mark "date-time" '-' rest
    let (day, behind) ← twoDigits "date-time" 1 31 rest
    if Date.monthLength year month < day then fail ("invalid date-time\n" ++ outOfRange) rest
    else return (⟨year, month, day⟩, behind)
  | _ => none

/-- Nine digits of a fraction count. -/
def fraction (s : List Char) : Nat × List Char :=
  match s with
  | '.' :: rest =>
    let ds := rest.takeWhile Char.isDigit
    if ds = [] then (0, s)
    else (Digits.value ((ds ++ List.replicate 9 '0').take 9), rest.drop ds.length)
  | _ => (0, s)

/-- Two digits of an hour and a colon start a time. -/
def clock? (label : String) (s : List Char) : Option (Except Fault (Clock × List Char)) :=
  match digits? 2 s with
  | some (hour, ':' :: rest) =>
    if 23 < hour then none
    else some do
      let (minute, rest) ← twoDigits label 0 59 rest
      let rest ← mark label ':' rest
      let (second, rest) ← twoDigits label 0 60 rest
      let (nanosecond, rest) := fraction rest
      return (⟨hour, minute, second, nanosecond⟩, rest)
  | _ => none

def offset (s : List Char) : Except Fault (Option Offset × List Char) :=
  match s with
  | [] => .ok (none, [])
  | c :: rest =>
    if c = 'Z' ∨ c = 'z' then .ok (some .utc, rest)
    else if c = '+' ∨ c = '-' then do
      let (hours, rest) ← twoDigits "time offset" 0 23 rest
      let rest ← mark "time offset" ':' rest
      let (minutes, rest) ← twoDigits "time offset" 0 59 rest
      return (some (.minutes (c = '-') (60 * hours + minutes)), rest)
    else .ok (none, s)

/-- The time behind a date and a delimiter, if there is one. -/
def clockBehind (s : List Char) : Except Fault (Option Clock × Option Offset × List Char) :=
  match s with
  | [] => .ok (none, none, [])
  | c :: rest =>
    match if c ∈ ['T', 't', ' '] then clock? "date-time" rest else none with
    | none => .ok (none, none, s)
    | some t => do
      let (clock, rest) ← t
      let (offset, rest) ← offset rest
      return (some clock, offset, rest)

/-- The moment that a text starts with, unless it starts with something else. -/
def Moment.read? (s : List Char) : Option (Except Fault (Moment × List Char)) :=
  match date? s with
  | some d => some do
    let (date, rest) ← d
    let (clock, offset, rest) ← clockBehind rest
    return (⟨some date, clock, offset⟩, rest)
  | none => (clock? "time" s).map fun t => t.map fun (clock, rest) => (⟨none, clock, none⟩, rest)

end HotSwap.Toml

import HotSwap.Decimal.Word
import HotSwap.Json.Scan

/-!
# Numbers

A numeral gathers its digits into a significand of 64 bits and counts the others as powers of ten.
Without a point or an exponent it is a whole number as long as that has 64 bits. All else is the
significand, scaled by the nearest power of ten and rounded once for each scaling.
-/

namespace HotSwap

namespace Binary64

def ofNat (negative : Bool) (n : Nat) : Binary64 :=
  (ofQuotient? negative n 1).getD (zero negative)

def timesPower? (x : Binary64) (power : Nat) : Option Binary64 :=
  (ofDecimal? false 1 power).bind x.times?

def overPower? (x : Binary64) (power : Nat) : Option Binary64 :=
  (ofDecimal? false 1 power).bind x.over?

/-- Scales by powers of ten, of which one step has at most `step`; nothing, if the number grows
too great. -/
def scaleBy? (step : Nat) (pos : 0 < step) (x : Binary64) (scale : Int) : Option Binary64 :=
  if scale.natAbs ≤ step then
    if 0 ≤ scale then x.timesPower? scale.toNat else x.overPower? (-scale).toNat
  else if x.IsZero then some x
  else if 0 ≤ scale then none
  else
    match x.overPower? step with
    | none => none
    | some y => scaleBy? step pos y (scale + step)
termination_by scale.natAbs

def scale? (x : Binary64) (scale : Int) : Option Binary64 := scaleBy? 308 (by decide) x scale

end Binary64

namespace Json.Scan

/-- The digits that still fit 64 bits behind `n`, and how many there are. -/
def gather (n : Nat) : Bytes → (Nat × Nat) × Bytes
  | [] => ((n, 0), [])
  | b :: rest =>
    if Bytes.isDigit b ∧ 10 * n + Bytes.digit b < Word.count 64 then
      let t := gather (10 * n + Bytes.digit b) rest
      ((t.1.1, t.1.2 + 1), t.2)
    else ((n, 0), b :: rest)

theorem length_gather_le (n : Nat) (s : Bytes) : (gather n s).2.length ≤ s.length := by
  induction s generalizing n with
  | nil => simp [gather]
  | cons b rest ih =>
    unfold gather
    split
    · exact Nat.le_trans (ih _) (by simp)
    · simp

/-- Further digits of a significand, and how many were taken. -/
def significand (n : Nat) : Scan (Nat × Nat) := ofFunction (gather n) (length_gather_le n)

/-- The digits of an exponent as far as it fits a signed word of 32 bits. -/
def power (n : Nat) : Bytes → Nat × Bytes
  | [] => (n, [])
  | b :: rest =>
    if Bytes.isDigit b ∧ 10 * n + Bytes.digit b < Word.count 31 then
      power (10 * n + Bytes.digit b) rest
    else (n, b :: rest)

theorem length_power_le (n : Nat) (s : Bytes) : (power n s).2.length ≤ s.length := by
  induction s generalizing n with
  | nil => simp [power]
  | cons b rest ih =>
    unfold power
    split
    · exact Nat.le_trans (ih _) (by simp)
    · simp

def exponentDigits (n : Nat) : Scan Nat := ofFunction (power n) (length_power_le n)

def peekDigit : Scan Bool := do return (← peek).any Bytes.isDigit

def scaled (negative : Bool) (n : Nat) (scale : Int) : Scan Number :=
  match (Binary64.ofNat negative n).scale? scale with
  | some x => pure (.float x)
  | none => fail .numberRange

/-- What a numeral without point and exponent stands for. -/
def wholeNumber (negative : Bool) (n : Nat) : Number :=
  if !negative then .int n
  else if n = 0 ∨ Word.count 63 < n then .float (.ofNat true n)
  else .int (-n)

def exponent (negative : Bool) (n : Nat) (scale : Int) : Scan Number := do
  let minus ← match ← peek with
    | some 43 => drop; pure false
    | some 45 => drop; pure true
    | _ => pure false
  match ← next with
  | none => fail .unfinishedValue
  | some b =>
    if Bytes.isDigit b then
      let e ← exponentDigits (Bytes.digit b)
      if ← peekDigit then
        drop
        if n ≠ 0 ∧ minus = false then fail .numberRange
        else
          let _ ← digitRun
          pure (.float (.zero negative))
      else scaled negative n (if minus then scale - e else scale + e)
    else fail .badNumber

def fraction (negative : Bool) (n : Nat) (scale : Nat) : Scan Number := do
  let (n, taken) ← significand n
  let more ← digitRun
  if taken = 0 ∧ more = 0 then
    match ← peek with
    | none => fail .unfinishedValue
    | some _ => failNext .badNumber
  else
    let scale : Int := scale - taken
    match ← peek with
    | some 101 | some 69 => drop; exponent negative n scale
    | _ => scaled negative n scale

/-- What may follow the digits of a whole number, `scale` of which did not fit. -/
def afterWhole (negative : Bool) (n scale : Nat) : Scan Number := do
  match ← peek with
  | some 46 => drop; fraction negative n scale
  | some 101 | some 69 => drop; exponent negative n scale
  | _ => if scale = 0 then pure (wholeNumber negative n) else scaled negative n scale

/-- A number behind its sign. -/
def unsigned (negative : Bool) : Scan Number := do
  match ← next with
  | none => fail .unfinishedValue
  | some b =>
    if b = 48 then
      if ← peekDigit then failNext .badNumber else afterWhole negative 0 0
    else if Bytes.isDigit b then
      let (n, _) ← significand (Bytes.digit b)
      afterWhole negative n (← digitRun)
    else fail .badNumber

/-- A number, of which the first byte is there. -/
def number : Scan Number := do
  match ← peek with
  | some 45 => drop; unsigned true
  | _ => unsigned false

/-- Passes over a fraction and an exponent. -/
def passExponent : Scan Unit := do
  match ← peek with
  | some 43 | some 45 => drop
  | _ => pure ()
  match ← next with
  | some b => if Bytes.isDigit b then let _ ← digitRun else fail .badNumber
  | none => fail .badNumber

def passFraction : Scan Unit := do
  if (← digitRun) = 0 then failNext .badNumber
  else
    match ← peek with
    | some 101 | some 69 => drop; passExponent
    | _ => pure ()

/-- Passes over a number, of which the first byte is there; its size does not matter. -/
def passNumber : Scan Unit := do
  if (← peek) = some 45 then drop
  match ← next with
  | none => fail .badNumber
  | some b =>
    if b = 48 then
      if ← peekDigit then failNext .badNumber
    else if Bytes.isDigit b then
      let _ ← digitRun
    else fail .badNumber
  match ← peek with
  | some 46 => drop; passFraction
  | some 101 | some 69 => drop; passExponent
  | _ => pure ()

end Json.Scan

end HotSwap

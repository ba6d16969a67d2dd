import HotSwap.Decimal.Digits

/-!
# Durations

A duration of whole milliseconds is written in the greatest unit that it fills, with the fraction
that remains.
-/

namespace HotSwap.Duration

/-- The fraction of a second, without zeros at its end. -/
def fraction (ms : Nat) : String :=
  if ms = 0 then ""
  else "." ++ Digits.trimmed (Digits.padded 3 ms)

def render (ms : Nat) : String :=
  if ms = 0 then "0ns"
  else if ms < 1000 then toString ms ++ "ms"
  else toString (ms / 1000) ++ fraction (ms % 1000) ++ "s"

end HotSwap.Duration

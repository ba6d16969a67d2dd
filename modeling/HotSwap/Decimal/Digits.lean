/-!
# Decimal digits

What digits spell as a number, and how a number is written with enough of them.
-/

namespace HotSwap.Digits

/-- The number that decimal digits spell. -/
def value (cs : List Char) : Nat := cs.foldl (fun n c => 10 * n + (c.toNat - 48)) 0

def signedValue (negative : Bool) (cs : List Char) : Int :=
  if negative then -(value cs : Int) else value cs

/-- Whether a minus sign comes first, and what is behind the sign. -/
def sign : List Char → Bool × List Char
  | '-' :: s => (true, s)
  | '+' :: s => (false, s)
  | s => (false, s)

/-- The digits of a number, with zeros before them if they are fewer than `width`. -/
def padded (width n : Nat) : String :=
  let s := toString n
  String.ofList (List.replicate (width - s.length) '0') ++ s

/-- Without the zeros at the end. -/
def trimmed (s : String) : String :=
  String.ofList (s.toList.reverse.dropWhile (· = '0')).reverse

end HotSwap.Digits

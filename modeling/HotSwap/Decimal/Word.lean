/-!
# Words

A word of some bits holds the natural numbers below a power of two or, if it is signed, half as
many on either side of zero.
-/

namespace HotSwap.Word

/-- How many numbers a word holds. -/
def count (bits : Nat) : Nat := Nat.pow 2 bits

def Fits (bits : Nat) (n : Int) : Prop := 0 ≤ n ∧ n < count bits

/-- A word of a sign and `bits` further bits. -/
def FitsSigned (bits : Nat) (n : Int) : Prop := -(count bits : Int) ≤ n ∧ n < count bits

instance (bits : Nat) (n : Int) : Decidable (Fits bits n) :=
  inferInstanceAs (Decidable (_ ∧ _))

instance (bits : Nat) (n : Int) : Decidable (FitsSigned bits n) :=
  inferInstanceAs (Decidable (_ ∧ _))

end HotSwap.Word

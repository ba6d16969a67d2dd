/-!
# Waiting in line

Calls pass a turnstile as long as it has permits, and otherwise wait in line for more. The guard
lets in one call at a time and is handed on from the call that leaves to the first in line.
-/

namespace HotSwap

abbrev CallId := Nat

structure Turnstile where
  permits : Nat
  queue : List CallId
  /-- Calls that were given a permit while they waited and have not gone through yet. -/
  granted : List CallId
  deriving DecidableEq, Repr

namespace Turnstile

def closed : Turnstile := ⟨0, [], []⟩

/-- Lets the call through, or has it wait. -/
def enter (t : Turnstile) (c : CallId) : Turnstile × Bool :=
  if c ∈ t.granted then ({ t with granted := t.granted.erase c }, true)
  else if c ∈ t.queue then (t, false)
  else if 0 < t.permits then ({ t with permits := t.permits - 1 }, true)
  else ({ t with queue := t.queue ++ [c] }, false)

/-- Permits go to those in line first. -/
def permit (t : Turnstile) (n : Nat) : Turnstile where
  permits := t.permits + (n - t.queue.length)
  queue := t.queue.drop n
  granted := t.granted ++ t.queue.take n

/-- Whom more permits let go on. -/
def admitted (t : Turnstile) (n : Nat) : List CallId := t.queue.take n

/-- Whether the call was given a permit that it has not used. -/
def Owes (t : Turnstile) (c : CallId) : Prop := c ∈ t.granted

instance (t : Turnstile) (c : CallId) : Decidable (t.Owes c) :=
  inferInstanceAs (Decidable (c ∈ t.granted))

def withdraw (t : Turnstile) (c : CallId) : Turnstile :=
  { t with queue := t.queue.erase c, granted := t.granted.erase c }

end Turnstile

structure Guard where
  holder : Option CallId
  queue : List CallId
  deriving DecidableEq, Repr

namespace Guard

def free : Guard := ⟨none, []⟩

def enter? (g : Guard) (c : CallId) : Option Guard :=
  if g.holder = none ∧ g.queue = [] then some ⟨some c, []⟩ else none

/-- Enters, or waits in line. -/
def join (g : Guard) (c : CallId) : Guard :=
  if g.holder = none then { g with holder := some c } else { g with queue := g.queue ++ [c] }

def leave (g : Guard) (c : CallId) : Guard :=
  if g.holder = some c then ⟨g.queue.head?, g.queue.tail⟩ else { g with queue := g.queue.erase c }

end Guard

end HotSwap

import HotSwap.Text.Bytes

/-!
# Places in a text

A place is a line, counted from one, and the number of bytes of that line already read.
-/

namespace HotSwap

structure Position where
  line : Nat
  column : Nat
  deriving Repr, DecidableEq

namespace Position

def start : Position := ⟨1, 0⟩

def next (p : Position) (b : UInt8) : Position :=
  if b = 10 then ⟨p.line + 1, 0⟩ else ⟨p.line, p.column + 1⟩

def after (read : Bytes) : Position := read.foldl next start

/-- The place in `input` where `rest` is still unread. -/
def before (input rest : Bytes) : Position := after (input.take (input.length - rest.length))

end Position

end HotSwap

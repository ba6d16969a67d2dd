import HotSwap.Engine.Basic
import HotSwap.Time.Instant

/-!
# Installed engines

An installation puts an engine to use under a generation. The same engine may be installed again,
which makes another installation.
-/

namespace HotSwap

/-- An engine as a provider made it; each one made has a number of its own. -/
structure Product where
  id : Nat
  engine : Engine

structure Installation where
  id : Nat
  product : Product
  provider : String
  generation : Nat
  installedAt : Instant

namespace Installation

def engine (i : Installation) : Engine := i.product.engine

def render (clock : Instant → String) (i : Installation) : String :=
  Text.braced "InstalledEngine" [
    ("provider", Text.quoted i.provider),
    ("generation", toString i.generation),
    ("installed_at", clock i.installedAt)]

end Installation

end HotSwap

import HotSwap.Server.Journal

/-!
# Finding a provider

A discovery scans the registry, and calls a constructor if there is exactly one to call.
-/

namespace HotSwap

/-- The constructors called so far, each as often as it was called. -/
abbrev Constructed := List Nat

inductive Found where
  | provider (name : String) (constructor : Nat) (recipe : Recipe)
  | failure (e : DiscoveryError)
  | panic (p : Payload)

structure Discovery where
  found : Found
  notes : List Note
  constructed : Constructed

namespace Discovery

/-- What is noted of a registration. -/
def registered (c : Candidate) : Option Note :=
  c.constructor?.map fun _ => .log .debug ("Registered provider candidate " ++ c.name)

def scanned (r : Registry) : Note :=
  .log .debug ("🔍 Scanning " ++ toString r.size ++ " registered provider candidate(s)")

def looked (r : Registry) : List Note := scanned r :: r.warnings.map (.log .warn)

/-- What becomes of calling the constructor of the candidate `name`. -/
def construct (name : String) (id : Nat) (recipe : Recipe) : Found :=
  match recipe.construction with
  | .made () => .provider name id recipe
  | .failed e => .failure (.construction name e)
  | .panic p => .panic p

/-- The discovery that the call `c` makes after others. -/
def run (r : Registry) (context : Context) (c : CallId) (earlier : Constructed) : Discovery :=
  match r.discover with
  | .error e => ⟨.failure e, looked r, earlier⟩
  | .ok (name, k) =>
    let recipe := k.recipe (earlier.count k.id) context
    ⟨construct name k.id recipe,
      looked r ++ [.log .info ("📦 Found provider: " ++ name),
        .constructed c name context recipe.noted],
      k.id :: earlier⟩

end Discovery

end HotSwap

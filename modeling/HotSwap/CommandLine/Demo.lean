import HotSwap.CommandLine.LogFilter
import HotSwap.Engine.Sample
import HotSwap.Server.Startup

/-!
# The engine of the program on its own

Without an application there is still an engine to reload: it tells which reload made it.
-/

namespace HotSwap.CommandLine

def demoEngine (generation : Nat) : Engine :=
  .ofSchema generation (Engine.demoSchema generation)

def demoRecipe (context : Context) : Recipe :=
  ⟨false, .made (), context.generation, none, .made (demoEngine context.generation), false⟩

def demoCandidate : Candidate :=
  ⟨"devserve::demo::DemoProvider", .provider ⟨0, fun _ context => demoRecipe context⟩⟩

def demoRegistry : Registry := Registry.empty.register demoCandidate

/-- The server of the program, before it starts. -/
def demoServer (settings : Settings) (clock : Instant → String) : Server :=
  (Server.ofSettings settings demoRegistry clock).log .info
    ("Server: " ++ settings.host ++ ":" ++ toString settings.port.toNat)

/-- The program reloads on a hangup. -/
def demoLaunch (s : Server) (settings : Settings) (bind : Binding) : Server × Started :=
  s.launch settings [.hangup] bind

/-- The lines that a filter lets through. -/
def reported (f : LogFilter) (notes : List Note) : List String :=
  notes.filterMap fun
    | .log level text => if f.Reports level then some (level.render ++ " " ++ text) else none
    | _ => none

end HotSwap.CommandLine

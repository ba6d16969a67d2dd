/-!
# Why there is no engine

Discovery finds no provider or several, or a provider or its engine cannot be made. Each failure
has a text and, outermost first, the texts of what caused it.
-/

namespace HotSwap

structure ConstructionError where
  message : String
  source : Option String
  deriving DecidableEq, Repr

def ConstructionError.sources (e : ConstructionError) : List String := e.source.toList

/-- What a candidate has to provide. -/
def capability : String := "DevServeProvider"

inductive DiscoveryError where
  | notFound (capability : String)
  | ambiguous (capability : String) (candidates : List String)
  | construction (name : String) (source : ConstructionError)
  deriving DecidableEq, Repr

namespace DiscoveryError

def message : DiscoveryError → String
  | notFound c =>
    "No registered candidate implements " ++ c ++ ". Register a type that implements " ++ c ++
      " and Default with ProviderRegistry::register."
  | ambiguous c names =>
    "Multiple " ++ c ++ " candidates registered: [" ++ ", ".intercalate names ++
      "]. Only one provider should be registered per application."
  | construction name source => "Failed to construct provider " ++ name ++ ": " ++ source.message

def sources : DiscoveryError → List String
  | construction _ source => source.message :: source.sources
  | _ => []

end DiscoveryError

inductive ReloadError where
  | alreadyInProgress
  | discovery (e : DiscoveryError)
  | construction (provider : String) (source : ConstructionError)
  deriving DecidableEq, Repr

namespace ReloadError

def message : ReloadError → String
  | alreadyInProgress => "Reload already in progress"
  | discovery e => e.message
  | construction provider source =>
    "Provider " ++ provider ++ " failed to create an engine: " ++ source.message

/-- A failed discovery stands for itself, so that its causes are its own. -/
def sources : ReloadError → List String
  | alreadyInProgress => []
  | discovery e => e.sources
  | construction _ source => source.message :: source.sources

end ReloadError

inductive TriggerError where
  | unsupported (name : String)
  | registration (name reason : String)
  deriving DecidableEq, Repr

namespace TriggerError

def message : TriggerError → String
  | unsupported name => "Reload trigger " ++ name ++ " is not supported on this platform"
  | registration name reason => "Failed to register reload trigger " ++ name ++ ": " ++ reason

def sources : TriggerError → List String
  | unsupported _ => []
  | registration _ reason => [reason]

end TriggerError

/-- Why the server does not start or stop as it should. -/
inductive ServerError where
  | reload (e : ReloadError)
  | config (reason : String)
  | bind (address reason : String)
  | server (reason : String)
  | invalidInput (reason : String)
  deriving DecidableEq, Repr

namespace ServerError

def message : ServerError → String
  | reload e => "Failed to load engine: " ++ e.message
  | config reason => "Configuration error: " ++ reason
  | bind address reason => "Failed to bind " ++ address ++ ": " ++ reason
  | server reason => "Server error: " ++ reason
  | invalidInput reason => "Invalid input: " ++ reason

def sources : ServerError → List String
  | reload e => e.message :: e.sources
  | config reason => [reason]
  | _ => []

end ServerError

end HotSwap

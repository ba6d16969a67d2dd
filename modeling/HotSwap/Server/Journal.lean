import HotSwap.Server.Call

/-!
# What a server did

A journal tells all that happened, in order. Engines and constructors show their calls only if they
are noted, and a log shows what is severe enough.
-/

namespace HotSwap

inductive Level where
  | error
  | warn
  | info
  | debug
  deriving DecidableEq, Repr

namespace Level

def all : List Level := [error, warn, info, debug]

def render : Level → String
  | error => "ERROR"
  | warn => "WARN"
  | info => "INFO"
  | debug => "DEBUG"

def rank : Level → Nat
  | error => 1
  | warn => 2
  | info => 3
  | debug => 4

end Level

inductive Event where
  | constructed (provider : String) (context : Context)
  | asked (provider : String) (tag : Nat)
  | executed (tag : Nat)
  | requested (r : Graphql.Request)
  | released (tag : Nat)

inductive Note where
  | log (level : Level) (text : String)
  | called (c : CallId) (a : Activity)
  | ended (c : CallId) (a : Answer)
  /-- A reload passed the guard. -/
  | begun (c : CallId) (generation : Nat)
  | constructed (c : CallId) (provider : String) (context : Context) (noted : Bool)
  | asked (c : CallId) (provider : String) (tag : Nat) (noted : Bool)
  | installed (i : Installation) (previous : Option Installation)
  | taken (i : Installation)
  | executed (c : CallId) (i : Installation) (input : Graphql.Request)
  | released (c : CallId) (i : Installation)
  /-- The engine is done releasing what it owned, or could not. -/
  | releaseEnded (c : CallId) (i : Installation)
  /-- What a reload came to, whoever is told of it. -/
  | returned (c : CallId) (result : Except ReloadError Report)

namespace Note

def event? : Note → Option Event
  | constructed _ provider context noted =>
    if noted then some (.constructed provider context) else none
  | asked _ provider tag noted => if noted then some (.asked provider tag) else none
  | executed _ i input =>
    match i.engine.noted with
    | .nothing => none
    | .calls => some (.executed i.engine.tag)
    | .requests => some (.requested input)
  | released _ i => if i.engine.noted = .calls then some (.released i.engine.tag) else none
  | _ => none

/-- The line of a log that reports nothing less severe than `least`. -/
def line? (least : Level) : Note → Option String
  | log level text =>
    if level.rank ≤ least.rank then some (level.render ++ " " ++ text) else none
  | _ => none

end Note

end HotSwap

import HotSwap.Proofs.Standing.Basic

/-!
# Moves

A step of the server changes its standing by at most one move. A move belongs to one call, which
goes on, stops, or does one of the few things that touch the slot, the guard or the status.
-/

namespace HotSwap

/-- What the origin of a reload is told. -/
def Origin.answer (cors : Bool) (o : Origin) (result : Except ReloadError Report) : Answer :=
  match o with
  | .http r => .response (r.dress cors (Server.reloadResponse result))
  | _ => Server.answerOf result

/-- The activities of a call that retires an engine, by the retirement. -/
inductive Activity.Retires : (Retirement → Activity) → Prop
  | reload (o : Origin) (a : Attempt) (p : String) :
      Retires fun r => .reload o (.retiring a p r)
  | shutdown : Retires fun r => .shutdown (.retiring r)
  | background : Retires .retirement

namespace Standing

/-- What can begin. -/
inductive Opens (v : Standing) : Activity → Prop
  | reload (o : Origin) (other : ∀ r, o ≠ .http r) : Opens v (.reload o .arriving)
  | shutdown : Opens v (.shutdown .arriving)
  | request (r : Http.Request) : Opens v (.request r)
  | execution {name : String} {i : Installation} (input : Graphql.Request)
      (kept : (name, i) ∈ v.kept) : Opens v (.execution i input)
  | listener (source : Source) : Opens v (.listener source)

variable (v : Standing) (c : CallId)

/-- The call goes on from one activity to another. What it changes besides is the standing in
between, and what it notes. -/
inductive Goes : Activity → Standing → List Note → Activity → Prop
  | query {r : Http.Request} {body : Bytes} (planned : r.plan v.setup.cors = .query body) :
      Goes (.request r) v [] (.query r (.arriving body))
  | reload {r : Http.Request} (planned : r.plan v.setup.cors = .reload) :
      Goes (.request r) v [] (.reload (.http r) .arriving)
  | status {r : Http.Request} (planned : r.plan v.setup.cors = .status) :
      Goes (.request r) v [] (.status r)
  | parse {r : Http.Request} {body : Bytes} {input : Graphql.Request}
      (parsed : Graphql.Request.parse body = .ok input) :
      Goes (.query r (.arriving body)) v [] (.query r (.parsed input))
  | hold {r : Http.Request} {input : Graphql.Request} {i : Installation}
      (slot : v.slot = some i) :
      Goes (.query r (.parsed input)) v [] (.query r (.holding i input))
  | execute {r : Http.Request} {input : Graphql.Request} {i : Installation} :
      Goes (.query r (.holding i input)) v [.executed c i input] (.query r (.executing i input))
  | look {r : Http.Request} : Goes (.status r) v [] (.statusOf r v.slot)
  | call {input : Graphql.Request} {i : Installation} :
      Goes (.execution i input) v [.executed c i input] (.executing i input)
  | enter {o : Origin} {g : Guard} {now : Time} (enters : v.guard.enter? c = some g) :
      Goes (.reload o .arriving)
        { v with guard := g, nextGeneration := v.nextGeneration + 1 }
        [.begun c v.nextGeneration] (.reload o (.numbered ⟨v.nextGeneration, now⟩))
  | mark {o : Origin} {a : Attempt} {now : Instant} :
      Goes (.reload o (.numbered a)) { v with status := v.status.begin now } []
        (.reload o (.building a))
  | misfind {o : Origin} {a : Attempt} {e : DiscoveryError}
      (failed : v.setup.registry.discover = .error e) :
      Goes (.reload o (.building a)) v [] (.reload o (.failing a (.discovery e)))
  | misconstruct {o : Origin} {a : Attempt} {name : String} {k : Constructor} {n : Nat}
      {e : ConstructionError} (discovered : v.setup.registry.discover = .ok (name, k))
      (failed : (k.recipe n (v.context a)).construction = .failed e) :
      Goes (.reload o (.building a)) v
        [.constructed c name (v.context a) (k.recipe n (v.context a)).noted]
        (.reload o (.failing a (.discovery (.construction name e))))
  | construct {o : Origin} {a : Attempt} {name : String} {k : Constructor} {n : Nat}
      (discovered : v.setup.registry.discover = .ok (name, k))
      (made : (k.recipe n (v.context a)).construction = .made ()) :
      Goes (.reload o (.building a)) v
        [.constructed c name (v.context a) (k.recipe n (v.context a)).noted]
        (.reload o (.constructed a name k.id (k.recipe n (v.context a))))
  | ask {o : Origin} {a : Attempt} {name : String} {k : Nat} {recipe : Recipe} :
      Goes (.reload o (.constructed a name k recipe)) v [.asked c name recipe.tag recipe.noted]
        (.reload o (.asking a name k recipe))
  | misask {o : Origin} {a : Attempt} {name : String} {k : Nat} {recipe : Recipe}
      {e : ConstructionError} (failed : recipe.engine = .failed e) :
      Goes (.reload o (.asking a name k recipe)) v []
        (.reload o (.failing a (.construction name e)))
  | obtain {o : Origin} {a : Attempt} {name : String} {k : Nat} {recipe : Recipe}
      {product : Product} {engine : Engine} {n : Nat} (later : v.fresh ≤ n)
      (made : recipe.engine = .made engine) :
      Goes (.reload o (.asking a name k recipe)) { v with fresh := n } []
        (.reload o (.installing a name product))
  /-- What is installed replaces the old engine, which retires. -/
  | replace {o : Origin} {a : Attempt} {p : String} {product : Product} {now : Instant}
      {old : Installation} {d : Option Time} (slot : v.slot = some old) :
      Goes (.reload o (.installing a p product))
        { v with slot := some ⟨v.fresh, product, p, a.generation, now⟩, fresh := v.fresh + 1 }
        [.installed ⟨v.fresh, product, p, a.generation, now⟩ (some old)]
        (.reload o (.retiring a p ⟨old, d, .polling⟩))
  | install {o : Origin} {a : Attempt} {p : String} {product : Product} {now : Instant}
      (slot : v.slot = none) :
      Goes (.reload o (.installing a p product))
        { v with slot := some ⟨v.fresh, product, p, a.generation, now⟩, fresh := v.fresh + 1 }
        [.installed ⟨v.fresh, product, p, a.generation, now⟩ none]
        (.reload o (.completing a p none))
  | join : Goes (.shutdown .arriving) { v with guard := v.guard.join c } [] (.shutdown .queued)
  | take {i : Installation} {d : Option Time} (holds : v.guard.holder = some c)
      (slot : v.slot = some i) :
      Goes (.shutdown .queued) { v with slot := none } [.taken i]
        (.shutdown (.retiring ⟨i, d, .polling⟩))
  | sleep {K : Retirement → Activity} (hK : Activity.Retires K) {i : Installation}
      {d : Option Time} {t : Time} (inUse : v.InUse i) :
      Goes (K ⟨i, d, .polling⟩) v [] (K ⟨i, d, .sleeping t⟩)
  | wake {K : Retirement → Activity} (hK : Activity.Retires K) {i : Installation}
      {d : Option Time} {t : Time} :
      Goes (K ⟨i, d, .sleeping t⟩) v [] (K ⟨i, d, .polling⟩)
  | clear {K : Retirement → Activity} (hK : Activity.Retires K) {i : Installation}
      {d : Option Time} (unused : ¬ v.InUse i) :
      Goes (K ⟨i, d, .polling⟩) v [] (K ⟨i, d, .free⟩)
  | release {K : Retirement → Activity} (hK : Activity.Retires K) {i : Installation}
      {d : Option Time} :
      Goes (K ⟨i, d, .free⟩) v [.released c i] (K ⟨i, d, .releasing⟩)
  | released {o : Origin} {a : Attempt} {p : String} {i : Installation} {d : Option Time} :
      Goes (.reload o (.retiring a p ⟨i, d, .releasing⟩)) v [.releaseEnded c i]
        (.reload o (.completing a p (some i.generation)))

/-- The call stops with an answer. What it changes besides is the standing in between, and what it
notes. -/
inductive Stops : Activity → Standing → List Note → Answer → Prop
  | respond {r : Http.Request} {response : Http.Response} {warning : Option String}
      (planned : r.plan v.setup.cors = .respond response warning) :
      Stops (.request r) v [] (.response (r.dress v.setup.cors response))
  | malformed {r : Http.Request} {body : Bytes} {e : Json.ReadError}
      (failed : Graphql.Request.parse body = .error e) :
      Stops (.query r (.arriving body)) v []
        (.response (r.dress v.setup.cors (Server.malformedResponse e)))
  | unavailable {r : Http.Request} {input : Graphql.Request} (empty : v.slot = none) :
      Stops (.query r (.parsed input)) v []
        (.response (r.dress v.setup.cors Server.unavailableResponse))
  | executed {r : Http.Request} {i : Installation} {input : Graphql.Request} :
      Stops (.query r (.executing i input)) v []
        (.response (r.dress v.setup.cors (Server.queryResponse (i.engine.execute input))))
  | told {r : Http.Request} {current : Option Installation} {j : Json} :
      Stops (.statusOf r current) v []
        (.response (r.dress v.setup.cors (Server.jsonResponse 200 j)))
  | outcome {i : Installation} {input : Graphql.Request} :
      Stops (.executing i input) v [] (.outcome (i.engine.execute input))
  | refuse {o : Origin} (refused : v.guard.enter? c = none) :
      Stops (.reload o .arriving) v [.returned c (.error .alreadyInProgress)]
        (o.answer v.setup.cors (.error .alreadyInProgress))
  | constructorPanic {o : Origin} {a : Attempt} {name : String} {k : Constructor} {n : Nat}
      {p : Payload} (discovered : v.setup.registry.discover = .ok (name, k))
      (panicked : (k.recipe n (v.context a)).construction = .panic p) :
      Stops (.reload o (.building a)) v
        [.constructed c name (v.context a) (k.recipe n (v.context a)).noted] (.panic p)
  | makerPanic {o : Origin} {a : Attempt} {name : String} {k : Nat} {recipe : Recipe} {p : Payload}
      (panicked : recipe.engine = .panic p) :
      Stops (.reload o (.asking a name k recipe)) v [] (.panic p)
  | succeed {o : Origin} {a : Attempt} {p : String} {previous : Option Nat} {now : Instant}
      {ms : Nat} :
      Stops (.reload o (.completing a p previous))
        { v with status := v.status.succeed now a.generation }
        [.returned c (.ok ⟨p, a.generation, previous, ms⟩)]
        (o.answer v.setup.cors (.ok ⟨p, a.generation, previous, ms⟩))
  | fail {o : Origin} {a : Attempt} {e : ReloadError} {now : Instant} :
      Stops (.reload o (.failing a e))
        { v with status := (v.status.fail now e.message).settle }
        [.returned c (.error e)] (o.answer v.setup.cors (.error e))
  | releasePanic {K : Retirement → Activity} (hK : Activity.Retires K) {i : Installation}
      {d : Option Time} {p : Payload} (panicked : i.engine.release = .panic p) :
      Stops (K ⟨i, d, .releasing⟩) v [] (.panic p)
  | vacant (holds : v.guard.holder = some c) (empty : v.slot = none) :
      Stops (.shutdown .queued) v [] .done
  | shutdown {i : Installation} {d : Option Time} :
      Stops (.shutdown (.retiring ⟨i, d, .releasing⟩)) v [.releaseEnded c i] .done
  | background {i : Installation} {d : Option Time} :
      Stops (.retirement ⟨i, d, .releasing⟩) v [.releaseEnded c i] .done
  | listener {source : Source} : Stops (.listener source) v [] .done

/-- What a step does to the standing of a server. -/
inductive Move : Server.Action → Standing → Prop
  | rest {act : Server.Action} : Move act v
  | number {act : Server.Action} : Move act { v with fresh := v.fresh + 1 }
  | keep {act : Server.Action} {ks : List (String × Installation)}
      (kept : ∀ k ∈ ks, k ∈ v.kept ∨ v.slot = some k.2) : Move act { v with kept := ks }
  | start {act : Server.Action} {a : Activity} (opens : v.Opens a) : Move act (v.begin a)
  | cut {c : CallId} {a : Activity} (known : ⟨c, a⟩ ∈ v.calls) :
      Move (.cancel c) (v.finish c .cancelled)
  | go {c : CallId} {a b : Activity} {u : Standing} {es : List Note} (known : ⟨c, a⟩ ∈ v.calls)
      (goes : Goes v c a u es b) : Move (.proceed c) ((u.notes es).proceedTo c b)
  | stop {c : CallId} {a : Activity} {u : Standing} {es : List Note} {x : Answer}
      (known : ⟨c, a⟩ ∈ v.calls) (stops : Stops v c a u es x) :
      Move (.proceed c) ((u.notes es).finish c x)
  /-- The rest of a retirement is left to the background, and the reload goes on. -/
  | leave {c : CallId} {o : Origin} {a : Attempt} {p : String} {i : Installation}
      {d : Option Time} (known : ⟨c, .reload o (.retiring a p ⟨i, d, .polling⟩)⟩ ∈ v.calls)
      (inUse : v.InUse i) :
      Move (.proceed c)
        ((v.begin (.retirement ⟨i, none, .polling⟩)).proceedTo c
          (.reload o (.completing a p (some i.generation))))
  | leaveAll {c : CallId} {K : Retirement → Activity} (hK : Activity.Retires K)
      (outside : ∀ o stage r, K r ≠ .reload o stage) {i : Installation} {d : Option Time}
      (known : ⟨c, K ⟨i, d, .polling⟩⟩ ∈ v.calls) (inUse : v.InUse i) :
      Move (.proceed c) ((v.begin (.retirement ⟨i, none, .polling⟩)).finish c .done)

variable {v : Standing} {c : CallId} {a b : Activity} {u : Standing} {es : List Note}

/-- What no call changes besides itself. -/
structure Frame (v u : Standing) : Prop where
  setup : u.setup = v.setup
  calls : u.calls = v.calls
  answers : u.answers = v.answers
  kept : u.kept = v.kept
  history : u.history = v.history
  fresh : v.fresh ≤ u.fresh

theorem Goes.frame (goes : Goes v c a u es b) : Frame v u := by
  cases goes with
  | obtain later => exact ⟨rfl, rfl, rfl, rfl, rfl, later⟩
  | replace | install => exact ⟨rfl, rfl, rfl, rfl, rfl, Nat.le_succ _⟩
  | _ => exact ⟨rfl, rfl, rfl, rfl, rfl, Nat.le_refl _⟩

theorem Stops.frame {x : Answer} (stops : Stops v c a u es x) : Frame v u := by
  cases stops <;> exact ⟨rfl, rfl, rfl, rfl, rfl, Nat.le_refl _⟩

end Standing

end HotSwap

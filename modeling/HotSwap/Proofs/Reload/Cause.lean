import HotSwap.Proofs.Routing
import HotSwap.Proofs.Standing.Guard

/-!
# Why reloads fail

A reload that fails past the guard found no candidate or several, or a constructor or a maker of
engines gave it an error. What it reports names that cause, and it answers whoever asked for it.
-/

namespace HotSwap

namespace Registry

variable {r : Registry}

theorem eligible_of_discover {found : String × Constructor} (discovered : r.discover = .ok found) :
    r.eligible = [found] := by
  unfold discover at discovered
  split at discovered
  · cases discovered
  · next only =>
    cases discovered
    exact only
  · cases discovered

end Registry

/-- Why there is no engine for a generation. -/
inductive Setup.Fails (setup : Setup) (generation : Nat) : ReloadError → Prop
  | notFound (none : setup.registry.eligible = []) :
      Fails setup generation (.discovery (.notFound capability))
  | ambiguous (several : 1 < setup.registry.eligible.length) :
      Fails setup generation
        (.discovery (.ambiguous capability (setup.registry.eligible.map (·.1))))
  | construction {name : String} {k : Constructor} {n : Nat} {e : ConstructionError}
      (only : setup.registry.eligible = [(name, k)])
      (failed : (k.recipe n ⟨setup.classpath, generation⟩).construction = .failed e) :
      Fails setup generation (.discovery (.construction name e))
  | engine {name : String} {k : Constructor} {n : Nat} {e : ConstructionError}
      (only : setup.registry.eligible = [(name, k)])
      (made : (k.recipe n ⟨setup.classpath, generation⟩).construction = .made ())
      (failed : (k.recipe n ⟨setup.classpath, generation⟩).engine = .failed e) :
      Fails setup generation (.construction name e)

/-- What the provider gave as the error. -/
def ReloadError.provided? : ReloadError → Option ConstructionError
  | .discovery (.construction _ e) => some e
  | .construction _ e => some e
  | _ => none

theorem ReloadError.message_provided {e : ReloadError} {source : ConstructionError}
    (provided : e.provided? = some source) : ∃ start, e.message = start ++ source.message := by
  cases e with
  | alreadyInProgress => cases provided
  | discovery e =>
    cases e with
    | construction name e =>
      cases provided
      exact ⟨_, rfl⟩
    | _ => cases provided
  | construction name e =>
    cases provided
    exact ⟨_, rfl⟩

namespace Setup

variable {setup : Setup} {generation : Nat} {e : ReloadError}

theorem fails_of_discover {e : DiscoveryError} (failed : setup.registry.discover = .error e) :
    setup.Fails generation (.discovery e) := by
  unfold Registry.discover at failed
  split at failed
  · next none =>
    cases failed
    exact .notFound none
  · cases failed
  · next many notNone notOne =>
    cases failed
    apply Fails.ambiguous
    match found : setup.registry.eligible with
    | [] => exact absurd found notNone
    | [only] => exact absurd found (notOne only)
    | _ :: _ :: _ => exact Nat.succ_lt_succ (Nat.succ_pos _)

end Setup

/-- What a stage of a reload says is what the providers did. -/
def Reload.Stage.Faithful (setup : Setup) : Reload.Stage → Prop
  | .constructed a name _ recipe | .asking a name _ recipe =>
    ∃ k n, setup.registry.eligible = [(name, k)] ∧
      recipe = k.recipe n ⟨setup.classpath, a.generation⟩ ∧ recipe.construction = .made ()
  | .failing a e => setup.Fails a.generation e
  | _ => True

/-- What a reload says is what the providers did, and what asked for it over HTTP may. -/
def Activity.Faithful (setup : Setup) : Activity → Prop
  | .reload o stage => (∀ r, o = .http r → r.plan setup.cors = .reload) ∧ stage.Faithful setup
  | _ => True

namespace Standing

variable {v w u : Standing} {c : CallId} {a b : Activity} {es : List Note} {act : Server.Action}

theorem Goes.faithful (goes : Goes v c a u es b) (faithful : a.Faithful v.setup) :
    b.Faithful v.setup := by
  cases goes with
  | reload planned =>
    refine ⟨?_, trivial⟩
    rintro r ⟨⟩
    exact planned
  | misfind failed => exact ⟨faithful.1, Setup.fails_of_discover failed⟩
  | misconstruct discovered failed =>
    exact ⟨faithful.1, .construction (Registry.eligible_of_discover discovered) failed⟩
  | construct discovered made =>
    exact ⟨faithful.1, _, _, Registry.eligible_of_discover discovered, rfl, made⟩
  | ask => exact faithful
  | misask failed =>
    obtain ⟨posted, k, n, only, rfl, made⟩ := faithful
    exact ⟨posted, .engine only made failed⟩
  | sleep hK | wake hK | clear hK | release hK =>
    cases hK with
    | reload => exact faithful
    | _ => trivial
  | enter | mark | obtain | replace | install | released => exact ⟨faithful.1, trivial⟩
  | _ => trivial

theorem Opens.faithful (opens : v.Opens a) : a.Faithful v.setup := by
  cases opens with
  | reload o other => exact ⟨fun r same => absurd same (other r), trivial⟩
  | _ => trivial

theorem Move.faithful (moved : v.Move act w)
    (faithful : ∀ call ∈ v.calls, call.activity.Faithful v.setup) :
    ∀ call ∈ w.calls, call.activity.Faithful w.setup := by
  intro call present
  rw [moved.setup]
  cases moved.comes present with
  | stays known => exact faithful call known
  | begins _ opens => exact opens.faithful
  | proceeds known goes => exact goes.faithful (faithful _ known)
  | handed _ retires =>
    rw [retires]
    trivial
  | completes known completing =>
    rw [completing]
    exact ⟨(faithful _ known).1, trivial⟩

end Standing

namespace Server

theorem faithful_run (setup : Setup) (actions : List Action) :
    ∀ call ∈ ((start setup).run actions).calls,
      call.activity.Faithful ((start setup).run actions).setup :=
  standing_run (s := start setup)
    (P := fun v => ∀ call ∈ v.calls, call.activity.Faithful v.setup) actions
    (List.forall_mem_nil _) fun moved held => moved.faithful held

theorem setup_run (s : Server) (actions : List Action) : (s.run actions).setup = s.setup :=
  standing_run (P := fun v => v.setup = s.setup) actions rfl fun moved held =>
    moved.setup.trans held

end Server

end HotSwap

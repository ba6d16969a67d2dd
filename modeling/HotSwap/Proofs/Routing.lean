import HotSwap.Http.Routing

/-!
# What is answered to which requests

Reloads and queries take messages that are posted, each to one path, and what is posted is answered
with the body. What needs no engine is never answered for want of one.
-/

namespace HotSwap.Http

/-! ## Targets -/

namespace Target

/-- A run of characters ends where another character follows. -/
theorem takeWhile_run {p : Char → Bool} {c : Char} {run : List Char} (all : ∀ d ∈ run, p d)
    (stop : p c = false) (rest : List Char) :
    (run ++ c :: rest).takeWhile p = run ∧ (run ++ c :: rest).dropWhile p = c :: rest := by
  have ends : ¬ p c := by
    rw [stop]
    exact Bool.false_ne_true
  rw [List.takeWhile_append_of_pos all, List.dropWhile_append_of_pos all,
    List.takeWhile_cons_of_neg ends, List.dropWhile_cons_of_neg ends]
  exact ⟨List.append_nil run, rfl⟩

/-- Behind a scheme and an authority there is the path that would be there without them, whatever
the scheme. -/
theorem absolute?_eq {scheme authority path : List Char} (letters : ∀ c ∈ scheme, isSchemeChar c)
    (short : scheme.length ≤ longestScheme) (unmarked : ∀ c ∈ authority, isMark c = false) :
    absolute? (scheme ++ ':' :: '/' :: '/' :: (authority ++ '/' :: path)) =
      if IsAuthority authority then pathOf? ('/' :: path) else none := by
  have colon : isSchemeChar ':' = false := by decide
  have slash : (!isMark '/') = false := by decide
  obtain ⟨name, behind⟩ := takeWhile_run letters colon ('/' :: '/' :: (authority ++ '/' :: path))
  have inside : ∀ c ∈ authority, !isMark c := by
    intro c there
    rw [unmarked c there]
    rfl
  obtain ⟨host, left⟩ := takeWhile_run inside slash path
  have after : afterScheme? (scheme ++ ':' :: '/' :: '/' :: (authority ++ '/' :: path)) =
      some (authority ++ '/' :: path) := by
    rw [afterScheme?, behind]
    rfl
  rw [absolute?, after, Option.bind_some, name, host, left]
  simp only [short, true_and]

example : path? "HTTP://localhost/reload" = path? "/reload" := by decide

example : path? "http:///reload" = none := by decide

end Target

/-! ## Plans -/

/-- What is done for a request beyond an answer at once is what its route plans, which allows it. -/
theorem Request.routed_of_plan {r : Request} {cors : Bool} {p : Plan} (planned : r.plan cors = p)
    (waits : ∀ response warning, p ≠ .respond response warning) :
    ∃ route, r.route? = some route ∧ route.Allows r.method ∧ route.plan r.body = p := by
  unfold plan at planned
  split at planned
  · exact absurd planned.symm (waits _ _)
  · unfold planDirect at planned
    split at planned
    · exact absurd planned.symm (waits _ _)
    · next route routed =>
      split at planned
      · next allows => exact ⟨route, routed, allows, planned⟩
      · exact absurd planned.symm (waits _ _)

theorem Route.assetPlan_eq (file : List Char) :
    ∃ response warning, assetPlan file = .respond response warning := by
  unfold assetPlan
  split
  · exact ⟨_, _, rfl⟩
  · split <;> exact ⟨_, _, rfl⟩

theorem Route.eq_reload_of_plan {route : Route} {body : Bytes}
    (planned : route.plan body = .reload) :
    route = .reload := by
  cases route with
  | reload => rfl
  | graphql =>
    simp only [Route.plan] at planned
    split at planned <;> cases planned
  | asset file =>
    obtain ⟨response, warning, same⟩ := assetPlan_eq file
    cases same.symm.trans planned
  | _ => cases planned

theorem Route.eq_graphql_of_plan {route : Route} {body read : Bytes}
    (planned : route.plan body = .query read) : route = .graphql := by
  cases route with
  | graphql => rfl
  | asset file =>
    obtain ⟨response, warning, same⟩ := assetPlan_eq file
    cases same.symm.trans planned
  | _ => cases planned

/-- A route with a name of its own is found under that name only. -/
theorem Route.ofPath?_fixed {path : List Char} {route : Route} (routed : ofPath? path = some route)
    (named : ∀ file, route ≠ .asset file) : ∃ f ∈ fixed, f.1.toList = path ∧ f.2 = route := by
  unfold ofPath? at routed
  split at routed
  · next f found =>
    cases routed
    exact ⟨f, List.mem_of_find?_eq_some found, by simpa using List.find?_some found, rfl⟩
  · split at routed
    · split at routed
      · cases routed
      · cases routed
        exact absurd rfl (named _)
    · cases routed

/-- The request is posted to a path. -/
def Request.PostsTo (r : Request) (path : String) : Prop :=
  r.method = "POST" ∧ r.path = path.toList

/-- Reloads are asked for by what is posted to one path. -/
theorem Request.posted_of_plan_reload {r : Request} {cors : Bool}
    (planned : r.plan cors = .reload) :
    r.PostsTo "/reload" := by
  obtain ⟨route, routed, allows, plans⟩ := routed_of_plan planned (by simp)
  cases Route.eq_reload_of_plan plans
  obtain ⟨f, named, path, same⟩ := Route.ofPath?_fixed routed (by simp)
  have only : ∀ f ∈ Route.fixed, f.2 = .reload → f.1 = "/reload" := by decide
  exact ⟨by simpa [Route.Allows, Route.IsPost] using allows, by rw [← path, only f named same]⟩

/-- Queries are asked for by what is posted to another. -/
theorem Request.posted_of_plan_query {r : Request} {cors : Bool} {body : Bytes}
    (planned : r.plan cors = .query body) : r.PostsTo "/graphql" := by
  obtain ⟨route, routed, allows, plans⟩ := routed_of_plan planned (by simp)
  cases Route.eq_graphql_of_plan plans
  obtain ⟨f, named, path, same⟩ := Route.ofPath?_fixed routed (by simp)
  have only : ∀ f ∈ Route.fixed, f.2 = .graphql → f.1 = "/graphql" := by decide
  exact ⟨by simpa [Route.Allows, Route.IsPost] using allows, by rw [← path, only f named same]⟩

/-- A reload is asked for by a message that is posted. -/
theorem Request.method_of_plan {r : Request} {cors : Bool} (planned : r.plan cors = .reload) :
    r.method = "POST" :=
  (posted_of_plan_reload planned).1

/-- Sharing across origins concerns requests for options only. -/
theorem Request.plan_of_ne {r : Request} (other : r.method ≠ "OPTIONS") (cors : Bool) :
    r.plan cors = r.planDirect :=
  if_neg fun both => other both.2

/-- No route allows requests for options, which are answered at once for one reason or another. -/
theorem Request.plan_options {r : Request} (asks : r.method = "OPTIONS") (cors : Bool) :
    ∃ response, r.plan cors = .respond response none := by
  unfold plan
  split
  · exact ⟨_, rfl⟩
  · unfold planDirect
    split
    · exact ⟨_, rfl⟩
    · next route _ =>
      have refused : ¬ route.Allows r.method := by
        unfold Route.Allows
        rw [asks]
        split <;> decide
      exact ⟨_, if_neg refused⟩

/-- A query is read unless its body is too long. -/
theorem Request.plan_graphql {r : Request} (posted : r.method = "POST")
    (routed : r.route? = some .graphql) (cors : Bool) :
    r.plan cors =
      if Route.bodyLimit < r.body.length then .respond Route.tooLong none else .query r.body := by
  have other : ¬ (cors = true ∧ r.method = "OPTIONS") := by
    rw [posted]
    exact fun both => absurd both.2 (by decide)
  have allowed : Route.graphql.Allows r.method := posted
  rw [plan, if_neg other, planDirect, routed]
  simp only [if_pos allowed, Route.plan]

/-- Nothing that is answered at once lacks a service. -/
theorem Route.status_of_plan {route : Route} {body : Bytes} {response : Response}
    {warning : Option String} (planned : route.plan body = .respond response warning) :
    response.status ≠ 503 := by
  cases route with
  | graphql =>
    simp only [Route.plan] at planned
    split at planned
    · cases planned
      decide
    · cases planned
  | asset file =>
    simp only [Route.plan, Route.assetPlan] at planned
    split at planned
    · cases planned
      decide
    · split at planned <;> cases planned <;> exact nofun
  | reload | status => cases planned
  | _ =>
    cases planned
    exact nofun

theorem Request.status_of_plan {r : Request} {cors : Bool} {response : Response}
    {warning : Option String} (planned : r.plan cors = .respond response warning) :
    response.status ≠ 503 := by
  unfold plan at planned
  split at planned
  · cases planned
    exact nofun
  · unfold planDirect at planned
    split at planned
    · cases planned
      exact nofun
    · split at planned
      · exact Route.status_of_plan planned
      · cases planned
        exact nofun

theorem Request.status_dress (r : Request) (cors : Bool) (response : Response) :
    (r.dress cors response).status = response.status := by
  unfold dress
  split <;> split <;> rfl

/-- What is posted is answered with the body. -/
theorem Request.body_dress {r : Request} (posted : r.method = "POST") (cors : Bool)
    (response : Response) : (r.dress cors response).body = response.body := by
  have other : r.method ≠ "HEAD" := by rw [posted]; decide
  unfold dress
  simp only [if_neg other]
  split <;> rfl

end HotSwap.Http

import HotSwap.Proofs.Admission.Line
import HotSwap.Proofs.Requests.Course
import HotSwap.Proofs.Requests.Responses

/-!
# The outcome of a query

A query is refused before it looks for an engine, or is answered with what it finds. It gets there
by itself unless it has to wait at the gate of its engine, and it changes nothing but its own call.
-/

namespace HotSwap

namespace Activity

/-- The call answers the request, of which it may not know yet what is asked for. -/
def Asks (r : Http.Request) : Activity → Prop
  | request q => q = r
  | query q _ => q = r
  | _ => False

/-- The call answers a request, and not by a reload. -/
def Aloof : Activity → Prop
  | request _ | query _ _ | status _ | statusOf _ _ => True
  | _ => False

/-- How often the call has to be let on at most. -/
def due : Activity → Nat
  | request _ => 5
  | query _ (.arriving _) => 4
  | query _ (.parsed _) => 3
  | query _ (.holding _ _) => 2
  | query _ (.executing _ _) => 1
  | _ => 0

variable {a : Activity} {r : Http.Request}

theorem Asks.aloof (asks : a.Asks r) : a.Aloof := by
  cases a with
  | request | query => trivial
  | _ => exact asks.elim

theorem Aloof.not_contends (aloof : a.Aloof) : ¬ a.Contends := by
  rintro (rfl | inside)
  · exact aloof
  · cases a with
    | request | query | status | statusOf => exact inside
    | _ => exact aloof

theorem due_le (a : Activity) : a.due ≤ 5 := by
  unfold due
  split <;> decide

theorem Asks.due_pos (asks : a.Asks r) : 0 < a.due := by
  cases a with
  | request => exact Nat.succ_pos _
  | query q stage => cases stage <;> exact Nat.succ_pos _
  | _ => exact asks.elim

end Activity

theorem Origin.answer_ne_cancelled (cors : Bool) (o : Origin) (result : Except ReloadError Report) :
    o.answer cors result ≠ .cancelled := by
  cases o <;> cases result <;> exact nofun

namespace Standing

variable {v w u : Standing} {c : CallId} {a b : Activity} {es : List Note} {x : Answer}
  {act : Server.Action} {r : Http.Request}

/-! Whoever answers a request leaves what reloads are about as it is, unless it asks for one. -/

/-- What reloads are about. -/
structure Unchanged (v w : Standing) : Prop where
  slot : w.slot = v.slot
  status : w.status = v.status
  nextGeneration : w.nextGeneration = v.nextGeneration
  guard : w.guard = v.guard

theorem Goes.unchanged (goes : Goes v c a u es b) (aloof : a.Aloof) : u = v := by
  cases goes with
  | sleep hK | wake hK | clear hK | release hK => cases hK <;> exact aloof.elim
  | enter | mark | obtain | replace | install | join | take => exact aloof.elim
  | _ => rfl

theorem Stops.unchanged (stops : Stops v c a u es x) (aloof : a.Aloof) : u = v := by
  cases stops with
  | succeed | fail => exact aloof.elim
  | _ => rfl

/-- Nothing but the call itself changes when it goes on or is cut off. -/
theorem Move.unchanged (moved : v.Move act w) (lined : v.Lined) (known : ⟨c, a⟩ ∈ v.calls)
    (aloof : a.Aloof) (own : act = .proceed c ∨ act = .cancel c) : Unchanged v w := by
  -- the call is not in line at the guard, which its end therefore leaves as it is
  have outside : c ∉ v.guard.line := fun there =>
    aloof.not_contends ((lined.distinct.contender_iff known).mp ((lined.mem_line c).mp there))
  have guard : v.guard.leave c = v.guard := Guard.leave_of_not_mem outside
  have same {b : Activity} (present : ⟨c, b⟩ ∈ v.calls) : b.Aloof :=
    lined.distinct.activity_eq known present ▸ aloof
  cases moved with
  | rest => exact ⟨rfl, rfl, rfl, rfl⟩
  | number => exact ⟨rfl, rfl, rfl, rfl⟩
  | keep => exact ⟨rfl, rfl, rfl, rfl⟩
  | start => exact ⟨rfl, rfl, rfl, rfl⟩
  | cut =>
    obtain rfl : _ = c := by simpa using own
    exact ⟨rfl, rfl, rfl, guard⟩
  | go present goes =>
    obtain rfl : _ = c := by simpa using own
    cases goes.unchanged (same present)
    exact ⟨rfl, rfl, rfl, rfl⟩
  | stop present stops =>
    obtain rfl : _ = c := by simpa using own
    cases stops.unchanged (same present)
    exact ⟨rfl, rfl, rfl, guard⟩
  | leave present =>
    obtain rfl : _ = c := by simpa using own
    exact (same present).elim
  | leaveAll hK _ present =>
    obtain rfl : _ = c := by simpa using own
    cases hK <;> exact (same present).elim

/-! Only who is cut off is answered so. -/

theorem Stops.not_cancelled (stops : Stops v c a u es x) : x ≠ .cancelled := by
  cases stops with
  | refuse | succeed | fail => exact Origin.answer_ne_cancelled _ _ _
  | _ => exact nofun

theorem Move.answers (moved : v.Move act w) :
    w.answers = v.answers ∨ ∃ c a x, ⟨c, a⟩ ∈ v.calls ∧ w.answers = (c, x) :: v.answers ∧
      (x = .cancelled → act = .cancel c) := by
  cases moved with
  | @cut c a known => exact .inr ⟨c, a, _, known, rfl, fun _ => rfl⟩
  | go _ goes => exact .inl goes.frame.answers
  | @stop c a u es x known stops =>
    refine .inr ⟨c, a, x, known, congrArg ((c, x) :: ·) stops.frame.answers, fun cancelled => ?_⟩
    exact absurd cancelled stops.not_cancelled
  | @leaveAll c _ _ _ _ _ known => exact .inr ⟨c, _, _, known, rfl, nofun⟩
  | _ => exact .inl rfl

/-- No answer is to a call that is yet to begin. -/
def Prompt (v : Standing) : Prop := ∀ e ∈ v.answers, e.1 < v.fresh

theorem Prompt.move (prompt : v.Prompt) (distinct : v.Distinct) (moved : v.Move act w) :
    w.Prompt := by
  intro e answered
  refine Nat.lt_of_lt_of_le ?_ moved.fresh_le
  rcases moved.answers with same | ⟨c, a, x, known, grown, -⟩
  · exact prompt e (same ▸ answered)
  · rw [grown] at answered
    rcases List.mem_cons.mp answered with rfl | earlier
    · exact distinct.lt_fresh _ known
    · exact prompt e earlier

end Standing

namespace Server

open Standing

variable {setup : Setup} {s u : Server} {c : CallId} {a : Activity} {r : Http.Request}
  {body : Bytes} {input : Graphql.Request} {i : Installation} {response : Http.Response}
  {act : Action} {actions : List Action}

theorem prompt_run (setup : Setup) (actions : List Action) :
    ((start setup).run actions).standing.Prompt :=
  (standing_run (P := fun v => v.Distinct ∧ v.Prompt) actions
    ⟨distinct_run setup [], List.forall_mem_nil _⟩
    fun moved ⟨distinct, prompt⟩ => ⟨distinct.move moved, prompt.move distinct moved⟩).2

theorem cancelled_run (actions : List Action)
    (answered : (c, .cancelled) ∈ (s.run actions).standing.answers) :
    (c, .cancelled) ∈ s.standing.answers ∨ .cancel c ∈ actions := by
  revert answered
  refine run_induction (P := fun u => (c, .cancelled) ∈ u.standing.answers →
    (c, .cancelled) ∈ s.standing.answers ∨ .cancel c ∈ actions) actions .inl ?_
  intro before act after split earlier answered
  rcases ((s.run before).move_step act).answers with same | ⟨d, a, x, -, grown, cancels⟩
  · exact earlier (same ▸ answered)
  · rw [grown] at answered
    rcases List.mem_cons.mp answered with new | there
    · cases new
      rw [split, cancels rfl]
      exact .inr (List.mem_append_right _ List.mem_cons_self)
    · exact earlier there

theorem unchanged_step (lined : s.standing.Lined)
    (aloof : ∀ a, s.activity? c = some a → a.Aloof) (own : act = .proceed c ∨ act = .cancel c) :
    Unchanged s.standing (s.step act).standing := by
  cases active : s.activity? c with
  | none =>
    rw [step_ended active own]
    exact ⟨rfl, rfl, rfl, rfl⟩
  | some a =>
    exact (s.move_step act).unchanged lined (mem_calls_of_activity? active) (aloof a active) own

/-! A query that is refused. -/

theorem query_refused {warning : Option String}
    (planned : r.plan s.setup.cors = .respond response warning)
    (active : s.activity? c = some (.request r)) :
    (s.step (.proceed c)).activity? c = none ∧
      (s.step (.proceed c)).answer? c = some (.response (r.dress s.setup.cors response)) ∧
        (s.step (.proceed c)).executions c = s.executions c := by
  refine stopped ?_
  rw [step_proceed active rfl id]
  simp only [Server.act, requestStep, planned]
  cases warning <;> exact standing_respond _ c r response

theorem query_malformed {e : Json.ReadError} (failed : Graphql.Request.parse body = .error e)
    (active : s.activity? c = some (.query r (.arriving body))) :
    (s.step (.proceed c)).activity? c = none ∧
      (s.step (.proceed c)).answer? c =
          some (.response (r.dress s.setup.cors (malformedResponse e))) ∧
        (s.step (.proceed c)).executions c = s.executions c := by
  refine stopped ?_
  rw [step_proceed active rfl id]
  simp only [Server.act, queryStep, queryArriving, failed]
  exact standing_respond _ c r _

/-- The request is refused with the response, whatever engine there is. -/
inductive Refused (cors : Bool) (r : Http.Request) : Http.Response → Prop
  | atOnce {response : Http.Response} {warning : Option String}
      (planned : r.plan cors = .respond response warning) : Refused cors r response
  | malformed {body : Bytes} {e : Json.ReadError} (planned : r.plan cors = .query body)
      (failed : Graphql.Request.parse body = .error e) : Refused cors r (malformedResponse e)

/-- What becomes of a request that is refused. -/
inductive Turned (s : Server) (c : CallId) (r : Http.Request) (response : Http.Response) : Prop
  | asked (active : s.activity? c = some (.request r)) (unexecuted : s.executions c = [])
  | arriving {body : Bytes} (planned : r.plan s.setup.cors = .query body)
      (active : s.activity? c = some (.query r (.arriving body)))
      (unexecuted : s.executions c = [])
  | answered (ended : s.activity? c = none)
      (answer : s.answer? c = some (.response (r.dress s.setup.cors response)))
      (unexecuted : s.executions c = [])
  | cancelled (ended : s.activity? c = none) (answer : s.answer? c = some .cancelled)
      (unexecuted : s.executions c = [])

theorem Turned.step (turned : s.Turned c r response) (refused : Refused s.setup.cors r response)
    (distinct : s.standing.Distinct) (known : c < s.fresh) (act : Action) :
    (s.step act).Turned c r response := by
  have setup : (s.step act).setup = s.setup := (s.move_step act).setup
  cases turned with
  | asked active unexecuted =>
    rcases step_active distinct active act with rfl | ⟨ended, answer, same⟩ | untouched
    · -- one plan refuses the request here, the other only once its body is read
      cases refused with
      | atOnce planned =>
        obtain ⟨ended, answer, same⟩ := query_refused planned active
        exact .answered ended (setup ▸ answer) (same.trans unexecuted)
      | malformed planned failed =>
        obtain ⟨there, same⟩ := query_asked planned active
        exact .arriving (setup ▸ planned) there (same.trans unexecuted)
    · exact .cancelled ended answer (same.trans unexecuted)
    · exact .asked (untouched.activity.trans active) (untouched.executions.trans unexecuted)
  | arriving planned active unexecuted =>
    rcases step_active distinct active act with rfl | ⟨ended, answer, same⟩ | untouched
    · cases refused with
      | atOnce other => cases planned.symm.trans other
      | malformed planned' failed =>
        cases planned.symm.trans planned'
        obtain ⟨ended, answer, same⟩ := query_malformed failed active
        exact .answered ended (setup ▸ answer) (same.trans unexecuted)
    · exact .cancelled ended answer (same.trans unexecuted)
    · exact .arriving (setup ▸ planned) (untouched.activity.trans active)
        (untouched.executions.trans unexecuted)
  | answered ended answer unexecuted =>
    have untouched := untouched_ended distinct known ended act
    refine .answered (untouched.activity.trans ended) ?_ (untouched.executions.trans unexecuted)
    rw [untouched.answer, answer, setup]
  | cancelled ended answer unexecuted =>
    have untouched := untouched_ended distinct known ended act
    exact .cancelled (untouched.activity.trans ended) (untouched.answer.trans answer)
      (untouched.executions.trans unexecuted)

/-! A query gets on by itself. -/

/-- The call has ended, or waits in line at the gate of its engine. -/
def Through (s : Server) (c : CallId) : Prop :=
  s.activity? c = none ∨ ∃ r i input g, s.activity? c = some (.query r (.executing i input)) ∧
    i.engine.gate = some g ∧ c ∈ (s.turnstile g).queue

theorem through_executing (active : s.activity? c = some (.query r (.executing i input))) :
    (s.step (.proceed c)).Through c := by
  rcases query_executing active with ⟨rests, still, -⟩ | ⟨ended, -⟩
  · right
    cases gate : i.engine.gate with
    | none =>
      have gate' : (Activity.query r (.executing i input)).gate? = none := gate
      simp only [Rests, still, gate'] at rests
      exact rests.elim
    | some g =>
      have gate' : (Activity.query r (.executing i input)).gate? = some g := gate
      simp only [Rests, still, gate'] at rests
      exact ⟨r, i, input, g, still, gate, rests⟩
  · exact .inl ended

theorem Through.proceeds (through : s.Through c) (n : Nat) : (s.run (proceeds n c)).Through c := by
  induction n generalizing s with
  | zero => exact through
  | succ n inductionHypothesis =>
    change ((s.step (.proceed c)).run (Server.proceeds n c)).Through c
    apply inductionHypothesis
    rcases through with ended | ⟨r, i, input, g, active, -⟩
    · simp only [step, proceed, ended]
      exact .inl ended
    · exact through_executing active

/-- The call is through, or has less to do. -/
theorem further (posted : r.method = "POST") (routed : r.route? = some .graphql)
    (active : s.activity? c = some a) (asks : a.Asks r) :
    (s.step (.proceed c)).Through c ∨
      ∃ b, (s.step (.proceed c)).activity? c = some b ∧ b.Asks r ∧ b.due < a.due := by
  cases a with
  | request q =>
    obtain rfl : q = r := asks
    have planned := Http.Request.plan_graphql posted routed s.setup.cors
    split at planned
    · exact .inl (.inl (query_refused planned active).1)
    · exact .inr ⟨_, (query_asked planned active).1, rfl, Nat.lt_succ_self _⟩
  | query q stage =>
    obtain rfl : q = r := asks
    cases stage with
    | arriving body =>
      cases parsed : Graphql.Request.parse body with
      | error e => exact .inl (.inl (query_malformed parsed active).1)
      | ok input => exact .inr ⟨_, (query_arriving parsed active).1, rfl, Nat.lt_succ_self _⟩
    | parsed input =>
      cases slot : s.slot with
      | none => exact .inl (.inl (query_unserved slot active).1)
      | some i => exact .inr ⟨_, (query_parsed slot active).1, rfl, Nat.lt_succ_self _⟩
    | holding i input => exact .inr ⟨_, (query_holding active).1, rfl, Nat.lt_succ_self _⟩
    | executing i input => exact .inl (through_executing active)
  | _ => exact asks.elim

theorem through_proceeds (posted : r.method = "POST") (routed : r.route? = some .graphql)
    (active : s.activity? c = some a) (asks : a.Asks r) {n : Nat} (enough : a.due ≤ n) :
    (s.run (proceeds n c)).Through c := by
  induction n generalizing s a with
  | zero => exact absurd asks.due_pos (Nat.not_lt.mpr enough)
  | succ n inductionHypothesis =>
    change ((s.step (.proceed c)).run (proceeds n c)).Through c
    rcases further posted routed active asks with through | ⟨b, next, asks', less⟩
    · exact through.proceeds n
    · exact inductionHypothesis next asks' (Nat.le_of_lt_succ (Nat.lt_of_lt_of_le less enough))

/-! What a query comes to. -/

/-- How the query is answered that the call asks for at `s`. -/
inductive Answered (s : Server) (c : CallId) (r : Http.Request) (actions : List Action)
    (response : Http.Response) : Prop
  | tooLong (long : Http.Route.bodyLimit < r.body.length) (status : response.status = 413)
      (unexecuted : (s.run actions).executions c = [])
  | malformed {e : Json.ReadError} (short : r.body.length ≤ Http.Route.bodyLimit)
      (failed : Graphql.Request.parse r.body = .error e)
      (reports : response.Reports 400 (malformedMessage e) (some malformedKind))
      (unexecuted : (s.run actions).executions c = [])
  /-- There was no engine when the query looked. -/
  | unserved {input : Graphql.Request} {early late : List Action}
      (short : r.body.length ≤ Http.Route.bodyLimit)
      (parsed : Graphql.Request.parse r.body = .ok input)
      (split : actions = early ++ .proceed c :: late)
      (looks : (s.run early).activity? c = some (.query r (.parsed input)))
      (empty : (s.run early).slot = none)
      (reports : response.Reports 503 "Engine not initialized" none)
      (unexecuted : (s.run actions).executions c = [])
  /-- The engine found executed the query, once. -/
  | served {input : Graphql.Request} {i : Installation} {early late : List Action}
      (short : r.body.length ≤ Http.Route.bodyLimit)
      (parsed : Graphql.Request.parse r.body = .ok input)
      (split : actions = early ++ .proceed c :: late)
      (looks : (s.run early).activity? c = some (.query r (.parsed input)))
      (slot : (s.run early).slot = some i)
      (once : (s.run actions).executions c = [(i, input)])
      (tells : Tells s.setup.cors r (i.engine.execute input) response)

/-- What becomes of the query that the call asks for at `s`. -/
structure Handled (s : Server) (c : CallId) (r : Http.Request) (actions : List Action) : Prop where
  answered : (s.run actions).activity? c = none →
    .cancel c ∈ actions ∧ (s.run actions).answer? c = some .cancelled ∨
      ∃ response, (s.run actions).answer? c = some (.response response) ∧
        s.Answered c r actions response
  through : ((s.run actions).run (proceeds 5 c)).Through c
  unchanged (act : Action) (own : act = .proceed c ∨ act = .cancel c) :
    Unchanged (s.run actions).standing ((s.run actions).step act).standing

theorem Turned.asks (turned : s.Turned c r response) (active : s.activity? c = some a) :
    a.Asks r := by
  cases turned with
  | asked there | arriving _ there =>
    cases there.symm.trans active
    rfl
  | answered ended | cancelled ended => cases ended.symm.trans active

theorem Keeps.asks (keeps : s.Keeps c r i input) (active : s.activity? c = some a) :
    a.Asks r := by
  cases keeps with
  | holding there | executing there =>
    cases there.symm.trans active
    rfl
  | answered ended | cancelled ended => cases ended.symm.trans active

theorem Course.asks (course : s.Course c r body input actions)
    (active : (s.run actions).activity? c = some a) : a.Asks r := by
  cases course with
  | seeking there seeks =>
    cases there.symm.trans active
    cases seeks <;> rfl
  | dropped ended | unserved _ _ _ _ ended => cases ended.symm.trans active
  | served _ _ _ _ keeps => exact keeps.asks active

theorem Turned.ends (turned : s.Turned c r response) (ended : s.activity? c = none) :
    s.answer? c = some .cancelled ∨
      s.answer? c = some (.response (r.dress s.setup.cors response)) ∧ s.executions c = [] := by
  cases turned with
  | asked active | arriving _ active => cases active.symm.trans ended
  | answered _ answer unexecuted => exact .inr ⟨answer, unexecuted⟩
  | cancelled _ answer => exact .inl answer

theorem Course.ends (course : s.Course c r r.body input actions) (posted : r.method = "POST")
    (short : r.body.length ≤ Http.Route.bodyLimit)
    (parsed : Graphql.Request.parse r.body = .ok input)
    (ended : (s.run actions).activity? c = none) :
    (s.run actions).answer? c = some .cancelled ∨
      ∃ response, (s.run actions).answer? c = some (.response response) ∧
        s.Answered c r actions response := by
  cases course with
  | seeking active => cases active.symm.trans ended
  | dropped _ answer => exact .inl answer
  | unserved split looks empty _ _ answer unexecuted =>
    have reports := reports_dress reports_unavailable posted s.setup.cors
    exact .inr ⟨_, answer, .unserved short parsed split looks empty reports unexecuted⟩
  | @served _ _ i split looks slot _ keeps =>
    cases keeps with
    | holding active | executing active => cases active.symm.trans ended
    | answered _ answer once =>
      have tells := tells_queryResponse posted s.setup.cors (i.engine.execute input)
      rw [executedAnswer, setup_run] at answer
      exact .inr ⟨_, answer, .served short parsed split looks slot once tells⟩
    | cancelled _ answer => exact .inl answer

/-! From when it is asked for, over whatever runs. -/

theorem reached_run (setup : Setup) (before actions : List Action) (r : Http.Request) :
    (((start setup).run before).step (.demand (.request r))).run actions =
      (start setup).run (before ++ .demand (.request r) :: actions) :=
  (run_append (start setup) before (.demand (.request r) :: actions)).symm

/-- What holds of a request when it begins, and is kept by all that follows. -/
theorem asked_run {P : List Action → Prop} (setup : Setup) (before : List Action) (r : Http.Request)
    (base : P []) (kept : ∀ actions act,
      let s := (start setup).run before
      let u := (s.step (.demand (.request r))).run actions
      u.standing.Distinct → s.fresh < u.fresh → u.standing.Visible → u.setup = setup →
        P actions → P (actions ++ [act])) (actions : List Action) : P actions := by
  obtain ⟨-, -, known⟩ := demanded setup before r
  induction actions using List.reverseRecOn with
  | nil => exact base
  | append_singleton actions act inductionHypothesis =>
    have reached := reached_run setup before actions r
    refine kept actions act (reached ▸ distinct_run setup _) ?_ (reached ▸ visible_run setup _)
      (reached ▸ setup_run (start setup) _) inductionHypothesis
    exact Nat.lt_of_lt_of_le known (fresh_le_run _ actions)

theorem turned_run (refused : Refused setup.cors r response) (before actions : List Action) :
    let s := (start setup).run before
    let t := s.step (.demand (.request r))
    (t.run actions).Turned s.fresh r response := by
  intro s t
  obtain ⟨asked, unexecuted, -⟩ := demanded setup before r
  have base : (t.run []).Turned s.fresh r response := .asked asked unexecuted
  refine asked_run (P := fun actions => (t.run actions).Turned s.fresh r response) setup before r
    base ?_ actions
  intro actions act s u distinct known _ same turned
  have next : t.run (actions ++ [act]) = u.step act := run_append t actions [act]
  rw [next]
  exact turned.step (same ▸ refused) distinct known act

theorem course_run (planned : r.plan setup.cors = .query body)
    (parsed : Graphql.Request.parse body = .ok input) (before actions : List Action) :
    let s := (start setup).run before
    let t := s.step (.demand (.request r))
    t.Course s.fresh r body input actions := by
  intro s t
  obtain ⟨asked, unexecuted, -⟩ := demanded setup before r
  have base : t.Course s.fresh r body input [] := .seeking asked .asked unexecuted
  refine asked_run setup before r base ?_ actions
  intro actions act s u distinct known visible same course
  exact course.step distinct known visible (same ▸ planned) parsed act

theorem handled_run (posted : r.method = "POST") (routed : r.route? = some .graphql)
    (before actions : List Action) :
    let s := (start setup).run before
    let t := s.step (.demand (.request r))
    (∀ a, (t.run actions).activity? s.fresh = some a → a.Asks r) →
      ((t.run actions).activity? s.fresh = none →
        (t.run actions).answer? s.fresh = some .cancelled ∨
          ∃ response, (t.run actions).answer? s.fresh = some (.response response) ∧
            t.Answered s.fresh r actions response) →
      t.Handled s.fresh r actions := by
  intro s t asks ends
  have begun : t.standing = s.standing.begin (.request r) := s.standing_begin _
  refine ⟨fun ended => (ends ended).imp_left fun cancelled => ⟨?_, cancelled⟩, ?_, ?_⟩
  · have there : (s.fresh, .cancelled) ∈ (t.run actions).standing.answers := by
      obtain ⟨first, last, split, -⟩ := List.lookup_eq_some_iff.mp cancelled
      change _ ∈ (t.run actions).answers
      rw [split]
      exact List.mem_append_right _ List.mem_cons_self
    refine (cancelled_run actions there).resolve_left fun earlier => ?_
    rw [begun] at earlier
    exact Nat.lt_irrefl _ (prompt_run setup before _ earlier)
  · cases active : (t.run actions).activity? s.fresh with
    | none => exact Through.proceeds (.inl active) 5
    | some a => exact through_proceeds posted routed active (asks a active) a.due_le
  · intro act own
    have lined : (t.run actions).standing.Lined :=
      reached_run setup before actions r ▸ lined_run setup _
    exact unchanged_step lined (fun a active => (asks a active).aloof) own

/-- Every query that is posted is answered. It is refused if its body is too long or does not spell
a query, told that there is no engine if there is none when it looks, and otherwise executed once by
the engine found, whose outcome it is told. It is let on at most five times for this, unless it has
to wait at the gate of the engine, and it leaves the slot, the status and the guard as they are. -/
theorem every_query_is_answered (posted : r.method = "POST") (routed : r.route? = some .graphql)
    (before actions : List Action) :
    let s := (start setup).run before
    let t := s.step (.demand (.request r))
    Unchanged s.standing t.standing ∧ t.Handled s.fresh r actions := by
  intro s t
  have begun : t.standing = s.standing.begin (.request r) := s.standing_begin _
  have planned := Http.Request.plan_graphql posted routed setup.cors
  refine ⟨by rw [begun]; exact ⟨rfl, rfl, rfl, rfl⟩, ?_⟩
  split at planned
  · next long =>
    have turned := turned_run (.atOnce planned) before actions
    refine handled_run posted routed before actions (fun a => turned.asks) fun ended => ?_
    refine (turned.ends ended).imp_right fun ⟨answer, unexecuted⟩ => ⟨_, answer, ?_⟩
    exact .tooLong long (r.status_dress _ _) unexecuted
  · next within =>
    have short : r.body.length ≤ Http.Route.bodyLimit := Nat.le_of_not_lt within
    cases parsed : Graphql.Request.parse r.body with
    | error e =>
      have turned := turned_run (.malformed planned parsed) before actions
      refine handled_run posted routed before actions (fun a => turned.asks) fun ended => ?_
      refine (turned.ends ended).imp_right fun ⟨answer, unexecuted⟩ => ⟨_, answer, ?_⟩
      exact .malformed short parsed (reports_dress (reports_malformed e) posted _) unexecuted
    | ok input =>
      have course := course_run planned parsed before actions
      refine handled_run posted routed before actions (fun a => course.asks) fun ended => ?_
      exact course.ends posted short parsed ended

/-- A server whose engines panic at all they are asked. -/
def panicky : Setup :=
  .trial fun generation => .made (.pure generation fun _ => .panic (.text "out of order"))

theorem panicking_query_is_answered :
    let s := (start panicky).run (.demand .reload :: proceeds 7 0)
    let t := s.step (.demand (.request askGeneration))
    (Unchanged s.standing t.standing ∧ t.Handled s.fresh askGeneration (proceeds 5 3)) ∧
      ((t.run (proceeds 5 3)).activity? s.fresh).isNone ∧
      ((t.run (proceeds 5 3)).executions s.fresh).map (·.1.generation) = [1] := by
  intro s t
  have posted : askGeneration.method = "POST" := rfl
  have routed : askGeneration.route? = some .graphql := rfl
  have answered : Unchanged s.standing t.standing ∧
      t.Handled s.fresh askGeneration (proceeds 5 3) :=
    every_query_is_answered posted routed (.demand .reload :: proceeds 7 0) (proceeds 5 3)
  exact ⟨answered, by decide +kernel, by decide +kernel⟩

/-- A message that spells no query. -/
def askLetters (n : Nat) : Http.Request := ⟨"POST", "/graphql", List.replicate n 120⟩

theorem parse_letters (n : Nat) :
    ∃ e, Graphql.Request.parse (askLetters (n + 1)).body = .error e :=
  ⟨_, rfl⟩

theorem letters_unread {n : Nat} (long : Http.Route.bodyLimit < n) :
    let t := (start .patient).step (.demand (.request (askLetters n)))
    ∃ response, (t.step (.proceed 0)).answer? 0 = some (.response response) ∧
      response.status ≠ 400 := by
  intro t
  have long' : Http.Route.bodyLimit < (askLetters n).body.length :=
    Nat.lt_of_lt_of_eq long List.length_replicate.symm
  have routed : (askLetters n).route? = some .graphql := by
    change askGeneration.route? = _
    rfl
  have planned := Http.Request.plan_graphql rfl routed t.setup.cors
  rw [if_pos long'] at planned
  obtain ⟨asked, -⟩ := demanded .patient [] (askLetters n)
  obtain ⟨-, answer, -⟩ := query_refused planned asked
  refine ⟨_, answer, ?_⟩
  rw [Http.Request.status_dress]
  decide

/-- What is too long to be read is not found to be malformed. -/
theorem long_query_is_not_read :
    let r := askLetters (Http.Route.bodyLimit + 1)
    let t := (start .patient).step (.demand (.request r))
    (∃ e, Graphql.Request.parse r.body = .error e) ∧
      ∃ response, (t.step (.proceed 0)).answer? 0 = some (.response response) ∧
        response.status ≠ 400 :=
  ⟨parse_letters Http.Route.bodyLimit, letters_unread (Nat.lt_succ_self _)⟩

end Server

end HotSwap

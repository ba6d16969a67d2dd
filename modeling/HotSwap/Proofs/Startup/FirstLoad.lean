import HotSwap.Proofs.Standing.Run
import HotSwap.Proofs.Startup.Schedule
import HotSwap.Server.Startup

/-!
# The first load

A server that has not begun loads one engine before anything else. While it does there is no other
call, and nothing is in the slot until the load has made an engine, which then stays there.
-/

namespace HotSwap

/-- An engine is put into service, is taken out of it, or is released. -/
def Note.ofEngine : Note → Bool
  | .installed _ _ | .taken _ | .released _ _ | .releaseEnded _ _ => true
  | _ => false

/-- Nothing is installed yet. -/
def Reload.Stage.Early : Reload.Stage → Prop
  | .retiring _ _ _ | .completing _ _ _ => False
  | _ => True

namespace Standing

/-- What happened to engines, the latest first. -/
def engineNotes (v : Standing) : List Note := v.history.filter Note.ofEngine

/-- How the first load, which the call `c` is, stands or ended. -/
inductive Loads (v : Standing) (c : CallId) : Prop
  | tries {stage : Reload.Stage} (calls : v.calls = [⟨c, .reload .startup stage⟩])
      (early : stage.Early) (slot : v.slot = none) (answers : v.answers = [])
      (none : v.engineNotes = [])
  | succeeds {a : Attempt} {i : Installation}
      (calls : v.calls = [⟨c, .reload .startup (.completing a i.provider none)⟩])
      (slot : v.slot = some i) (answers : v.answers = [])
      (one : v.engineNotes = [.installed i none])
  | loaded {i : Installation} {r : Report} (calls : v.calls = []) (slot : v.slot = some i)
      (answers : v.answers = [(c, .report r)]) (provider : r.provider = i.provider)
      (one : v.engineNotes = [.installed i none])
  | refused {e : ReloadError} (calls : v.calls = []) (slot : v.slot = none)
      (answers : v.answers = [(c, .refused e)]) (none : v.engineNotes = [])
  | panicked {p : Payload} (calls : v.calls = []) (slot : v.slot = none)
      (answers : v.answers = [(c, .panic p)]) (none : v.engineNotes = [])

variable {v w u : Standing} {c : CallId} {a b : Activity} {es : List Note} {x : Answer}
  {stage : Reload.Stage} {act : Server.Action}

theorem engineNotes_notes (same : u.history = v.history) :
    (u.notes es).engineNotes = es.filter Note.ofEngine ++ v.engineNotes := by
  simp only [engineNotes, notes, List.filter_append, same]

theorem calls_proceedTo_of_alone (calls : v.calls = [⟨c, a⟩]) :
    (v.proceedTo c b).calls = [⟨c, b⟩] := by
  simp [proceedTo, calls]

theorem calls_finish_of_alone (calls : v.calls = [⟨c, a⟩]) : (v.finish c x).calls = [] := by
  simp [finish, calls]

theorem Loads.goes (goes : Goes v c a u es b) (starts : a = .reload .startup stage)
    (early : stage.Early) (calls : v.calls = [⟨c, a⟩]) (slot : v.slot = none)
    (answers : v.answers = []) (none : v.engineNotes = []) :
    Loads ((u.notes es).proceedTo c b) c := by
  have frame := goes.frame
  have alone : ((u.notes es).proceedTo c b).calls = [⟨c, b⟩] :=
    calls_proceedTo_of_alone (frame.calls.trans calls)
  have unanswered : u.answers = [] := frame.answers.trans answers
  have noted : (u.notes es).engineNotes = es.filter Note.ofEngine ++ v.engineNotes :=
    engineNotes_notes frame.history
  rw [none, List.append_nil] at noted
  cases goes with
  | install =>
    cases starts
    exact .succeeds alone rfl unanswered noted
  | replace there => cases there.symm.trans slot
  | enter | mark | misfind | misconstruct | construct | ask | misask | obtain =>
    cases starts
    exact .tries alone trivial slot unanswered noted
  | sleep hK | wake hK | clear hK | release hK =>
    cases hK with
    | reload =>
      cases starts
      exact early.elim
    | _ => cases starts
  | released =>
    cases starts
    exact early.elim
  | _ => cases starts

theorem Loads.stops (stops : Stops v c a u es x) (starts : a = .reload .startup stage)
    (early : stage.Early) (calls : v.calls = [⟨c, a⟩]) (slot : v.slot = none)
    (answers : v.answers = []) (none : v.engineNotes = []) :
    Loads ((u.notes es).finish c x) c := by
  have frame := stops.frame
  have alone : ((u.notes es).finish c x).calls = [] :=
    calls_finish_of_alone (frame.calls.trans calls)
  have answered : ((u.notes es).finish c x).answers = [(c, x)] :=
    congrArg ((c, x) :: ·) (frame.answers.trans answers)
  have noted : (u.notes es).engineNotes = es.filter Note.ofEngine ++ v.engineNotes :=
    engineNotes_notes frame.history
  rw [none, List.append_nil] at noted
  cases stops with
  | refuse | fail =>
    cases starts
    exact .refused alone slot answered noted
  | constructorPanic | makerPanic =>
    cases starts
    exact .panicked alone slot answered noted
  | succeed =>
    cases starts
    exact early.elim
  | releasePanic hK =>
    cases hK with
    | reload =>
      cases starts
      exact early.elim
    | _ => cases starts
  | _ => cases starts

theorem Goes.not_completing {o : Origin} {t : Attempt} {p : String} {previous : Option Nat}
    (goes : Goes v c a u es b) : a ≠ .reload o (.completing t p previous) := by
  cases goes with
  | sleep hK | wake hK | clear hK | release hK => cases hK <;> exact nofun
  | _ => exact nofun

theorem Loads.completes {t : Attempt} {i : Installation} (stops : Stops v c a u es x)
    (starts : a = .reload .startup (.completing t i.provider none)) (calls : v.calls = [⟨c, a⟩])
    (slot : v.slot = some i) (answers : v.answers = [])
    (one : v.engineNotes = [.installed i none]) :
    Loads ((u.notes es).finish c x) c := by
  have frame := stops.frame
  have alone : ((u.notes es).finish c x).calls = [] :=
    calls_finish_of_alone (frame.calls.trans calls)
  have answered : ((u.notes es).finish c x).answers = [(c, x)] :=
    congrArg ((c, x) :: ·) (frame.answers.trans answers)
  have noted : (u.notes es).engineNotes = es.filter Note.ofEngine ++ v.engineNotes :=
    engineNotes_notes frame.history
  rw [one] at noted
  cases stops with
  | succeed =>
    cases starts
    exact .loaded alone slot answered rfl noted
  | releasePanic hK => cases hK <;> cases starts
  | _ => cases starts

/-- The only call that there is goes on alone, or ends. -/
theorem Loads.move (loads : v.Loads c) (known : c < v.fresh) (moved : v.Move (.proceed c) w)
    (within : ∀ call ∈ w.calls, call.id ≠ v.fresh) : w.Loads c := by
  have begun (a : Activity) : ⟨v.fresh, a⟩ ∈ (v.begin a).calls := mem_calls_begin.mpr (.inr rfl)
  have active {a : Activity} (present : ⟨c, a⟩ ∈ v.calls) : v.calls = [⟨c, a⟩] := by
    cases loads with
    | tries calls | succeeds calls =>
      rw [calls] at present ⊢
      rw [List.mem_singleton.mp present]
    | loaded calls | refused calls | panicked calls =>
      rw [calls] at present
      cases present
  cases moved with
  | rest | number | keep =>
    cases loads with
    | tries calls early slot answers none => exact .tries calls early slot answers none
    | succeeds calls slot answers one => exact .succeeds calls slot answers one
    | loaded calls slot answers provider one => exact .loaded calls slot answers provider one
    | refused calls slot answers none => exact .refused calls slot answers none
    | panicked calls slot answers none => exact .panicked calls slot answers none
  | start => exact absurd rfl (within _ (begun _))
  | go present goes =>
    cases loads with
    | tries calls early slot answers none =>
      cases calls.symm.trans (active present)
      exact .goes goes rfl early calls slot answers none
    | succeeds calls =>
      cases calls.symm.trans (active present)
      exact absurd rfl goes.not_completing
    | loaded calls | refused calls | panicked calls => cases calls.symm.trans (active present)
  | stop present stops =>
    cases loads with
    | tries calls early slot answers none =>
      cases calls.symm.trans (active present)
      exact .stops stops rfl early calls slot answers none
    | succeeds calls slot answers one =>
      cases calls.symm.trans (active present)
      exact .completes stops rfl calls slot answers one
    | loaded calls | refused calls | panicked calls => cases calls.symm.trans (active present)
  | leave =>
    exact absurd rfl (within _ (mem_calls_proceedTo.mpr (.inl ⟨begun _, Nat.ne_of_gt known⟩)))
  | leaveAll => exact absurd rfl (within _ (mem_calls_finish.mpr ⟨begun _, Nat.ne_of_gt known⟩))

end Standing

namespace Server

open Standing

variable {s t : Server} {c : CallId} {o : Origin} {stage : Reload.Stage}

/-- Every call was there before. -/
def Within (t s : Server) : Prop := ∀ call ∈ t.calls, ∃ e ∈ s.calls, e.id = call.id

theorem within_proceedTo {a : Activity} (same : t.calls = s.calls) :
    (t.proceedTo c a).Within s := by
  intro call there
  rcases (mem_calls_proceedTo (v := t.standing)).mp there with ⟨known, -⟩ | ⟨rfl, e, known, own⟩
  · exact ⟨call, same ▸ known, rfl⟩
  · exact ⟨e, same ▸ known, own⟩

theorem within_finish {x : Answer} (same : t.calls = s.calls) : (t.finish c x).Within s := by
  intro call there
  have ended : (t.finish c x).calls = (t.standing.finish c x).calls :=
    congrArg Standing.calls (t.standing_finish c x)
  rw [ended] at there
  exact ⟨call, same ▸ (mem_calls_finish.mp there).1, rfl⟩

theorem within_conclude {result : Except ReloadError Report} (same : t.calls = s.calls) :
    (t.conclude c .startup result).Within s :=
  within_finish same

/-- A reload that does not retire an engine begins no other call. -/
theorem within_reloadStep (stays : ∀ a p r, stage ≠ .retiring a p r) :
    (s.reloadStep c .startup stage).Within s := by
  cases stage with
  | arriving =>
    simp only [reloadStep, reloadArriving]
    split
    · exact within_conclude rfl
    · exact within_proceedTo rfl
  | numbered | constructed => exact within_proceedTo rfl
  | building =>
    simp only [reloadStep, reloadBuilding]
    split
    · exact within_proceedTo rfl
    · exact within_proceedTo rfl
    · exact within_finish rfl
  | asking a p k recipe =>
    have produced (engine : Engine) : (s.produce k recipe engine).1.calls = s.calls := by
      unfold produce
      split
      · split <;> rfl
      · rfl
    simp only [reloadStep, reloadAsking]
    split
    · exact within_proceedTo (produced _)
    · exact within_proceedTo rfl
    · exact within_finish rfl
  | installing =>
    simp only [reloadStep, reloadInstalling]
    split <;> exact within_proceedTo rfl
  | retiring a p r => exact absurd rfl (stays a p r)
  | completing =>
    simp only [reloadStep, reloadCompleting]
    exact within_conclude rfl
  | failing =>
    simp only [reloadStep, reloadFailing]
    exact within_conclude rfl

theorem loads_proceed (known : c < s.fresh) (loads : s.standing.Loads c) (d : CallId) :
    c < (s.proceed d).fresh ∧ (s.proceed d).standing.Loads c := by
  have moved := s.move_proceed d
  refine ⟨Nat.lt_of_lt_of_le known moved.fresh_le, ?_⟩
  cases active : s.activity? d with
  | none =>
    simp only [proceed, active]
    exact loads
  | some a =>
    have present := mem_calls_of_activity? active
    have alone : ∃ stage, s.calls = [⟨c, .reload .startup stage⟩] ∧
        ∀ a p r, stage ≠ .retiring a p r := by
      cases loads with
      | tries calls early =>
        refine ⟨_, calls, ?_⟩
        rintro _ _ _ rfl
        exact early
      | succeeds calls =>
        refine ⟨_, calls, ?_⟩
        rintro _ _ _ ⟨⟩
      | loaded calls | refused calls | panicked calls =>
        change s.calls = [] at calls
        rw [calls] at present
        cases present
    obtain ⟨stage, calls, stays⟩ := alone
    rw [calls] at present
    cases List.mem_singleton.mp present
    apply loads.move known moved
    rcases rests_or_acts active with ⟨-, stands⟩ | ⟨t, same, acts⟩
    · change (s.proceed c).standing = s.standing at stands
      rw [stands]
      intro call there
      change call ∈ s.calls at there
      rw [calls] at there
      cases List.mem_singleton.mp there
      exact Nat.ne_of_lt known
    · change s.proceed c = _ at acts
      rw [acts]
      intro call there
      obtain ⟨e, earlier, own⟩ := within_reloadStep stays call there
      have still : t.calls = s.calls := congrArg Standing.calls same
      rw [still, calls] at earlier
      cases List.mem_singleton.mp earlier
      rw [← own]
      exact Nat.ne_of_lt known

/-- Nothing has happened to the server yet but that it was told of channels. -/
structure Blank (s : Server) : Prop where
  calls : s.calls = []
  slot : s.slot = none
  answers : s.answers = []
  history : s.history = []

theorem blank_ofSettings (settings : Settings) (registry : Registry) (clock : Instant → String) :
    (ofSettings settings registry clock).Blank :=
  ⟨rfl, rfl, rfl, rfl⟩

theorem loads_await (blank : s.Blank) :
    ((s.demand .startup).await s.fresh).standing.Loads s.fresh := by
  have begun : (s.demand .startup).standing = s.standing.begin (.reload .startup .arriving) :=
    s.standing_begin _
  have base : s.fresh < (s.demand .startup).standing.fresh ∧
      (s.demand .startup).standing.Loads s.fresh := by
    have alone : (s.standing.begin (.reload .startup .arriving)).calls =
        [⟨s.fresh, .reload .startup .arriving⟩] := by
      change s.calls.concat _ = _
      rw [blank.calls]
      rfl
    rw [begun]
    refine ⟨Nat.lt_succ_self _, .tries alone trivial blank.slot blank.answers ?_⟩
    · change List.filter Note.ofEngine (.called _ _ :: s.history) = []
      rw [blank.history]
      rfl
  refine (await_keeps (P := fun v => s.fresh < v.fresh ∧ v.Loads s.fresh) ?_ _ _ base).2
  intro t d held
  exact loads_proceed held.1 held.2 d

end Server

end HotSwap

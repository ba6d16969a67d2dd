import HotSwap.Proofs.Custody.Ownership
import HotSwap.Proofs.Draining.Clock
import HotSwap.Proofs.Requests.Execution

/-!
# The pace of a retirement

If time passes only while a retirement waits, and stops when it is to go on, a retirement looks
whether the engine is in use at the instants that are whole polls after its beginning, until it
finds the engine out of use or its time is up.
-/

namespace HotSwap

/-- The retirement, should it be at the stage, waits until then for time to pass. -/
def Draining.Awaits (later : Time) : Draining → Prop
  | .polling | .free => False
  | .sleeping wake => later ≤ wake
  | .releasing => True

instance (later : Time) (stage : Draining) : Decidable (stage.Awaits later) := by
  unfold Draining.Awaits
  split <;> infer_instance

theorem Activity.Retires.gate?_eq {K : Retirement → Activity} (hK : Activity.Retires K)
    {r : Retirement} (early : r.stage ≠ .releasing) : (K r).gate? = none := by
  obtain ⟨i, d, stage⟩ := r
  cases stage with
  | releasing => exact absurd rfl early
  | _ => cases hK <;> rfl

namespace Server

variable {s u w : Server} {c e : CallId} {K : Retirement → Activity} {i : Installation}
  {d : Option Time} {act : Action}

/-! ## Exact timers -/

/-- The action lets no time pass by a retirement that can go on. -/
def Exact (s : Server) : Action → Prop
  | .elapse ms => ms = 0 ∨
      ∀ call ∈ s.calls, ∀ r ∈ call.activity.retirement?, r.stage.Awaits (s.now + ms)
  | _ => True

instance (s : Server) (act : Action) : Decidable (s.Exact act) := by
  unfold Exact
  split <;> infer_instance

/-- No time ever passes by a retirement that can go on. -/
def Punctual (s : Server) : List Action → Prop
  | [] => True
  | act :: rest => s.Exact act ∧ (s.step act).Punctual rest

instance decidablePunctual (s : Server) : (actions : List Action) → Decidable (s.Punctual actions)
  | [] => inferInstanceAs (Decidable True)
  | act :: rest =>
    have := decidablePunctual (s.step act) rest
    inferInstanceAs (Decidable (s.Exact act ∧ (s.step act).Punctual rest))

theorem exact_of_punctual {before after : List Action}
    (punctual : s.Punctual (before ++ act :: after)) : (s.run before).Exact act := by
  induction before generalizing s with
  | nil => exact punctual.1
  | cons first rest inductionHypothesis => exact inductionHypothesis punctual.2

/-- How time goes on while a retirement is at a stage. -/
theorem Exact.passes {a : Activity} {r : Retirement} (exact : s.Exact act)
    (active : s.activity? c = some a) (retires : r ∈ a.retirement?) :
    (s.step act).now = s.now ∨ r.stage.Awaits (s.step act).now := by
  rw [now_step]
  cases act with
  | elapse ms =>
    rcases exact with rfl | waits
    · exact .inl rfl
    · exact .inr (waits _ (mem_calls_of_activity? active) r retires)
  | _ => exact .inl rfl

/-! ## The steps of a retirement -/

/-- The call has gone on after a retirement. -/
inductive Resumed (u : Server) (c : CallId) (i : Installation) : (Retirement → Activity) → Prop
  | reload {o : Origin} {t : Attempt} {p : String}
      (completing : u.activity? c = some (.reload o (.completing t p (some i.generation)))) :
      Resumed u c i fun r => .reload o (.retiring t p r)
  | ended {K : Retirement → Activity} (other : ∀ o stage r, K r ≠ .reload o stage)
      (gone : u.activity? c = none) (answered : u.answer? c = some .done) : Resumed u c i K

/-- A call that retires an engine goes on in one way once it no longer does. -/
theorem act_retires (hK : Activity.Retires K) (c : CallId) (i : Installation) :
    ∃ ended : Server → Server,
      (∀ (s : Server) r, r.installation = i → s.act c (K r) = s.advanceRetirement c r K ended) ∧
      (∀ (t : Server) r, t.activity? c = some (K r) → (ended t).Resumed c i K) ∧
      ∀ t : Server, (∀ call ∈ t.calls, call.id ≠ c → call ∈ (ended t).calls) ∧
        ∀ n ∈ t.history, n ∈ (ended t).history := by
  cases hK with
  | reload o t p =>
    refine ⟨fun u => u.proceedTo c (.reload o (.completing t p (some i.generation))), ?_, ?_, ?_⟩
    · rintro s r rfl
      rfl
    · intro u r active
      exact .reload (activity?_proceedTo active)
    · intro u
      refine ⟨fun call present other => ?_, fun n there => there⟩
      exact (Standing.mem_calls_proceedTo (v := u.standing)).mpr (.inl ⟨present, other⟩)
  | shutdown | background =>
    refine ⟨fun u => u.finish c .done, fun s r _ => rfl, ?_, ?_⟩
    · intro u r active
      obtain ⟨gone, answered, -⟩ := stopped (u.standing_finish c .done)
      exact .ended (by simp) gone answered
    · intro u
      have finished := u.standing_finish c .done
      refine ⟨fun call present other => ?_, fun n there => ?_⟩
      · have kept : call ∈ (u.standing.finish c .done).calls :=
          Standing.mem_calls_finish.mpr ⟨present, other⟩
        rw [← finished] at kept
        exact kept
      · have kept : n ∈ (u.standing.finish c .done).history := .tail _ there
        rw [← finished] at kept
        exact kept

/-- What a look at the engine comes to. -/
inductive Looked (u w : Server) (c : CallId) (i : Installation) (d : Option Time)
    (K : Retirement → Activity) : Prop
  | free (unused : ¬ u.InUse i) (active : w.activity? c = some (K ⟨i, d, .free⟩))
  | again (inUse : u.InUse i) (inTime : ∀ t ∈ d, u.now < t)
      (active : w.activity? c = some (K ⟨i, d, .sleeping (u.now + pollInterval)⟩))
  /-- The rest is left to a call in the background. -/
  | late (inUse : u.InUse i) (due : ∃ t ∈ d, t ≤ u.now) (resumed : w.Resumed c i K)
      (handed : w.activity? u.fresh = some (.retirement ⟨i, none, .polling⟩))

/-- A call that begins is active, and so are those that were. -/
theorem active_begin (distinct : s.standing.Distinct) (a : Activity) :
    (s.begin a).activity? s.fresh = some a ∧
      ∀ c b, s.activity? c = some b → (s.begin a).activity? c = some b := by
  have begun := s.standing_begin a
  have distinct' : (s.begin a).standing.Distinct := begun ▸ Standing.Distinct.begin distinct
  have present {call : Call} (there : call ∈ s.calls ∨ call = ⟨s.fresh, a⟩) :
      call ∈ (s.begin a).calls := by
    change call ∈ (s.begin a).standing.calls
    rw [begun]
    exact Standing.mem_calls_begin.mpr there
  constructor
  · exact activity?_of_mem distinct' (present (.inr rfl))
  · intro c b active
    exact activity?_of_mem distinct' (present (.inl (mem_calls_of_activity? active)))

theorem looked_proceed (hK : Activity.Retires K) (distinct : u.standing.Distinct)
    (active : u.activity? c = some (K ⟨i, d, .polling⟩)) :
    u.Looked (u.step (.proceed c)) c i d K := by
  have ready : ¬ u.Waits c (K ⟨i, d, .polling⟩) := by cases hK <;> exact id
  obtain ⟨ended, acts, resumes, keeps⟩ := act_retires hK c i
  have distinct' := distinct.move (u.move_step (.proceed c))
  have stepped : u.step (.proceed c) = _ :=
    (step_proceed active (hK.gate?_eq nofun) ready).trans (acts u _ rfl)
  rw [stepped] at distinct' ⊢
  simp only [advanceRetirement, retireStep, poll] at distinct' ⊢
  by_cases inUse : u.InUse i
  · by_cases due : ∃ t ∈ d, t ≤ u.now
    · simp only [if_pos inUse, if_pos due] at distinct' ⊢
      have early : c ≠ u.fresh := Nat.ne_of_lt (distinct.lt_fresh _ (mem_calls_of_activity? active))
      obtain ⟨handed, kept⟩ := active_begin (s := u.log .warn drainWarning) distinct
        (.retirement ⟨i, none, .polling⟩)
      apply Looked.late inUse due (resumes _ _ (kept c _ active))
      apply activity?_of_mem distinct'
      exact (keeps _).1 _ (mem_calls_of_activity? handed) early.symm
    · simp only [if_pos inUse, if_neg due]
      apply Looked.again inUse
      · intro t there
        exact Nat.not_le.mp fun le => due ⟨t, there, le⟩
      · exact activity?_proceedTo (s := (u.sleep c ⟨i, d, .polling⟩).1) active
  · simp only [if_neg inUse]
    exact .free inUse (activity?_proceedTo active)

theorem proceed_sleeping (hK : Activity.Retires K) {t : Time}
    (active : u.activity? c = some (K ⟨i, d, .sleeping t⟩)) :
    (u.now < t ∧ u.step (.proceed c) = u) ∨
      (t ≤ u.now ∧ (u.step (.proceed c)).activity? c = some (K ⟨i, d, .polling⟩)) := by
  have gate : (K ⟨i, d, .sleeping t⟩).gate? = none := hK.gate?_eq nofun
  have waits : u.Waits c (K ⟨i, d, .sleeping t⟩) ↔ u.now < t := by cases hK <;> exact Iff.rfl
  by_cases early : u.now < t
  · refine .inl ⟨early, ?_⟩
    simp only [step, proceed, active, gate, if_pos (waits.mpr early)]
  · refine .inr ⟨Nat.not_lt.mp early, ?_⟩
    obtain ⟨ended, acts, -⟩ := act_retires hK c i
    rw [step_proceed active gate (mt waits.mp early), acts u _ rfl]
    exact activity?_proceedTo active

theorem proceed_free (hK : Activity.Retires K)
    (active : u.activity? c = some (K ⟨i, d, .free⟩)) :
    (u.step (.proceed c)).activity? c = some (K ⟨i, d, .releasing⟩) ∧
      .released c i ∈ (u.step (.proceed c)).journal := by
  have ready : ¬ u.Waits c (K ⟨i, d, .free⟩) := by cases hK <;> exact id
  obtain ⟨ended, acts, -⟩ := act_retires hK c i
  rw [step_proceed active (hK.gate?_eq nofun) ready, acts u _ rfl]
  exact ⟨activity?_proceedTo (s := u.note (.released c i)) active, List.mem_cons_self⟩

/-- The release of the engine has ended, and with it the retirement. -/
inductive EndedRelease (w : Server) (c : CallId) (i : Installation) (K : Retirement → Activity) :
    Prop
  | resumed (ended : .releaseEnded c i ∈ w.journal) (resumed : w.Resumed c i K)
  | panicked {p : Payload} (panics : i.engine.release = .panic p)
      (answered : w.answer? c = some (.panic p))

theorem proceed_releasing (hK : Activity.Retires K)
    (active : u.activity? c = some (K ⟨i, d, .releasing⟩)) :
    (u.step (.proceed c)).activity? c = some (K ⟨i, d, .releasing⟩) ∨
      (u.step (.proceed c)).EndedRelease c i K := by
  rcases rests_or_acts active with ⟨-, still⟩ | ⟨t, same, goes⟩
  · exact .inl ((activity?_congr (congrArg Standing.calls still)).trans active)
  · right
    obtain ⟨ended, acts, resumes, keeps⟩ := act_retires hK c i
    have active : t.activity? c = some (K ⟨i, d, .releasing⟩) :=
      (activity?_congr (congrArg Standing.calls same)).trans active
    have noted (level : Level) (text : String) :
        .releaseEnded c i ∈ (ended ((t.note (.releaseEnded c i)).log level text)).journal := by
      apply (mem_history.mp ((keeps _).2 _ ?_)).1
      exact mem_history.mpr ⟨.tail _ (.head _), rfl⟩
    rw [goes, acts t _ rfl]
    simp only [advanceRetirement, retireStep, released]
    cases outcome : i.engine.release with
    | released | failed message => exact .resumed (noted _ _) (resumes _ ⟨i, d, .releasing⟩ active)
    | panic p => exact .panicked outcome (stopped (t.standing_finish c (.panic p))).2.1

/-! ## The pace -/

/-- When a retirement that begins at `s` looks, having slept `k` times. -/
def instant (s : Server) (k : Nat) : Time := s.now + pollInterval * k

theorem instant_succ (s : Server) (k : Nat) : s.instant (k + 1) = s.instant k + pollInterval := by
  rw [instant, instant, Nat.mul_succ, Nat.add_assoc]

theorem instant_le_iff {j k : Nat} : s.instant j ≤ s.instant k ↔ j ≤ k :=
  Nat.add_le_add_iff_left.trans (Nat.mul_le_mul_left_iff (by decide))

/-- At the instants the engine is in use as the pattern says. -/
def Agrees (s u : Server) (i : Installation) (H : Nat → Prop) : Prop :=
  ∀ k, u.now = s.instant k → (u.InUse i ↔ H k)

instance (s u : Server) (i : Installation) (H : Nat → Prop) [DecidablePred H] :
    Decidable (s.Agrees u i H) :=
  decidable_of_iff (∀ k ≤ u.now, u.now = s.instant k → (u.InUse i ↔ H k)) <| by
    constructor
    · intro agrees k due
      have within : k ≤ u.now := by
        rw [due]
        exact Nat.le_trans (Nat.le_mul_of_pos_left k (by decide : 0 < pollInterval))
          (Nat.le_add_left _ _)
      exact agrees k within due
    · exact fun agrees k _ => agrees k

/-- The action cuts off a call that retires the engine. -/
def Deserts (s : Server) (act : Action) (i : Installation) : Prop :=
  ∃ c a, act = .cancel c ∧ s.activity? c = some a ∧ a.Owns i

theorem Uncut.not_deserts {early after : List Action} (uncut : s.Uncut after)
    (begins : early ++ [act] <+: after) : ¬ (s.run early).Deserts act i := by
  obtain ⟨rest, rfl⟩ := begins
  rw [List.append_assoc] at uncut
  rintro ⟨c, a, rfl, active, r, retires, -⟩
  exact spares_of_uncut uncut a active (Activity.handles_of_retires retires)

variable {H : Nat → Prop} {k : Nat} {stage : Draining}

/-- How the stage of a retirement goes with the time, if it has slept `k` times. -/
inductive Paced (s : Server) (H : Nat → Prop) (now : Time) (k : Nat) : Draining → Prop
  | polling (due : now = s.instant k) : Paced s H now k .polling
  | sleeping (early : now ≤ s.instant k) : Paced s H now k (.sleeping (s.instant k))
  | free (due : now = s.instant k) (unused : ¬ H k) : Paced s H now k .free
  | releasing (late : s.instant k ≤ now) (unused : ¬ H k) : Paced s H now k .releasing

/-- The call is at the retirement, has slept `k` times, and each time because the engine was in use
and its time was not up. -/
structure Looks (s u : Server) (H : Nat → Prop) (c : CallId) (K : Retirement → Activity)
    (i : Installation) (d : Option Time) (k : Nat) (stage : Draining) : Prop where
  active : u.activity? c = some (K ⟨i, d, stage⟩)
  held : ∀ j < k, H j
  inTime : ∀ j < k, ∀ t ∈ d, s.instant j < t
  paced : s.Paced H u.now k stage
  released : stage = .releasing → .released c i ∈ u.journal

/-- What a step comes to for a retirement. -/
inductive Turns (s u w : Server) (H : Nat → Prop) (act : Action) (c : CallId)
    (K : Retirement → Activity) (i : Installation) (d : Option Time) (k : Nat) : Prop
  | goesOn {k' : Nat} {stage : Draining} (looks : s.Looks w H c K i d k' stage)
  | handsOver (proceeds : act = .proceed c) (looks : s.Looks u H c K i d k .polling) (used : H k)
      (late : ∃ t ∈ d, t ≤ s.instant k) (resumed : w.Resumed c i K)
      (handed : w.activity? u.fresh = some (.retirement ⟨i, none, .polling⟩))
  | ends (proceeds : act = .proceed c) (looks : s.Looks u H c K i d k .releasing)
      (ended : w.EndedRelease c i K)

namespace Looks

theorem proceed (looks : s.Looks u H c K i d k stage) (hK : Activity.Retires K)
    (distinct : u.standing.Distinct) (agrees : s.Agrees u i H) :
    s.Turns u (u.step (.proceed c)) H (.proceed c) c K i d k := by
  have still : (u.step (.proceed c)).now = u.now := u.now_step (.proceed c)
  have ⟨active, held, inTime, paced, released⟩ := looks
  cases paced with
  | polling due =>
    have used := agrees k due
    cases looked_proceed hK distinct active with
    | free unused active =>
      have paced : s.Paced H (u.step (.proceed c)).now k .free :=
        .free (still.trans due) (mt used.mpr unused)
      exact .goesOn ⟨active, held, inTime, paced, nofun⟩
    | again inUse soon active =>
      rw [due, ← instant_succ] at active
      have paced : s.Paced H (u.step (.proceed c)).now (k + 1) (.sleeping (s.instant (k + 1))) := by
        apply Paced.sleeping
        rw [still, due]
        exact instant_le_iff.mpr (Nat.le_succ k)
      refine .goesOn ⟨active, ?_, ?_, paced, nofun⟩
      · intro j earlier
        rcases Nat.lt_succ_iff_lt_or_eq.mp earlier with before | rfl
        · exact held j before
        · exact used.mp inUse
      · intro j earlier t there
        rcases Nat.lt_succ_iff_lt_or_eq.mp earlier with before | rfl
        · exact inTime j before t there
        · exact due ▸ soon t there
    | late inUse late resumed handed =>
      exact .handsOver rfl looks (used.mp inUse) (due ▸ late) resumed handed
  | sleeping early =>
    rcases proceed_sleeping hK active with ⟨-, same⟩ | ⟨due, active⟩
    · rw [same]
      exact .goesOn ⟨active, held, inTime, .sleeping early, nofun⟩
    · have paced : s.Paced H (u.step (.proceed c)).now k .polling :=
        .polling (still.trans (Nat.le_antisymm early due))
      exact .goesOn ⟨active, held, inTime, paced, nofun⟩
  | free due unused =>
    obtain ⟨active, noted⟩ := proceed_free hK active
    have paced : s.Paced H (u.step (.proceed c)).now k .releasing :=
      .releasing (Nat.le_of_eq (still.trans due).symm) unused
    exact .goesOn ⟨active, held, inTime, paced, fun _ => noted⟩
  | releasing late unused =>
    rcases proceed_releasing hK active with resting | ended
    · have noted := mem_history.mpr ⟨released rfl, rfl⟩
      have kept := (u.move_step (.proceed c)).suffix.subset noted
      have paced : s.Paced H (u.step (.proceed c)).now k .releasing :=
        .releasing (still.symm ▸ late) unused
      exact .goesOn ⟨resting, held, inTime, paced, fun _ => (mem_history.mp kept).1⟩
    · exact .ends rfl looks ended

/-- While others go on, a retirement waits for its time. -/
theorem wait (looks : s.Looks u H c K i d k stage) (hK : Activity.Retires K) (exact : u.Exact act)
    (still : (u.step act).activity? c = u.activity? c) :
    s.Looks (u.step act) H c K i d k stage := by
  have passes := exact.passes looks.active (hK.retirement?_eq _)
  obtain ⟨active, held, inTime, paced, released⟩ := looks
  refine ⟨still.trans active, held, inTime, ?_, ?_⟩
  · cases paced with
    | polling due =>
      rcases passes with same | waits
      · exact .polling (same.trans due)
      · exact waits.elim
    | sleeping early =>
      rcases passes with same | waits
      · exact .sleeping (same ▸ early)
      · exact .sleeping waits
    | free due unused =>
      rcases passes with same | waits
      · exact .free (same.trans due) unused
      · exact waits.elim
    | releasing late unused =>
      refine .releasing (Nat.le_trans late ?_) unused
      rw [now_step]
      exact Nat.le_add_right _ _
  · intro called
    have noted := mem_history.mpr ⟨released called, rfl⟩
    exact (mem_history.mp ((u.move_step act).suffix.subset noted)).1

/-- A retirement that no one cuts off keeps its pace. -/
theorem turns (looks : s.Looks u H c K i d k stage) (hK : Activity.Retires K)
    (distinct : u.standing.Distinct) (exact : u.Exact act) (spares : ¬ u.Deserts act i)
    (agrees : s.Agrees u i H) : s.Turns u (u.step act) H act c K i d k := by
  by_cases proceeds : act = .proceed c
  · subst proceeds
    exact looks.proceed hK distinct agrees
  · have uncut : act ≠ .cancel c := by
      rintro rfl
      exact spares ⟨c, _, rfl, looks.active, _, hK.retirement?_eq _, rfl⟩
    have known : c < u.fresh := distinct.lt_fresh _ (mem_calls_of_activity? looks.active)
    have untouched := untouched_step distinct known proceeds uncut
    exact .goesOn (looks.wait hK exact untouched.activity)

end Looks

end Server

end HotSwap

import Mathlib.Data.List.Infix
import Mathlib.Order.Bounds.Basic
import HotSwap.Proofs.Draining.Pace

/-!
# Handing a retirement over

A retirement that takes too long is handed to a call in the background, and the caller goes on. The
engine is released at the first instant at which a look finds it out of use, whoever looks.
-/

namespace HotSwap

namespace Standing

variable {v w u : Standing} {c : CallId} {a b : Activity} {es : List Note} {i : Installation}
  {act : Server.Action}

/-! ## Who releases an engine -/

/-- Whoever is about to hear how a release ended called for it. -/
def Signed (v : Standing) : Prop :=
  ∀ call ∈ v.calls, ∀ r ∈ call.activity.retirement?, r.stage = .releasing →
    .released call.id r.installation ∈ v.history

theorem Goes.signs (goes : Goes v c a u es b) {r : Retirement} (retires : r ∈ b.retirement?)
    (releasing : r.stage = .releasing) : .released c r.installation ∈ es := by
  cases goes with
  | release hK =>
    rw [hK.retirement?_eq] at retires
    cases retires
    exact List.mem_cons_self
  | sleep hK | wake hK | clear hK =>
    rw [hK.retirement?_eq] at retires
    cases retires
    cases releasing
  | replace | take =>
    cases retires
    cases releasing
  | _ => cases retires

theorem Signed.move (signed : v.Signed) (moved : v.Move act w) : w.Signed := by
  intro call present r retires releasing
  cases moved.comes present with
  | stays known => exact moved.suffix.subset (signed call known r retires releasing)
  | begins _ opens =>
    rw [opens.retirement?_eq] at retires
    cases retires
  | proceeds known goes same =>
    rw [same]
    exact List.mem_append_left _ (goes.signs retires releasing)
  | handed _ handed =>
    rw [handed] at retires
    cases retires
    cases releasing
  | completes _ completing =>
    rw [completing] at retires
    cases retires

/-- One call at most is yet to release the engine, and none if it was released. -/
theorem Custody.pends_le (custody : v.Custody) (i : Installation) :
    v.tally (·.Pends i) + v.times (Note.releases i) ≤ 1 := by
  have accounted := custody.accounted i
  have once := custody.once i
  have total : (Ledger.custody i).total v =
    (Ledger.custody i).inSlot v.slot + v.tally (·.Pends i) + v.times (Note.releases i) := rfl
  omega

theorem tally_pos {p : Activity → Prop} [DecidablePred p] (known : ⟨c, a⟩ ∈ v.calls) (holds : p a) :
    0 < v.tally p :=
  List.countP_pos_iff.mpr ⟨_, known, decide_eq_true holds⟩

theorem times_releases_pos (released : .released c i ∈ v.history) :
    0 < v.times (Note.releases i) :=
  List.countP_pos_iff.mpr ⟨_, released, decide_eq_true rfl⟩

/-- Whoever retires an engine is yet to release it, or did. -/
theorem Signed.pends_or_released (signed : v.Signed) (known : ⟨c, a⟩ ∈ v.calls) (owns : a.Owns i) :
    a.Pends i ∨ ∃ j, .released c j ∈ v.history ∧ j.id = i.id := by
  obtain ⟨r, retires, same⟩ := owns
  by_cases releasing : r.stage = .releasing
  · exact .inr ⟨r.installation, signed _ known r retires releasing, same⟩
  · exact .inl ⟨r, retires, same, releasing⟩

end Standing

namespace Server

open Standing

variable {s u : Server} {c e : CallId} {K : Retirement → Activity} {i : Installation}
  {d : Option Time} {H : Nat → Prop} {k n k₀ : Nat} {stage : Draining} {act : Action}
  {actions : List Action}

theorem signed_run (setup : Setup) (actions : List Action) :
    ((start setup).run actions).standing.Signed :=
  standing_run (P := Signed) actions (List.forall_mem_nil _) fun moved held => held.move moved

/-- No other call retires the engine, or has released it. -/
structure RetiredBy (u : Server) (c : CallId) (i : Installation) : Prop where
  alone : ∀ e a, u.activity? e = some a → a.Owns i → e = c
  releases : ∀ e j, .released e j ∈ u.journal → j.id = i.id → e = c

theorem retiredBy_of_released (custody : u.standing.Custody) (signed : u.standing.Signed)
    (released : .released c i ∈ u.standing.history) :
    u.RetiredBy c i ∧ u.standing.times (Note.releases i) = 1 := by
  have bound := custody.pends_le i
  have noted := times_releases_pos released
  have unique {e : CallId} {j : Installation} (there : .released e j ∈ u.standing.history)
      (same : j.id = i.id) : e = c := by
    have only : Note.released e j = .released c i :=
      eq_of_countP_le_one (p := Note.releases i) (Nat.le_trans (Nat.le_add_left _ _) bound) there
        (decide_eq_true same) released (decide_eq_true rfl)
    cases only
    rfl
  refine ⟨⟨fun e a active owns => ?_, fun e j there same => ?_⟩, by omega⟩
  · have known := mem_calls_of_activity? active
    rcases signed.pends_or_released known owns with pends | ⟨j, there, same⟩
    · have pending := tally_pos (v := u.standing) (p := (·.Pends i)) known pends
      omega
    · exact unique there same
  · exact unique (mem_history.mpr ⟨there, rfl⟩) same

theorem retiredBy_of_pends {a : Activity} (custody : u.standing.Custody)
    (signed : u.standing.Signed) (active : u.activity? c = some a) (pends : a.Pends i) :
    u.RetiredBy c i ∧ u.standing.times (Note.releases i) = 0 := by
  have bound := custody.pends_le i
  have known := mem_calls_of_activity? active
  have pending := tally_pos (v := u.standing) (p := (·.Pends i)) known pends
  have unreleased {e : CallId} {j : Installation} (there : .released e j ∈ u.standing.history)
      (same : j.id = i.id) : False := by
    have noted : 0 < u.standing.times (Note.releases i) :=
      List.countP_pos_iff.mpr ⟨_, there, decide_eq_true same⟩
    omega
  refine ⟨⟨fun e b other owns => ?_, fun e j there same => ?_⟩, by omega⟩
  · have present := mem_calls_of_activity? other
    rcases signed.pends_or_released present owns with pends' | ⟨j, there, same⟩
    · have only : (⟨e, b⟩ : Call) = ⟨c, a⟩ :=
        eq_of_countP_le_one (p := fun call => call.activity.Pends i)
          (Nat.le_trans (Nat.le_add_right _ _) bound) present (decide_eq_true pends') known
          (decide_eq_true pends)
      cases only
      rfl
    · exact (unreleased there same).elim
  · exact (unreleased (mem_history.mpr ⟨there, rfl⟩) same).elim

/-! ## How far a drain got -/

/-- At its look `k` the call leaves the rest of the retirement to the call `e`, and goes on. -/
def HandsOver (s : Server) (actions : List Action) (c : CallId) (K : Retirement → Activity)
    (i : Installation) (k : Nat) (e : CallId) : Prop :=
  s.LetsOn actions c fun u => u.now = s.instant k ∧
    (∃ d, u.activity? c = some (K ⟨i, d, .polling⟩)) ∧
    (u.step (.proceed c)).Resumed c i K ∧
    (u.step (.proceed c)).activity? e = some (.retirement ⟨i, none, .polling⟩)

/-- The call has released the engine, which it found out of use at its look `k`. -/
structure Finishes (s : Server) (H : Nat → Prop) (actions : List Action) (c : CallId)
    (K : Retirement → Activity) (i : Installation) (k : Nat) : Prop where
  least : IsLeast {k | ¬ H k} k
  late : s.instant k ≤ (s.run actions).now
  released : .released c i ∈ (s.run actions).journal
  ended : s.LetsOn actions c fun u => (∃ d, u.activity? c = some (K ⟨i, d, .releasing⟩)) ∧
    (u.step (.proceed c)).EndedRelease c i K

/-- How far the drain that begins at `s` got, if its time is up at the look `k₀`. -/
inductive Drain (s : Server) (H : Nat → Prop) (c : CallId) (K : Retirement → Activity)
    (i : Installation) (k₀ : Nat) (actions : List Action) : Prop
  | ahead {k : Nat} {stage : Draining}
      (looks : s.Looks (s.run actions) H c K i (s.retire i).deadline k stage)
  | done {k : Nat} (within : k ≤ k₀) (finishes : s.Finishes H actions c K i k)
  | behind {e : CallId} {k : Nat} {stage : Draining} (held : ∀ k ≤ k₀, H k)
      (hands : s.HandsOver actions c K i k₀ e)
      (looks : s.Looks (s.run actions) H e .retirement i none k stage)
  | past {e : CallId} {k : Nat} (held : ∀ k ≤ k₀, H k) (hands : s.HandsOver actions c K i k₀ e)
      (finishes : s.Finishes H actions e .retirement i k)

theorem Finishes.later (finishes : s.Finishes H actions c K i k) (act : Action) :
    s.Finishes H (actions ++ [act]) c K i k := by
  obtain ⟨least, late, released, ended⟩ := finishes
  refine ⟨least, ?_, ?_, ended.later act⟩
  · rw [run_concat, now_step]
    exact Nat.le_trans late (Nat.le_add_right _ _)
  · have noted := mem_history.mpr ⟨released, rfl⟩
    rw [run_concat]
    exact (mem_history.mp (((s.run actions).move_step act).suffix.subset noted)).1

/-- A call that hears how the release ended has finished the drain. -/
theorem Looks.finishes (looks : s.Looks (s.run actions) H c K i d k .releasing)
    (ended : ((s.run actions).step (.proceed c)).EndedRelease c i K) :
    s.Finishes H (actions ++ [.proceed c]) c K i k := by
  obtain ⟨active, held, -, paced, released⟩ := looks
  cases paced with
  | releasing late unused =>
    refine ⟨⟨unused, fun j free => ?_⟩, ?_, ?_, .last ⟨⟨d, active⟩, ended⟩⟩
    · exact Nat.not_lt.mp fun earlier => free (held j earlier)
    · rw [run_concat, now_step]
      exact late
    · have noted := mem_history.mpr ⟨released rfl, rfl⟩
      rw [run_concat]
      exact (mem_history.mp (((s.run actions).move_step (.proceed c)).suffix.subset noted)).1

namespace Drain

/-- As long as the time of a retirement is not up, it has not slept longer than that. -/
theorem within_of_inTime (last : IsLeast {k | s.setup.drainTimeout.toNat ≤ pollInterval * k} k₀)
    (inTime : ∀ j < k, ∀ t ∈ (s.retire i).deadline, s.instant j < t) : k ≤ k₀ := by
  apply Nat.not_lt.mp
  intro longer
  have early : s.instant k₀ < s.now + s.setup.drainTimeout.toNat := inTime k₀ longer _ rfl
  exact Nat.not_lt.mpr (Nat.add_le_add_left last.1 s.now) early

theorem step (drain : s.Drain H c K i k₀ actions) (hK : Activity.Retires K)
    (last : IsLeast {k | s.setup.drainTimeout.toNat ≤ pollInterval * k} k₀)
    (distinct : (s.run actions).standing.Distinct) (exact : (s.run actions).Exact act)
    (spares : ¬ (s.run actions).Deserts act i) (agrees : s.Agrees (s.run actions) i H) :
    s.Drain H c K i k₀ (actions ++ [act]) := by
  cases drain with
  | @ahead k stage looks =>
    have within : k ≤ k₀ := within_of_inTime last looks.inTime
    cases looks.turns hK distinct exact spares agrees with
    | goesOn looks => exact .ahead (run_concat s actions act ▸ looks)
    | ends proceeds looks ended =>
      subst proceeds
      exact .done within (looks.finishes ended)
    | handsOver proceeds looks used late resumed handed =>
      subst proceeds
      -- the time was up at no earlier look, so that this is the last one
      obtain ⟨t, up, late⟩ := late
      cases up
      obtain rfl : k = k₀ :=
        Nat.le_antisymm within (last.2 (Nat.le_of_add_le_add_left late))
      have held (j : Nat) (earlier : j ≤ k) : H j := by
        rcases Nat.lt_or_eq_of_le earlier with before | rfl
        · exact looks.held j before
        · exact used
      have hands : s.HandsOver (actions ++ [.proceed c]) c K i k (s.run actions).fresh := by
        cases looks.paced with
        | polling due => exact .last ⟨due, ⟨_, looks.active⟩, resumed, handed⟩
      have paced : s.Paced H (s.run (actions ++ [.proceed c])).now k .polling := by
        rw [run_concat, now_step]
        exact looks.paced
      rw [← run_concat] at handed
      refine .behind held hands ⟨handed, looks.held, ?_, paced, nofun⟩
      intro j earlier t none
      cases none
  | done within finishes => exact .done within (finishes.later act)
  | behind held hands looks =>
    cases looks.turns .background distinct exact spares agrees with
    | goesOn looks => exact .behind held (hands.later act) (run_concat s actions act ▸ looks)
    | ends proceeds looks ended =>
      subst proceeds
      exact .past held (hands.later _) (looks.finishes ended)
    | handsOver _ _ _ late =>
      obtain ⟨t, up, -⟩ := late
      cases up
  | past held hands finishes => exact .past held (hands.later act) (finishes.later act)

end Drain

theorem drain_run {after : List Action} (hK : Activity.Retires K)
    (distinct : s.standing.Distinct) (drains : s.activity? c = some (K (s.retire i)))
    (last : IsLeast {k | s.setup.drainTimeout.toNat ≤ pollInterval * k} k₀)
    (kept : ∀ early act, early ++ [act] <+: after → ¬ (s.run early).Deserts act i)
    (punctual : s.Punctual after)
    (steady : ∀ early, early <+: after → s.Agrees (s.run early) i H) (actions : List Action)
    (begins : actions <+: after) : s.Drain H c K i k₀ actions := by
  induction actions using List.reverseRecOn with
  | nil =>
    have paced : s.Paced H s.now 0 .polling := .polling rfl
    have none (j : Nat) (earlier : j < 0) : False := Nat.not_lt_zero j earlier
    exact .ahead ⟨drains, fun j early => (none j early).elim, fun j early => (none j early).elim,
      paced, nofun⟩
  | append_singleton actions act inductionHypothesis =>
    have earlier : actions <+: after := (List.prefix_append actions [act]).trans begins
    have spares := kept actions act begins
    obtain ⟨rest, split⟩ := begins
    rw [List.append_assoc] at split
    subst split
    have reached : (s.run actions).standing.Distinct :=
      standing_run actions distinct fun moved held => held.move moved
    exact (inductionHypothesis earlier).step hK last reached (exact_of_punctual punctual) spares
      (steady actions earlier)

/-! ## When the engine is released -/

/-- How the release goes with the time: it is yet to come, and so is the look after next, or the
engine was found out of use. -/
inductive Timed (s u : Server) (H : Nat → Prop) (i : Installation) : Prop
  | early {k : Nat} (early : u.now ≤ s.instant k) (held : ∀ j < k, H j)
      (unreleased : u.standing.times (Note.releases i) = 0)
  | late {k : Nat} (late : s.instant k ≤ u.now) (least : IsLeast {k | ¬ H k} k)
      (released : u.standing.times (Note.releases i) = 1)

namespace Timed

theorem unreleased (timed : s.Timed u H i) (least : IsLeast {k | ¬ H k} n)
    (soon : u.now < s.instant n) : u.standing.times (Note.releases i) = 0 := by
  cases timed with
  | early _ _ unreleased => exact unreleased
  | late late least' =>
    cases least.unique least'
    exact absurd late (Nat.not_le.mpr soon)

theorem released (timed : s.Timed u H i) (least : IsLeast {k | ¬ H k} n)
    (passed : s.instant n < u.now) : u.standing.times (Note.releases i) = 1 := by
  cases timed with
  | @early k early held =>
    -- the engine was in use at all looks so far
    have later : k ≤ n := Nat.not_lt.mp fun sooner => least.1 (held n sooner)
    exact absurd (Nat.le_trans early (instant_le_iff.mpr later)) (Nat.not_le.mpr passed)
  | late _ _ released => exact released

theorem kept (timed : s.Timed u H i) (used : ∀ k, H k) :
    u.standing.times (Note.releases i) = 0 := by
  cases timed with
  | early _ _ unreleased => exact unreleased
  | late _ least => exact absurd (used _) least.1

end Timed

theorem Looks.timed (looks : s.Looks u H c K i d k stage) (hK : Activity.Retires K)
    (custody : u.standing.Custody) (signed : u.standing.Signed) :
    s.Timed u H i ∧ u.RetiredBy c i := by
  have pends (early : stage ≠ .releasing) :
      u.RetiredBy c i ∧ u.standing.times (Note.releases i) = 0 :=
    retiredBy_of_pends custody signed looks.active ⟨_, hK.retirement?_eq _, rfl, early⟩
  cases looks.paced with
  | polling due =>
    obtain ⟨only, unreleased⟩ := pends nofun
    exact ⟨.early (Nat.le_of_eq due) looks.held unreleased, only⟩
  | sleeping early =>
    obtain ⟨only, unreleased⟩ := pends nofun
    exact ⟨.early early looks.held unreleased, only⟩
  | free due unused =>
    obtain ⟨only, unreleased⟩ := pends nofun
    exact ⟨.early (Nat.le_of_eq due) looks.held unreleased, only⟩
  | releasing late unused =>
    have noted := mem_history.mpr ⟨looks.released rfl, rfl⟩
    obtain ⟨only, released⟩ := retiredBy_of_released custody signed noted
    have least : IsLeast {k | ¬ H k} k :=
      ⟨unused, fun j free => Nat.not_lt.mp fun earlier => free (looks.held j earlier)⟩
    exact ⟨.late late least released, only⟩

theorem Finishes.timed (finishes : s.Finishes H actions c K i k)
    (custody : (s.run actions).standing.Custody) (signed : (s.run actions).standing.Signed) :
    s.Timed (s.run actions) H i ∧ (s.run actions).RetiredBy c i := by
  have noted := mem_history.mpr ⟨finishes.released, rfl⟩
  obtain ⟨only, released⟩ := retiredBy_of_released custody signed noted
  exact ⟨.late finishes.late finishes.least released, only⟩

theorem HandsOver.now_le (hands : s.HandsOver actions c K i k e) :
    s.instant k ≤ (s.run actions).now := by
  obtain ⟨early, late, rfl, due, -⟩ := hands
  rw [run_append, ← due]
  exact now_le_run _ _

/-- The call is at the retirement. -/
def AtRetirement (u : Server) (c : CallId) (K : Retirement → Activity) (i : Installation) : Prop :=
  ∃ d stage, u.activity? c = some (K ⟨i, d, stage⟩)

/-- A drain that begins at `s` keeps its time, if its time is up at the look `k₀`. -/
structure KeepsTime (s : Server) (after : List Action) (c : CallId) (K : Retirement → Activity)
    (i : Installation) (H : Nat → Prop) (k₀ : Nat) : Prop where
  unreleased : ∀ n, IsLeast {k | ¬ H k} n → (s.run after).now < s.instant n →
    (s.run after).times (Note.releases i) = 0
  released : ∀ n, IsLeast {k | ¬ H k} n → s.instant n < (s.run after).now →
    (s.run after).times (Note.releases i) = 1
  kept : (∀ k, H k) → (s.run after).times (Note.releases i) = 0
  /-- If the engine is found out of use in time, the caller waits for the release to end. -/
  waits : ∀ n, IsLeast {k | ¬ H k} n → n ≤ k₀ → (s.run after).RetiredBy c i ∧
    ((s.run after).AtRetirement c K i ∨ s.Finishes H after c K i n)
  /-- Else it waits until the time is up, -/
  stays : (∀ k ≤ k₀, H k) → (s.run after).now < s.instant k₀ →
    (s.run after).RetiredBy c i ∧ (s.run after).AtRetirement c K i
  /-- and then leaves the rest to one other call. -/
  leaves : (∀ k ≤ k₀, H k) → s.instant k₀ < (s.run after).now →
    ∃ e, s.HandsOver after c K i k₀ e ∧ (s.run after).RetiredBy e i

namespace Drain

theorem timed (drain : s.Drain H c K i k₀ actions) (hK : Activity.Retires K)
    (custody : (s.run actions).standing.Custody) (signed : (s.run actions).standing.Signed) :
    s.Timed (s.run actions) H i := by
  cases drain with
  | ahead looks => exact (looks.timed hK custody signed).1
  | done _ finishes => exact (finishes.timed custody signed).1
  | behind _ _ looks => exact (looks.timed .background custody signed).1
  | past _ _ finishes => exact (finishes.timed custody signed).1

theorem waits (drain : s.Drain H c K i k₀ actions) (hK : Activity.Retires K)
    (custody : (s.run actions).standing.Custody) (signed : (s.run actions).standing.Signed)
    (least : IsLeast {k | ¬ H k} n) (within : n ≤ k₀) :
    (s.run actions).RetiredBy c i ∧
      ((s.run actions).AtRetirement c K i ∨ s.Finishes H actions c K i n) := by
  cases drain with
  | ahead looks => exact ⟨(looks.timed hK custody signed).2, .inl ⟨_, _, looks.active⟩⟩
  | done _ finishes =>
    cases least.unique finishes.least
    exact ⟨(finishes.timed custody signed).2, .inr finishes⟩
  | behind held | past held => exact absurd (held n within) least.1

theorem stays (drain : s.Drain H c K i k₀ actions) (hK : Activity.Retires K)
    (custody : (s.run actions).standing.Custody) (signed : (s.run actions).standing.Signed)
    (used : ∀ k ≤ k₀, H k) (soon : (s.run actions).now < s.instant k₀) :
    (s.run actions).RetiredBy c i ∧ (s.run actions).AtRetirement c K i := by
  cases drain with
  | ahead looks => exact ⟨(looks.timed hK custody signed).2, _, _, looks.active⟩
  | done within finishes => exact absurd (used _ within) finishes.least.1
  | behind _ hands | past _ hands => exact absurd hands.now_le (Nat.not_le.mpr soon)

theorem leaves (drain : s.Drain H c K i k₀ actions)
    (last : IsLeast {k | s.setup.drainTimeout.toNat ≤ pollInterval * k} k₀)
    (custody : (s.run actions).standing.Custody) (signed : (s.run actions).standing.Signed)
    (used : ∀ k ≤ k₀, H k) (passed : s.instant k₀ < (s.run actions).now) :
    ∃ e, s.HandsOver actions c K i k₀ e ∧ (s.run actions).RetiredBy e i := by
  cases drain with
  | @ahead k stage looks =>
    have within : k ≤ k₀ := within_of_inTime last looks.inTime
    have late : s.instant k < (s.run actions).now :=
      Nat.lt_of_le_of_lt (instant_le_iff.mpr within) passed
    cases looks.paced with
    | polling due | free due => exact absurd due (Nat.ne_of_gt late)
    | sleeping early => exact absurd early (Nat.not_le.mpr late)
    | releasing _ unused => exact absurd (used k within) unused
  | done within finishes => exact absurd (used _ within) finishes.least.1
  | behind _ hands looks => exact ⟨_, hands, (looks.timed .background custody signed).2⟩
  | past _ hands finishes => exact ⟨_, hands, (finishes.timed custody signed).2⟩

theorem keepsTime (drain : s.Drain H c K i k₀ actions) (hK : Activity.Retires K)
    (last : IsLeast {k | s.setup.drainTimeout.toNat ≤ pollInterval * k} k₀)
    (custody : (s.run actions).standing.Custody) (signed : (s.run actions).standing.Signed) :
    s.KeepsTime actions c K i H k₀ := by
  have unlogged (n : Note) : n.releases i → n.isLine = false := by
    cases n <;> simp [Note.releases, Note.isLine]
  have counted := standing_times (s.run actions) unlogged
  have timed := drain.timed hK custody signed
  constructor
  · intro n least soon
    rw [← counted]
    exact timed.unreleased least soon
  · intro n least passed
    rw [← counted]
    exact timed.released least passed
  · intro used
    rw [← counted]
    exact timed.kept used
  · intro n least within
    exact drain.waits hK custody signed least within
  · intro used soon
    exact drain.stays hK custody signed used soon
  · intro used passed
    exact drain.leaves last custody signed used passed

end Drain

/-- An engine is released at the first instant at which a look finds it out of use. The instant is
the same whatever the drain timeout, and whether the caller still waits then or has left the rest to
a call in the background. -/
theorem release_keeps_time (setup : Setup) (before after : List Action)
    (hK : Activity.Retires K) :
    let s := (start setup).run before
    s.activity? c = some (K (s.retire i)) →
    IsLeast {k | s.setup.drainTimeout.toNat ≤ pollInterval * k} k₀ → s.Punctual after →
    (∀ early act, early ++ [act] <+: after → ¬ (s.run early).Deserts act i) →
    (∀ early, early <+: after → s.Agrees (s.run early) i H) → s.KeepsTime after c K i H k₀ := by
  intro s drains last punctual kept steady
  have reached : s.run after = (start setup).run (before ++ after) :=
    (run_append (start setup) before after).symm
  have drain := drain_run hK (distinct_run setup before) drains last kept punctual steady after
    List.prefix_rfl
  apply drain.keepsTime hK last
  · rw [reached]
    exact custody_run setup _
  · rw [reached]
    exact signed_run setup _

/-- A server whose patience ends between two looks at an engine. -/
def hastySetup : Setup := { Setup.patient with drainTimeout := 15 }

/-- A drain whose time is up between two looks is handed over at the next one, and its engine is let
go of between two looks of the call in the background. -/
theorem hasty_drain_is_handed_over :
    let first : Installation := ⟨2, ⟨1, .trial 1⟩, "trial", 1, .ofMillis 0⟩
    let before : List Action :=
      .demand .reload :: proceeds 7 0 ++ .keep "held" :: .demand .reload :: proceeds 6 3
    let s := (start hastySetup).run before
    let K (r : Retirement) : Activity := .reload .program (.retiring ⟨2, 0⟩ "trial" r)
    let after : List Action := [.proceed 3, .elapse 10, .proceed 3, .proceed 3, .elapse 10,
      .proceed 3, .proceed 3, .proceed 6, .elapse 5, .letGo "held", .elapse 5, .proceed 6,
      .proceed 6, .proceed 6, .elapse 1]
    (s.run after).times (Note.releases first) = 1 ∧ ∃ e, s.HandsOver after 3 K first 2 e := by
  have last : IsLeast {k | 15 ≤ pollInterval * k} 2 := by
    constructor
    · exact (by decide : 15 ≤ 10 * 2)
    · intro k enough
      have enough : 15 ≤ 10 * k := enough
      omega
  have least : IsLeast {k | ¬ k < 3} 3 :=
    ⟨Nat.lt_irrefl 3, fun k free => Nat.not_lt.mp free⟩
  intro first before s K after
  have drains : s.activity? 3 = some (K (s.retire first)) := rfl
  have uncut : s.Uncut after := by decide
  have punctual : s.Punctual after := by decide
  have steady : ∀ early ∈ after.inits, s.Agrees (s.run early) first (· < 3) := by decide
  have keeps : s.KeepsTime after 3 K first (· < 3) 2 :=
    release_keeps_time hastySetup before after (.reload .program ⟨2, 0⟩ "trial") drains last
      punctual (fun _ _ => uncut.not_deserts) fun early begins =>
        steady early ((List.mem_inits _ _).mpr begins)
  have released := keeps.released 3 least (by decide)
  obtain ⟨e, hands, -⟩ := keeps.leaves (fun k within => Nat.lt_succ_of_le within) (by decide)
  exact ⟨released, e, hands⟩

end Server

end HotSwap

import HotSwap.Proofs.Custody.Ledger
import HotSwap.Proofs.Standing.Step

/-!
# Where engines are

An engine that was installed is in the slot, is waiting for its release in some call, or was
released. A release that was called is under way in some call, or has ended. What was installed is
in the slot, or has left it. All three are ledgers.
-/

namespace HotSwap

namespace Activity

variable (i : Installation) (a : Activity)

/-- The call has yet to release the engine. -/
def Pends : Prop := ∃ r ∈ a.retirement?, r.installation.id = i.id ∧ r.stage ≠ .releasing

/-- The call is about to hear how the release ended. -/
def Releases : Prop := ∃ r ∈ a.retirement?, r.installation.id = i.id ∧ r.stage = .releasing

/-- The call retires the engine. -/
def Owns : Prop := ∃ r ∈ a.retirement?, r.installation.id = i.id

instance : Decidable (a.Pends i) := inferInstanceAs (Decidable (∃ r ∈ a.retirement?, _))

instance : Decidable (a.Releases i) := inferInstanceAs (Decidable (∃ r ∈ a.retirement?, _))

instance : Decidable (a.Owns i) := inferInstanceAs (Decidable (∃ r ∈ a.retirement?, _))

variable {K : Retirement → Activity}

theorem Retires.held?_eq (hK : Retires K) (r : Retirement) : (K r).held? = none := by
  cases hK <;> rfl

theorem Retires.retirement?_eq (hK : Retires K) (r : Retirement) : (K r).retirement? = some r := by
  cases hK <;> rfl

theorem owns_split :
    (if a.Owns i then 1 else 0) =
      (if a.Pends i then 1 else 0) + (if a.Releases i then 1 else 0) := by
  cases retires : a.retirement? with
  | none => simp [Owns, Pends, Releases, retires]
  | some r =>
    by_cases same : r.installation.id = i.id
    · by_cases called : r.stage = .releasing
      · simp [Owns, Pends, Releases, retires, same, called]
      · simp [Owns, Pends, Releases, retires, same, called]
    · simp [Owns, Pends, Releases, retires, same]

end Activity

namespace Standing

variable {v : Standing}

theorem Opens.retirement?_eq {a : Activity} (opens : v.Opens a) : a.retirement? = none := by
  cases opens <;> rfl

/-- A call that retires an engine has yet to release it or is about to hear how that ended. -/
theorem tally_owns (i : Installation) :
    v.tally (·.Owns i) = v.tally (·.Pends i) + v.tally (·.Releases i) := by
  unfold tally
  induction v.calls with
  | nil => rfl
  | cons call rest inductionHypothesis =>
    have split := call.activity.owns_split i
    simp only [List.countP_cons, decide_eq_true_eq, inductionHypothesis]
    omega

end Standing

namespace Note

/-! What a note tells of one engine. -/

variable (i : Installation)

def installs : Note → Bool
  | .installed j _ => j.id = i.id
  | _ => false

def executes : Note → Bool
  | .executed _ j _ => j.id = i.id
  | _ => false

def releases : Note → Bool
  | .released _ j => j.id = i.id
  | _ => false

def endsRelease : Note → Bool
  | .releaseEnded _ j => j.id = i.id
  | _ => false

/-- The engine leaves the slot, which is emptied or filled anew. -/
def vacates : Note → Bool
  | .taken j => j.id = i.id
  | .installed _ (some j) => j.id = i.id
  | _ => false

theorem installs_self (previous : Option Installation) : (installed i previous).installs i :=
  decide_eq_true rfl

end Note

namespace Ledger

/-- What is installed of a kind is in the slot, then with calls that have yet to release it. -/
def keeping (q : Installation → Prop) [DecidablePred q] : Ledger where
  inSlot := fun slot => if ∃ j ∈ slot, q j then 1 else 0
  Holds := fun a => ∃ r ∈ a.retirement?, q r.installation ∧ r.stage ≠ .releasing
  enters := fun n =>
    match n with
    | .installed j _ => q j
    | _ => false
  leaves := fun n =>
    match n with
    | .released _ j => q j
    | _ => false

/-- What is installed is in the slot, then with calls that have yet to release it. -/
def custody (i : Installation) : Ledger where
  inSlot := fun slot => if ∃ j ∈ slot, j.id = i.id then 1 else 0
  Holds := (·.Pends i)
  enters := Note.installs i
  leaves := Note.releases i

/-- A release that was called is under way until it ends. -/
def releasing (i : Installation) : Ledger where
  inSlot := fun _ => 0
  Holds := (·.Releases i)
  enters := Note.releases i
  leaves := Note.endsRelease i

/-- What is installed is in the slot until it is replaced or taken. -/
def service (i : Installation) : Ledger where
  inSlot := fun slot => if ∃ j ∈ slot, j.id = i.id then 1 else 0
  Holds := fun _ => False
  enters := Note.installs i
  leaves := Note.vacates i

variable {q : Installation → Prop} [DecidablePred q] {i : Installation}

theorem held_keeping (a : Activity) : (keeping q).held a =
    if ∃ r ∈ a.retirement?, q r.installation ∧ r.stage ≠ .releasing then 1 else 0 := rfl

theorem held_releasing (a : Activity) : (releasing i).held a = if a.Releases i then 1 else 0 := rfl

/-- A call that stops, be it in a panic, has no engine left to release. -/
theorem keeping_stops {v u : Standing} {c : CallId} {a : Activity} {es : List Note} {x : Answer}
    (stops : v.Stops c a u es x) : es.countP (keeping q).leaves = (keeping q).held a := by
  rw [held_keeping]
  cases stops with
  | releasePanic hK => simp [hK.retirement?_eq]
  | _ => simp [Activity.retirement?, keeping]

theorem sound_keeping : (keeping q).Sound where
  called _ _ := ⟨rfl, rfl⟩
  ended _ _ := ⟨rfl, rfl⟩
  opens opens := by simp [held_keeping, opens.retirement?_eq]
  goes goes := by
    simp only [held_keeping]
    cases goes with
    | sleep hK | wake hK | clear hK => simp [hK.retirement?_eq]
    | release hK => simp [hK.retirement?_eq, keeping]
    | replace slot | install slot | take _ slot =>
      simp [Activity.retirement?, keeping, slot, Nat.add_comm]
    | _ => simp [Activity.retirement?, keeping]
  stops stops := by
    refine ⟨?_, ?_, .inl (keeping_stops stops)⟩
    · cases stops <;> rfl
    · cases stops <;> rfl
  handed hK i d := by
    simp [held_keeping, hK.retirement?_eq, Activity.Retires.background.retirement?_eq]
  completing _ _ _ _ := rfl

theorem custody_stops {v u : Standing} {c : CallId} {a : Activity} {es : List Note} {x : Answer}
    (stops : v.Stops c a u es x) : es.countP (custody i).leaves = (custody i).held a :=
  keeping_stops (q := (·.id = i.id)) stops

theorem sound_custody : (custody i).Sound := sound_keeping (q := (·.id = i.id))

theorem sound_releasing : (releasing i).Sound where
  called _ _ := ⟨rfl, rfl⟩
  ended _ _ := ⟨rfl, rfl⟩
  opens opens := by simp [held_releasing, Activity.Releases, opens.retirement?_eq]
  goes goes := by
    simp only [held_releasing, Activity.Releases]
    cases goes with
    | sleep hK | wake hK | clear hK => simp [hK.retirement?_eq, releasing]
    | release hK => simp [hK.retirement?_eq, releasing, Note.releases, Note.endsRelease]
    | _ => simp [Activity.retirement?, releasing, Note.releases, Note.endsRelease]
  stops stops := by
    simp only [held_releasing, Activity.Releases]
    cases stops with
    | releasePanic hK => simp [hK.retirement?_eq]
    | _ => simp [Activity.retirement?, releasing, Note.releases, Note.endsRelease]
  handed hK i d := by
    simp [held_releasing, Activity.Releases, hK.retirement?_eq,
      Activity.Retires.background.retirement?_eq]
  completing _ _ _ _ := rfl

theorem held_service (a : Activity) : (service i).held a = 0 := if_neg id

theorem sound_service : (service i).Sound where
  called _ _ := ⟨rfl, rfl⟩
  ended _ _ := ⟨rfl, rfl⟩
  opens _ := held_service _
  goes goes := by
    simp only [held_service]
    cases goes with
    | replace slot => simp [service, Note.installs, Note.vacates, slot, Nat.add_comm]
    | install slot => simp [service, Note.installs, Note.vacates, slot]
    | take _ slot => simp [service, Note.installs, Note.vacates, slot]
    | _ => simp [service, Note.installs, Note.vacates]
  stops stops := by
    simp only [held_service]
    cases stops <;> exact ⟨rfl, by simp [service, Note.installs], by simp [service, Note.vacates]⟩
  handed _ _ _ := by simp only [held_service]
  completing _ _ _ _ := held_service _

end Ledger

end HotSwap

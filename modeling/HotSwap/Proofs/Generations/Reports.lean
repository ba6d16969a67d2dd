import HotSwap.Proofs.Generations.Numbers

/-!
# Reports

The constructor that an attempt calls, what the attempt installs and what it reports have the
generation of the attempt. A report names what the installation found in the slot.
-/

namespace HotSwap

/-- What an attempt says it installed, and in place of what, it did. -/
def Reload.Stage.Installed (history : List Note) : Reload.Stage → Prop
  | .retiring t _ r =>
    ∃ i, .installed i (some r.installation) ∈ history ∧ i.generation = t.generation
  | .completing t _ previous =>
    ∃ i prev, .installed i prev ∈ history ∧ i.generation = t.generation ∧
      previous = prev.map Installation.generation
  | _ => True

theorem Reload.Stage.Installed.mono {h h' : List Note} (grown : h ⊆ h') {stage : Reload.Stage}
    (installed : stage.Installed h) : stage.Installed h' := by
  cases stage with
  | retiring =>
    obtain ⟨i, there, generation⟩ := installed
    exact ⟨i, grown there, generation⟩
  | completing =>
    obtain ⟨i, prev, there, generation, previous⟩ := installed
    exact ⟨i, prev, grown there, generation, previous⟩
  | _ => trivial

namespace Standing

variable {v w u : Standing} {c d : CallId} {a b : Activity} {es : List Note} {x : Answer}
  {o : Origin} {stage : Reload.Stage} {act : Server.Action}

theorem Goes.constructed (goes : Goes v c a u es b) {name : String} {context : Context}
    {noted : Bool} (there : .constructed d name context noted ∈ es) :
    d = c ∧ ∃ o t, a = .reload o (.building t) ∧ context.generation = t.generation := by
  cases goes with
  | misconstruct | construct =>
    cases List.mem_singleton.mp there
    exact ⟨rfl, _, _, rfl, rfl⟩
  | _ => simp at there

theorem Stops.constructed (stops : Stops v c a u es x) {name : String} {context : Context}
    {noted : Bool} (there : .constructed d name context noted ∈ es) :
    d = c ∧ ∃ o t, a = .reload o (.building t) ∧ context.generation = t.generation := by
  cases stops with
  | constructorPanic =>
    cases List.mem_singleton.mp there
    exact ⟨rfl, _, _, rfl, rfl⟩
  | _ => simp at there

theorem Stops.reported (stops : Stops v c a u es x) {r : Report}
    (there : .returned d (.ok r) ∈ es) :
    d = c ∧ ∃ o t p previous, a = .reload o (.completing t p previous) ∧
      r.generation = t.generation ∧ r.previousGeneration = previous := by
  cases stops with
  | succeed =>
    cases List.mem_singleton.mp there
    exact ⟨rfl, _, _, _, _, rfl, rfl, rfl⟩
  | _ => simp at there

/-- An attempt goes on with what it installed. -/
theorem Goes.installed (goes : Goes v c a u es b) (reloads : b = .reload o stage)
    (installed : ∀ o stage, a = .reload o stage → stage.Installed v.history) :
    stage.Installed (es ++ v.history) := by
  have grown : v.history ⊆ es ++ v.history := List.subset_append_right _ _
  cases goes with
  | sleep hK | wake hK | clear hK | release hK =>
    cases hK with
    | reload =>
      cases reloads
      have kept := (installed _ _ rfl).mono grown
      exact kept
    | _ => cases reloads
  | replace slot =>
    cases reloads
    exact ⟨_, List.mem_cons_self, rfl⟩
  | install slot =>
    cases reloads
    exact ⟨_, _, List.mem_cons_self, rfl, rfl⟩
  | released =>
    cases reloads
    obtain ⟨i, there, generation⟩ := installed _ _ rfl
    exact ⟨i, _, .tail _ there, generation, rfl⟩
  | reload | enter | mark | misfind | misconstruct | construct | ask | misask | obtain =>
    cases reloads
    trivial
  | _ => cases reloads

/-- All that has a generation has that of some attempt. -/
structure Reported (v : Standing) : Prop where
  constructed {c : CallId} {name : String} {context : Context} {noted : Bool} :
    .constructed c name context noted ∈ v.history → .begun c context.generation ∈ v.history
  installed {c : CallId} {o : Origin} {stage : Reload.Stage} :
    ⟨c, .reload o stage⟩ ∈ v.calls → stage.Installed v.history
  returned {c : CallId} {r : Report} : .returned c (.ok r) ∈ v.history →
    .begun c r.generation ∈ v.history ∧ ∃ i prev, .installed i prev ∈ v.history ∧
      i.generation = r.generation ∧ r.previousGeneration = prev.map Installation.generation

theorem Reported.move (reported : v.Reported) (numbered : v.Numbered) (moved : v.Move act w) :
    w.Reported := by
  have grown := moved.suffix.subset
  constructor
  · intro c name context noted there
    rcases moved.noted there with old | clerical | ⟨d, a, u, es, known, new, ⟨b, goes⟩ | ⟨x, stops⟩⟩
    · exact grown (reported.constructed old)
    · exact clerical.elim
    · obtain ⟨rfl, o, t, rfl, generation⟩ := goes.constructed new
      exact grown (generation ▸ (numbered.attempt known rfl).2)
    · obtain ⟨rfl, o, t, rfl, generation⟩ := stops.constructed new
      exact grown (generation ▸ (numbered.attempt known rfl).2)
  · intro c o stage present
    cases moved.comes present with
    | stays known => exact (reported.installed known).mono grown
    | begins _ opens =>
      cases opens
      trivial
    | @proceeds a u es known goes same =>
      have history : w.history = es ++ v.history :=
        same ▸ congrArg (es ++ ·) goes.frame.history
      rw [history]
      apply goes.installed rfl
      intro o' stage' reloads
      exact reported.installed (reloads ▸ known)
    | handed _ retires => cases retires
    | completes known completing =>
      cases completing
      obtain ⟨j, there, generation⟩ := reported.installed known
      exact ⟨j, _, grown there, generation, rfl⟩
  · intro c r there
    rcases moved.noted there with old | clerical | ⟨d, a, u, es, known, new, ⟨b, goes⟩ | ⟨x, stops⟩⟩
    · obtain ⟨begun, i, prev, installed, same⟩ := reported.returned old
      exact ⟨grown begun, i, prev, grown installed, same⟩
    · exact clerical.elim
    · exact absurd new (goes.not_returned _)
    · obtain ⟨rfl, o, t, p, previous, rfl, generation, rfl⟩ := stops.reported new
      obtain ⟨i, prev, installed, same, previous⟩ := reported.installed known
      rw [generation]
      exact ⟨grown (numbered.attempt known rfl).2, i, prev, grown installed, same, previous⟩

end Standing

theorem Server.reported_run (setup : Setup) (actions : List Server.Action) :
    ((Server.start setup).run actions).standing.Reported := by
  have numbered : (Server.start setup).standing.Numbered := Server.numbered_run setup []
  have reported : (Server.start setup).standing.Reported :=
    ⟨by simp, by simp, by simp⟩
  exact (Server.standing_run (P := fun v => v.Numbered ∧ v.Reported) actions
    ⟨numbered, reported⟩ fun moved held => ⟨held.1.move moved, held.2.move held.1 moved⟩).2

end HotSwap

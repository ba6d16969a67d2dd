import HotSwap.Proofs.Json.Members
import HotSwap.Settings.Sources
import Mathlib.Data.List.Induction

/-!
# What a key holds

The members of a file, the variables of an environment and the values of a program are all set in
the same way, one after another. A key holds what the assignments to it have made of it, so that
assignments to other keys do not matter, and a scalar at the key itself hides those before it.
-/

namespace HotSwap

/-- What is done in two parts succeeds if both do. -/
theorem bind_eq_ok_iff {ε α β : Type} {x : Except ε α} {f : α → Except ε β} {b : β} :
    (x >>= f) = .ok b ↔ ∃ a, x = .ok a ∧ f a = .ok b := by
  cases x with
  | error e =>
    constructor
    · rintro ⟨⟩
    · rintro ⟨a, ⟨⟩, -⟩
  | ok a =>
    constructor
    · intro succeeds
      exact ⟨a, rfl, succeeds⟩
    · rintro ⟨_, ⟨⟩, succeeds⟩
      exact succeeds

theorem map_eq_ok_iff {ε α β : Type} {x : Except ε α} {f : α → β} {b : β} :
    x.map f = .ok b ↔ ∃ a, x = .ok a ∧ f a = b := by
  cases x with
  | error e =>
    constructor
    · rintro ⟨⟩
    · rintro ⟨a, ⟨⟩, -⟩
  | ok a =>
    constructor
    · intro succeeds
      exact ⟨a, rfl, Except.ok.inj succeeds⟩
    · rintro ⟨_, ⟨⟩, rfl⟩
      rfl

variable {name : String} {root : Entry}

theorem Entry.get?_change (key : String) (f : Option Entry → Entry) (e : Entry) :
    (e.change key f).get? name = if name = key then some (f (e.get? name)) else e.get? name := by
  cases e with
  | table origin members =>
    by_cases same : name = key
    · subst same
      simp only [change, get?, membersOf, getMember?_putMember, if_true]
    · simp only [change, get?, membersOf, getMember?_putMember, if_neg same]
  | scalar origin s | list origin items =>
    by_cases same : name = key
    · subst same
      simp only [change, get?, membersOf, getMember?_cons, getMember?_nil, if_true]
    · simp only [change, get?, membersOf, getMember?_cons, getMember?_nil, if_neg same]

namespace Settings

/-- A value that is to be set, and where. -/
structure Assignment where
  path : Path
  value : Entry

namespace Assignment

variable {a : Assignment} {assignments others : List Assignment}

/-- The key of the root that is assigned to. -/
def key (a : Assignment) : String := Text.lowercase a.path.head

/-- What the key holds afterwards. -/
def entry (a : Assignment) (old : Option Entry) : Entry := Entry.assign a.value a.path.steps old

def perform (root : Entry) (a : Assignment) : Entry := a.path.set a.value root

def ofMember (member : String × Entry) : Assignment := ⟨.ofKey member.1, member.2⟩

def ofVariable? (v : Variable) : Option Assignment :=
  v.key?.map fun key => ⟨.ofKey key, .scalar (some environmentOrigin) (.text v.value)⟩

/-- A scalar at the key itself. -/
def Plain (a : Assignment) : Prop := a.path.steps = [] ∧ ∃ origin s, a.value = .scalar origin s

def performAll (root : Entry) (assignments : List Assignment) : Entry :=
  assignments.foldl perform root

/-- The assignments to a key. -/
def concerning (name : String) (assignments : List Assignment) : List Assignment :=
  assignments.filter (·.key = name)

/-- The last assignment to a key. -/
def last? (name : String) (assignments : List Assignment) : Option Assignment :=
  (concerning name assignments).getLast?

theorem Plain.entry_eq (plain : a.Plain) (old : Option Entry) : a.entry old = a.value := by
  obtain ⟨straight, origin, s, value⟩ := plain
  rw [entry, straight, value]
  rfl

theorem get?_perform (root : Entry) (a : Assignment) :
    (perform root a).get? name =
      if a.key = name then some (a.entry (root.get? name)) else root.get? name := by
  rw [perform, Path.set, Entry.get?_change]
  simp only [Assignment.key, entry, eq_comm]

theorem concerning_concat (name : String) (assignments : List Assignment) (a : Assignment) :
    concerning name (assignments ++ [a]) =
      concerning name assignments ++ if a.key = name then [a] else [] := by
  by_cases concerns : a.key = name
  · simp [concerning, concerns]
  · simp [concerning, concerns]

/-- A key holds what the assignments to it make of it, whatever else is set. -/
theorem get?_performAll (root : Entry) (assignments : List Assignment) :
    (performAll root assignments).get? name =
      (concerning name assignments).foldl (fun old a => some (a.entry old)) (root.get? name) := by
  induction assignments using List.reverseRecOn with
  | nil => rfl
  | append_singleton before a inductionHypothesis =>
    have last : performAll root (before ++ [a]) = perform (performAll root before) a := by
      simp [performAll]
    rw [last, get?_perform, concerning_concat, List.foldl_append, ← inductionHypothesis]
    by_cases concerns : a.key = name
    · rw [if_pos concerns, if_pos concerns]
      rfl
    · rw [if_neg concerns, if_neg concerns]
      rfl

theorem get?_performAll_congr (same : concerning name assignments = concerning name others) :
    (performAll root assignments).get? name = (performAll root others).get? name := by
  rw [get?_performAll, get?_performAll, same]

theorem get?_performAll_of_none (untouched : last? name assignments = none) :
    (performAll root assignments).get? name = root.get? name := by
  rw [get?_performAll, List.getLast?_eq_none_iff.mp untouched]
  rfl

theorem get?_performAll_of_last (last : last? name assignments = some a) (plain : a.Plain) :
    (performAll root assignments).get? name = some a.value := by
  obtain ⟨before, split⟩ := List.getLast?_eq_some_iff.mp last
  rw [get?_performAll, split, List.foldl_append]
  exact congrArg some (plain.entry_eq _)

theorem last?_append (name : String) (assignments others : List Assignment) :
    last? name (assignments ++ others) = (last? name others).or (last? name assignments) := by
  rw [last?, concerning, List.filter_append, List.getLast?_append]
  rfl

theorem last?_singleton (concerns : a.key = name) : last? name [a] = some a := by
  simp [last?, concerning, concerns]

theorem last?_singleton_of_ne (elsewhere : a.key ≠ name) : last? name [a] = none := by
  simp [last?, concerning, elsewhere]

end Assignment

open Assignment

/-! ## The layers -/

variable {files : List File} {environment : List Variable} {s : Settings}
  {values : List (String × Option Json)}

/-- The members of the configuration file, none if there is no such file. -/
def fileMembers (files : List File) : Except LoadError (List (String × Entry)) :=
  match findFile files with
  | some (file, read) => readFile file read
  | none => .ok []

/-- The values of a program as assignments. -/
def valueAssignments : List (String × Option Json) → Except LoadError (List Assignment)
  | [] => .ok []
  | (_, none) :: rest => valueAssignments rest
  | (key, some v) :: rest =>
    match Path.parse (Text.lowercase key) with
    | .ok path => (valueAssignments rest).map (⟨path, .ofJson .ofNumber none v⟩ :: ·)
    | .error refusal => .error (.path refusal)

theorem foldl_setVariable (root : Entry) (environment : List Variable) :
    environment.foldl setVariable root = performAll root (environment.filterMap ofVariable?) := by
  induction environment generalizing root with
  | nil => rfl
  | cons v rest inductionHypothesis =>
    rw [List.foldl_cons, inductionHypothesis]
    cases known : v.key? with
    | none =>
      have passed : ofVariable? v = none := by rw [ofVariable?, known, Option.map_none]
      rw [List.filterMap_cons_none passed, setVariable, known]
    | some key =>
      have taken : ofVariable? v =
          some ⟨.ofKey key, .scalar (some environmentOrigin) (.text v.value)⟩ := by
        rw [ofVariable?, known, Option.map_some]
      rw [List.filterMap_cons_some taken, setVariable, known]
      rfl

/-- Settings are loaded from the assignments of the file and then those of the environment. -/
theorem load_eq (files : List File) (environment : List Variable) :
    load files environment = (fileMembers files).bind fun members =>
      ofEntry (performAll defaultEntries
        (members.map ofMember ++ environment.filterMap ofVariable?)) := by
  have filed (members : List (String × Entry)) :
      members.foldl setMember defaultEntries =
        performAll defaultEntries (members.map ofMember) := by
    rw [performAll, List.foldl_map]
    rfl
  have merged (members : List (String × Entry)) :
      environment.foldl setVariable (members.foldl setMember defaultEntries) =
        performAll defaultEntries (members.map ofMember ++ environment.filterMap ofVariable?) := by
    rw [filed, foldl_setVariable, performAll, performAll, performAll, List.foldl_append]
  simp only [← merged]
  cases found : findFile files with
  | none =>
    rw [load, fileMembers, found]
    rfl
  | some f =>
    rw [load, fileMembers, found]
    rfl

theorem override_eq (values : List (String × Option Json)) :
    override values = (valueAssignments values).bind fun assignments =>
      ofEntry (performAll defaultEntries assignments) := by
  unfold override
  generalize defaultEntries = root
  induction values generalizing root with
  | nil => rfl
  | cons value rest inductionHypothesis =>
    obtain ⟨key, v⟩ := value
    rw [List.foldlM_cons, bind_assoc]
    cases v with
    | none =>
      rw [valueAssignments]
      exact inductionHypothesis root
    | some v =>
      simp only [valueAssignments]
      cases parsed : Path.parse (Text.lowercase key) with
      | error refusal => rfl
      | ok path =>
        refine (inductionHypothesis _).trans ?_
        cases valueAssignments rest with
        | error e => rfl
        | ok assignments => rfl

end Settings

end HotSwap

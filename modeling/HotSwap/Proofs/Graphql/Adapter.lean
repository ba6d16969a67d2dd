import Mathlib.Data.List.Forall2
import HotSwap.Engine.Adapter

/-!
# What an engine over a schema keeps

An engine over a schema puts every request to it once and as it is, and makes a response of the
reply, of which it loses nothing that the library of the schema writes as JSON.
-/

namespace HotSwap.Graphql

/-- The same step, in a reply and in a response. -/
inductive Segment.Same : Segment → PathSegment → Prop
  | field (name : String) : Same (.field name) (.field name)
  | index (i : Nat) : Same (.index i) (.index i)

theorem Segment.same_toPathSegment (s : Segment) : s.Same s.toPathSegment := by
  cases s with
  | field name => exact .field name
  | index i => exact .index i

theorem Segment.same_leftUnique : Relator.LeftUnique Segment.Same := by
  intro s t step same other
  cases same <;> cases other <;> rfl

namespace Library

variable {L : Library}

/-- A map of the library stands for an object: it has the keys of the object, and values that are
written as those of the object. -/
def StandsFor (L : Library) (get? : String → Option L.Value) (members : Json.Members) : Prop :=
  ∀ key, (get? key).map L.write = (getMember? key members).map .ok

/-- How the maps of a library are looked up. -/
structure Access (L : Library) where
  value? : L.Variables → String → Option L.Value
  extension? : L.Extensions → String → Option L.Value

/-- All values are written, the variables read from an object stand for it, and extensions are
written as an object that they stand for. -/
structure Access.Faithful (A : L.Access) : Prop where
  writes : ∀ v, ∃ json, L.write v = .ok json
  null : L.write L.null = .ok .null
  reads : ∀ members, L.StandsFor (A.value? (L.readVariables (.object members))) members
  explains : ∀ x, ∃ members, L.writeExtensions x = .ok (.object members) ∧
    L.StandsFor (A.extension? x) members

/-- What extensions hold under each key, as it is written. -/
def Access.contents (A : L.Access) (x : L.Extensions) : String → Option (Except String Json) :=
  fun key => (A.extension? x key).map L.write

def jsonAccess : json.Access :=
  ⟨fun values name => getMember? name values, fun extensions key => getMember? key extensions⟩

/-- JSON stands for itself. -/
theorem jsonAccess_faithful : jsonAccess.Faithful := by
  have stands (members : Json.Members) :
      json.StandsFor (fun key => getMember? key members) members := fun key => rfl
  constructor
  · exact fun v => ⟨v, rfl⟩
  · rfl
  · exact stands
  · exact fun members => ⟨members, rfl, stands members⟩

variable {A : L.Access}

/-! ## Inquiries -/

/-- The inquiry has what the request has. -/
structure Inquiry.Conveys (A : L.Access) (q : L.Inquiry) (r : Request) : Prop where
  query : q.query = r.query
  operationName : q.operationName = r.operationName
  values : L.StandsFor (A.value? q.values) r.values

theorem Inquiry.conveys_ofRequest (faithful : A.Faithful) (r : Request) :
    (Inquiry.ofRequest r).Conveys A r := by
  obtain ⟨query, values, operationName⟩ := r
  cases operationName with
  | none => exact ⟨rfl, rfl, faithful.reads values⟩
  | some name => exact ⟨rfl, rfl, faithful.reads values⟩

/-! ## Errors -/

/-- The error of a response has what the error of a reply has. -/
structure Error.Becomes (A : L.Access) (e : L.Error) (c : Graphql.Error) : Prop where
  message : c.message = e.message
  noLocations : c.locations = none ↔ e.places = []
  locations : ∀ ls ∈ c.locations,
    ls.map (fun l => (l.line, l.column)) = e.places.map fun p => (p.line, p.column)
  noPath : c.path = none ↔ e.path = []
  path : ∀ steps ∈ c.path, List.Forall₂ Segment.Same e.path steps
  noExtensions : c.extensions = none ↔ e.extensions = none
  extensions : ∀ x ∈ e.extensions, ∃ members ∈ c.extensions,
    L.writeExtensions x = .ok (.object members) ∧ L.StandsFor (A.extension? x) members

namespace Error

variable {e f : L.Error}

@[simp] theorem toError_message (e : L.Error) : e.toError.message = e.message := by
  simp only [toError]
  split_ifs <;> split <;> rfl

@[simp] theorem toError_locations (e : L.Error) :
    e.toError.locations = if e.places = [] then none else some (e.places.map Place.toLocation) := by
  simp only [toError]
  split_ifs <;> split <;> rfl

@[simp] theorem toError_path (e : L.Error) :
    e.toError.path = if e.path = [] then none else some (e.path.map Segment.toPathSegment) := by
  simp only [toError]
  split_ifs <;> split <;> rfl

theorem toError_extensions_none (none : e.extensions = none) : e.toError.extensions = .none := by
  simp only [toError, none, Option.bind_none]
  split_ifs <;> rfl

theorem toError_extensions_some {x : L.Extensions} {members : Json.Members}
    (some : e.extensions = some x) (writes : L.writeExtensions x = .ok (.object members)) :
    e.toError.extensions = .some members := by
  simp only [toError, some, Option.bind_some, writes, Except.toOption]

theorem becomes_toError (faithful : A.Faithful) (e : L.Error) : e.Becomes A e.toError where
  message := e.toError_message
  noLocations := by simp
  locations := by
    intro ls there
    rw [toError_locations] at there
    split_ifs at there
    · cases there
    · cases there
      rw [List.map_map]
      rfl
  noPath := by simp
  path := by
    intro steps there
    rw [toError_path] at there
    split_ifs at there
    · cases there
    · cases there
      have same (s : Segment) (_ : s ∈ e.path) : s.Same s.toPathSegment := s.same_toPathSegment
      exact List.forall₂_map_right_iff.mpr (List.forall₂_same.mpr same)
  noExtensions := by
    cases given : e.extensions with
    | none => simp [toError_extensions_none given]
    | some x =>
      obtain ⟨members, writes, -⟩ := faithful.explains x
      simp [toError_extensions_some given writes]
  extensions := by
    intro x given
    obtain ⟨members, writes, stands⟩ := faithful.explains x
    exact ⟨members, toError_extensions_some given writes, writes, stands⟩

/-- Places are told by their lines and columns. -/
theorem Becomes.places_eq {c : Graphql.Error} (left : e.Becomes A c) (right : f.Becomes A c) :
    e.places = f.places := by
  cases there : c.locations with
  | none => rw [left.noLocations.mp there, right.noLocations.mp there]
  | some ls =>
    have injective : Function.Injective fun p : Place => (p.line, p.column) := by
      intro p q same
      cases p
      cases q
      cases same
      rfl
    apply List.map_injective_iff.mpr injective
    rw [← left.locations ls there, right.locations ls there]

theorem Becomes.path_eq {c : Graphql.Error} (left : e.Becomes A c) (right : f.Becomes A c) :
    e.path = f.path := by
  cases there : c.path with
  | none => rw [left.noPath.mp there, right.noPath.mp there]
  | some steps =>
    exact Segment.same_leftUnique.forall₂ (left.path steps there) (right.path steps there)

/-- Extensions are told by what they are written as. -/
theorem Becomes.extensions_eq {c : Graphql.Error} (left : e.Becomes A c) (right : f.Becomes A c) :
    e.extensions.map A.contents = f.extensions.map A.contents ∧
      (Function.Injective L.writeExtensions → e.extensions = f.extensions) := by
  cases there : c.extensions with
  | none =>
    have same : e.extensions = f.extensions := by
      rw [left.noExtensions.mp there, right.noExtensions.mp there]
    exact ⟨congrArg _ same, fun _ => same⟩
  | some members =>
    have given {g : L.Error} (becomes : g.Becomes A c) : ∃ x, g.extensions = some x ∧
        L.writeExtensions x = .ok (.object members) ∧
        A.contents x = fun key => (getMember? key members).map .ok := by
      cases own : g.extensions with
      | none =>
        rw [becomes.noExtensions.mpr own] at there
        cases there
      | some x =>
        obtain ⟨others, same, writes, stands⟩ := becomes.extensions x own
        cases there.symm.trans same
        exact ⟨x, rfl, writes, funext stands⟩
    obtain ⟨x, hx, writesX, holdsX⟩ := given left
    obtain ⟨y, hy, writesY, holdsY⟩ := given right
    rw [hx, hy]
    constructor
    · rw [Option.map_some, Option.map_some, holdsX, holdsY]
    · intro injective
      rw [injective (writesX.trans writesY.symm)]

end Error

/-! ## Replies -/

/-- The response has what the reply has. -/
structure Reply.Becomes (A : L.Access) (reply : L.Reply) (response : Response) : Prop where
  data : L.write reply.data = .ok response.data
  noData : reply.data = L.null → response.data = .null
  errors : List.Forall₂ (Error.Becomes A) reply.errors response.errors

theorem Reply.becomes_outcomeOf (faithful : A.Faithful) (reply : L.Reply) :
    ∃ response, Engine.outcomeOf reply = .response response ∧ reply.Becomes A response := by
  obtain ⟨data, writes⟩ := faithful.writes reply.data
  refine ⟨⟨data, reply.errors.map Error.toError⟩, ?_, writes, ?_, ?_⟩
  · simp only [Engine.outcomeOf, writes]
  · intro none
    rw [none, faithful.null] at writes
    cases writes
    rfl
  · exact List.forall₂_map_right_iff.mpr
      (List.forall₂_same.mpr fun e _ => e.becomes_toError faithful)

end Library

end HotSwap.Graphql

namespace HotSwap.Engine

open Graphql

variable {L : Library}

/-- A schema that keeps a list of what it is asked. -/
def noting {M : Type → Type} [Monad M] (schema : L.Inquiry → M L.Reply) (q : L.Inquiry) :
    StateT (List L.Inquiry) M L.Reply := do
  modify (· ++ [q])
  schema q

theorem run_ask_noting {M : Type → Type} [Monad M] [LawfulMonad M] (schema : L.Inquiry → M L.Reply)
    (r : Request) (asked : List L.Inquiry) :
    (ask (noting schema) r).run asked =
      (fun reply => (outcomeOf reply, asked ++ [.ofRequest r])) <$> schema (.ofRequest r) := by
  simp [ask, noting]

/-- A request reaches the schema once and as it is, and the reply its caller, no part of it being
lost. Errors that become equal are equal, if extensions that are written alike are. -/
theorem schema_engine_loses_nothing (A : L.Access) (faithful : A.Faithful) :
    (∀ r : Request, ∃ (q : L.Inquiry) (respond : L.Reply → Response),
      q.Conveys A r ∧ (∀ reply : L.Reply, reply.Becomes A (respond reply)) ∧
      ∀ (M : Type → Type) [Monad M] [LawfulMonad M] (schema : L.Inquiry → M L.Reply)
        (asked : List L.Inquiry), (ask (noting schema) r).run asked =
          (fun reply => (.response (respond reply), asked ++ [q])) <$> schema q) ∧
    ∀ e f : L.Error, e.toError = f.toError →
      e.message = f.message ∧ e.places = f.places ∧ e.path = f.path ∧
      e.extensions.map A.contents = f.extensions.map A.contents ∧
      (Function.Injective L.writeExtensions → e.extensions = f.extensions) := by
  constructor
  · intro r
    choose respond responds becomes using Library.Reply.becomes_outcomeOf faithful
    refine ⟨.ofRequest r, respond, Library.Inquiry.conveys_ofRequest faithful r, becomes, ?_⟩
    intro M _ _ schema asked
    rw [run_ask_noting]
    simp only [responds]
  · intro e f same
    have left : e.Becomes A f.toError := same ▸ e.becomes_toError faithful
    have right : f.Becomes A f.toError := f.becomes_toError faithful
    refine ⟨?_, left.places_eq right, left.path_eq right, left.extensions_eq right⟩
    rw [← left.message, right.message]

/-- Errors with and without extensions differ, even if there is nothing in the extensions. -/
theorem empty_extensions_are_kept :
    let e : ReplyError := ⟨"odd", [⟨1, 3⟩], [.field "items", .index 0], some []⟩
    let f : ReplyError := ⟨"odd", [⟨1, 3⟩], [.field "items", .index 0], none⟩
    let schema : Inquiry → Id Reply := fun _ => .ofErrors [e, f]
    let r : Request := ⟨"\x7b items(n: 2) \x7d", [("n", .nat 2)], some "Odd"⟩
    e.toError ≠ f.toError ∧ ∃ q response,
      (ask (noting schema) r).run [] = (.response response, [q]) ∧
      q.operationName = some "Odd" ∧ response.data = .null ∧ response.errors.length = 2 := by
  intro e f schema r
  obtain ⟨keeps, tells⟩ := schema_engine_loses_nothing _ Library.jsonAccess_faithful
  obtain ⟨q, respond, conveys, becomes, runs⟩ := keeps r
  have reply := becomes (.ofErrors [e, f])
  constructor
  · intro same
    obtain ⟨-, -, -, contents, -⟩ := tells e f same
    cases contents
  · exact ⟨q, _, runs Id schema [], conveys.operationName, reply.noData rfl,
      reply.errors.length_eq.symm⟩

end HotSwap.Engine

import HotSwap.Graphql.Response
import HotSwap.Proofs.Json.Decoding

/-!
# Responses are read back

What is told to a client is read back as it was, whatever it has and has not, as long as its numbers
are whole. The objects in it have to be in order, which is how they are kept.
-/

namespace HotSwap.Graphql

open Json Reader

namespace Location

theorem decodes (l : Location) (whole : l.toJson.Whole) : reader.Decodes l.toJson l := by
  have line : (Json.nat l.line).Whole := Whole.object_iff.mp whole _ (.head _)
  have column : (Json.nat l.column).Whole := Whole.object_iff.mp whole _ (.tail _ (.head _))
  exact Record.decodes (.more ⟨_, rfl, rfl, (decodes_natBelow _ line.lt).map _⟩
    (.more ⟨_, rfl, rfl, (decodes_natBelow _ column.lt).map _⟩ .done)) rfl

end Location

namespace PathSegment

/-- Text is not taken for a number, whatever it says, nor a number for text. -/
theorem decodes (p : PathSegment) : reader.Decodes p.toJson p := by
  cases p with
  | field name => exact (decodes_value (v := .text name) rfl).bind fun s => .pure _ s
  | index i =>
    refine (decodes_value (v := .nat i) rfl).bind fun s => ?_
    simp only [Json.nat, Json.int, Int.natCast_nonneg, if_true, Int.toNat_natCast]
    exact .pure _ s

end PathSegment

namespace Error

/-- The extensions are in order. -/
def InOrder (e : Error) : Prop := ∀ members ∈ e.extensions, sortedMembers members = members

theorem decodes (e : Error) (whole : e.toJson.Whole) (inOrder : e.InOrder) :
    reader.Decodes e.toJson e := by
  have whole := Whole.object_iff.mp whole
  have wholeLocations := Whole.ofOption (whole ("locations", _) (.tail _ (.head _)))
  have message := decodes_text "a string" e.message
  have locations := decodes_ofOption (o := e.locations)
    (fun ls there => decodes_list fun l there' =>
      l.decodes ((wholeLocations ls there).map_items l there')) fun _ => nofun
  have path := decodes_ofOption (o := e.path) (fun ps _ => decodes_list fun p _ => p.decodes)
    fun _ => nofun
  have extensions := decodes_ofOption (o := e.extensions)
    (fun members there => decodes_members (inOrder members there)) fun _ => nofun
  exact Record.decodes (.more ⟨_, rfl, rfl, message.map _⟩ (.more ⟨_, rfl, rfl, locations.map _⟩
    (.more ⟨_, rfl, rfl, path.map _⟩ (.more ⟨_, rfl, rfl, extensions.map _⟩ .done)))) rfl

end Error

namespace Response

/-- The data and what the errors have are in order. -/
def InOrder (r : Response) : Prop := r.data.sorted = r.data ∧ ∀ e ∈ r.errors, e.InOrder

theorem decodes (r : Response) (whole : r.toJson.Whole) (inOrder : r.InOrder) :
    reader.Decodes r.toJson r := by
  have wholeErrors := (Whole.object_iff.mp whole ("errors", _) (.tail _ (.head _))).map_items
  have data := decodes_value inOrder.1
  have errors : (list Error.reader).Decodes (.list (r.errors.map Error.toJson)) r.errors :=
    decodes_list fun e there => e.decodes (wholeErrors e there) (inOrder.2 e there)
  exact Record.decodes (.more ⟨_, rfl, rfl, data.map _⟩ (.more ⟨_, rfl, rfl, errors.map _⟩ .done))
    rfl

end Response

namespace ErrorEntry

def InOrder (e : ErrorEntry) : Prop := ∀ members ∈ e.extensions, sortedMembers members = members

theorem decodes (e : ErrorEntry) (inOrder : e.InOrder) : reader.Decodes e.toJson e := by
  obtain ⟨message, extensions⟩ := e
  have first := decodes_text "a string" message
  cases extensions with
  | none => exact Record.decodes (.more ⟨_, rfl, rfl, first.map _⟩ .done) rfl
  | some members =>
    have second := (decodes_members (inOrder members rfl)).option nofun
    exact Record.decodes (.more ⟨_, rfl, rfl, first.map _⟩
      (.more ⟨_, rfl, rfl, second.map _⟩ .done)) rfl

end ErrorEntry

namespace ErrorBody

def InOrder (b : ErrorBody) : Prop := ∀ e ∈ b.errors, e.InOrder

theorem decodes (b : ErrorBody) (inOrder : b.InOrder) : reader.Decodes b.toJson b := by
  have errors : (list ErrorEntry.reader).Decodes (.list (b.errors.map ErrorEntry.toJson))
      b.errors := decodes_list fun e there => e.decodes (inOrder e there)
  exact Record.decodes (.more ⟨_, rfl, rfl, errors.map _⟩ .done) rfl

theorem read_bytes {b : ErrorBody} (inOrder : b.InOrder) (whole : b.toJson.Whole)
    (shallow : b.toJson.depth ≤ depthLimit) : reader.read b.toJson.bytes = .ok b :=
  (b.decodes inOrder).read_bytes whole shallow

end ErrorBody

/-! ## All that is told -/

/-- What is written with whole numbers, and no deeper than what may be read, is read back. -/
def ReadBack {α : Type} (reader : Reader α) (toJson : α → Json) (a : α) : Prop :=
  (toJson a).Whole → (toJson a).depth ≤ 127 → reader.read (toJson a).bytes = .ok a

/-- The names of what an object has, in the order in which it is written. -/
def keys : Json → List String
  | .object members => members.map (·.1)
  | _ => []

/-- All that is told is read back as it was. Responses and their errors have the same members
whatever is absent, but an entry of an error body has extensions only if there are some. -/
theorem told_is_read_back :
    (∀ l, ReadBack Location.reader Location.toJson l) ∧
    (∀ p, ReadBack PathSegment.reader PathSegment.toJson p) ∧
    (∀ e : Error, e.InOrder → ReadBack Error.reader Error.toJson e) ∧
    (∀ r : Response, r.InOrder → ReadBack Response.reader Response.toJson r) ∧
    (∀ e : ErrorEntry, e.InOrder → ReadBack ErrorEntry.reader ErrorEntry.toJson e) ∧
    (∀ b : ErrorBody, b.InOrder → ReadBack ErrorBody.reader ErrorBody.toJson b) ∧
    (∀ r : Response, keys r.toJson = ["data", "errors"]) ∧
    (∀ e : Error, keys e.toJson = ["message", "locations", "path", "extensions"]) ∧
    ∀ e : ErrorEntry, "extensions" ∈ keys e.toJson ↔ e.extensions.isSome := by
  refine ⟨?_, ?_, ?_, ?_, ?_, ?_, fun _ => rfl, fun _ => rfl, ?_⟩
  · exact fun l whole shallow => (l.decodes whole).read_bytes whole shallow
  · exact fun p whole shallow => p.decodes.read_bytes whole shallow
  · exact fun e inOrder whole shallow => (e.decodes whole inOrder).read_bytes whole shallow
  · exact fun r inOrder whole shallow => (r.decodes whole inOrder).read_bytes whole shallow
  · exact fun e inOrder whole shallow => (e.decodes inOrder).read_bytes whole shallow
  · exact fun b inOrder whole shallow => ErrorBody.read_bytes inOrder whole shallow
  · rintro ⟨message, extensions⟩
    cases extensions with
    | none => simp [ErrorEntry.toJson, keys]
    | some members => simp [ErrorEntry.toJson, keys]

/-- A response with an error that has no locations and one that has an empty list of them. -/
def faulty : Response where
  data := .object [("a", .list [.int (-9223372036854775808), .int 18446744073709551615])]
  errors := [
    ⟨"\"\n", none, some [.field "1", .index 1], some [("code", .text "")]⟩,
    ⟨"", some [], none, none⟩,
    ⟨"", some [⟨1, 2⟩], some [], some []⟩]

theorem faulty_inOrder : faulty.InOrder := by
  have data : faulty.data.sorted = faulty.data := rfl
  refine ⟨data, fun e there => ?_⟩
  simp only [faulty, List.mem_cons, List.not_mem_nil, or_false] at there
  rcases there with rfl | rfl | rfl <;> rintro members ⟨⟩ <;> rfl

theorem whole_faulty : faulty.toJson.Whole := by
  have least : Number.Fits (-9223372036854775808) := by decide
  have greatest : Number.Fits 18446744073709551615 := by decide
  have one : Number.Fits 1 := by decide
  have two : Number.Fits 2 := by decide
  simp [faulty, Response.toJson, Error.toJson, Location.toJson, PathSegment.toJson, ofOption,
    Json.nat, *]

theorem faulty_is_read_back : Response.reader.read faulty.toJson.bytes = .ok faulty :=
  told_is_read_back.2.2.2.1 faulty faulty_inOrder whole_faulty (by decide)

end HotSwap.Graphql

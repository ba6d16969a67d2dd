import HotSwap.Proofs.Graphql.RequestBody
import HotSwap.Proofs.Json.Written

/-!
# Requests are read back

A request is written as an object that asks for it. It is read back unless its variables nest too
deeply, and then nothing is read.
-/

namespace HotSwap.Graphql.Request

open Json Form

variable {convert : Numeral → Option Number} {f g : Form} {ms : List (List Glyph × Form)}
  {raw : Members} {r r' : Request} {n m : Nat} {body : Bytes}

/-! ## What is written -/

/-- What is under a key stands for what the value has there. -/
theorem forall₂_under (known : members? convert ms = some raw) (key : String) :
    List.Forall₂ (fun f v => f.value? convert = some v) (under key ms)
      ((raw.filter (·.1 = key)).map (·.2)) := by
  rw [members?_eq_some_iff] at known
  induction known with
  | nil => exact .nil
  | @cons m v _ _ first _ inductionHypothesis =>
    unfold under at *
    by_cases same : v.1 = key
    · rw [List.filter_cons_of_pos (by simpa [first.1] using same),
        List.filter_cons_of_pos (by simpa using same)]
      exact .cons first.2 inductionHypothesis
    · rw [List.filter_cons_of_neg (by simpa [first.1] using same),
        List.filter_cons_of_neg (by simpa using same)]
      exact inductionHypothesis

theorem isSome_text? (known : members? convert ms = some raw) :
    ∀ m ∈ ms, (Glyph.text? m.1).isSome := by
  rw [members?_eq_some_iff] at known
  induction known with
  | nil => nofun
  | cons first _ inductionHypothesis =>
    exact List.forall_mem_cons.mpr ⟨by rw [first.1, Option.isSome_some], inductionHypothesis⟩

theorem under_eq_nil (known : members? convert ms = some raw) (key : String)
    (absent : (raw.filter (·.1 = key)).map (·.2) = []) : under key ms = [] := by
  have given := forall₂_under known key
  rw [absent] at given
  exact List.forall₂_nil_right_iff.mp given

theorem exists_under {v : Json} (known : members? convert ms = some raw) (key : String)
    (single : (raw.filter (·.1 = key)).map (·.2) = [v]) :
    ∃ f, under key ms = [f] ∧ f.value? convert = some v := by
  have given := forall₂_under known key
  rw [single] at given
  obtain ⟨f, fs, stands, none, split⟩ := List.forall₂_cons_right_iff.mp given
  cases none
  exact ⟨f, split, stands⟩

/-- What is nested in a request is nested in its variables. -/
theorem depth_toJson (r : Request) : r.toJson.depth = (Json.object r.values).depth + 1 := by
  unfold toJson
  cases r.operationName <;> simp [Json.depth, Json.membersDepth]

/-- What a request is written as asks for it. -/
theorem asked_of_value? (known : f.value? Numeral.number? = some r.toJson)
    (shallow : f.depth ≤ n + 1) (inOrder : sortedMembers r.values = r.values) :
    Asked Numeral.number? n f r := by
  have within : (Json.object r.values).depth ≤ n := by
    rw [← depth_eq known, depth_toJson] at shallow
    exact Nat.le_of_succ_le_succ shallow
  obtain ⟨ms, rfl, members⟩ := value?_eq_object_iff.mp known
  refine .object (isSome_text? members) ⟨?_, .inr ?_, ?_⟩
  · exact exists_under members "query" (by cases r.operationName <;> rfl)
  · obtain ⟨f, single, stands⟩ := exists_under members "variables" (v := .object r.values)
      (by cases r.operationName <;> rfl)
    exact ⟨f, r.values, single, stands, depth_eq stands ▸ within, inOrder.symm⟩
  · cases name : r.operationName with
    | none => exact .inl ⟨.inl (under_eq_nil members _ (by rw [name]; rfl)), rfl⟩
    | some name' =>
      obtain ⟨f, single, stands⟩ := exists_under members "operationName" (v := .text name')
        (by rw [name]; rfl)
      exact .inr ⟨f, name', single, stands, rfl⟩

theorem whole_toJson (whole : (Json.object r.values).Whole) : r.toJson.Whole := by
  refine .object fun m there => ?_
  rcases List.mem_append.mp there with there | there
  · rcases List.mem_pair.mp there with rfl | rfl
    · exact .text r.query
    · exact whole
  · obtain ⟨name, -, rfl⟩ := List.mem_map.mp there
    exact .text name

/-! ## Depth -/

theorem Fields.mono {query values operationName : List Form} (more : n ≤ m)
    (fields : Fields convert n query values operationName r) :
    Fields convert m query values operationName r where
  query := fields.query
  values := fields.values.imp_right fun ⟨f, raw, single, stands, shallow, same⟩ =>
    ⟨f, raw, single, stands, Nat.le_trans shallow more, same⟩
  operationName := fields.operationName

theorem Asked.mono (more : n ≤ m) (asked : Asked convert n f r) : Asked convert m f r := by
  cases asked with
  | object keys fields => exact .object keys (fields.mono more)
  | list few fields => exact .list few (fields.mono more)

theorem Asked.exists_fields (asked : Asked convert n f r) :
    ∃ query values operationName, Fields convert n query values operationName r := by
  cases asked with
  | object _ fields => exact ⟨_, _, _, fields⟩
  | list _ fields => exact ⟨_, _, _, fields⟩

/-- The variables that are asked with are in order, and no deeper than they may be. -/
theorem Asked.values (asked : Asked convert n f r) (pos : 0 < n) :
    sortedMembers r.values = r.values ∧ (Json.object r.values).depth ≤ n := by
  obtain ⟨_, _, _, -, values, -⟩ := asked.exists_fields
  rcases values with ⟨-, none⟩ | ⟨g, raw, -, stands, shallow, same⟩
  · rw [none]
    exact ⟨rfl, pos⟩
  · rw [same]
    refine ⟨sortedMembers_sortedMembers raw, ?_⟩
    rw [← depth_eq stands] at shallow
    exact Nat.le_trans (Nat.succ_le_succ (membersDepth_sortedMembers_le raw)) shallow

theorem Spelled.mono (more : n ≤ m) (spelled : Spelled convert n body r) :
    Spelled convert m body r := by
  obtain ⟨f, s, b, split, spells, blank, asked⟩ := spelled
  exact ⟨f, s, b, split, spells, blank, asked.mono more⟩

theorem Spelled.yields (spelled : Spelled Numeral.number? n body r) :
    ∃ b, (reader (n + 1)).Yields body r b := by
  obtain ⟨f, s, b, rfl, spells, blank, asked⟩ := spelled
  have clear := blank.clear clear_nil
  rw [List.append_nil] at clear
  exact ⟨b, (accepts_reader (n + 1)).reads ⟨n, rfl, asked⟩ spells clear⟩

/-- A body asks for one thing only, however deep it may be. -/
theorem Spelled.unique (spelled : Spelled Numeral.number? n body r)
    (spelled' : Spelled Numeral.number? m body r') : r = r' := by
  obtain ⟨b, yields⟩ := (spelled.mono (Nat.le_max_left n m)).yields
  obtain ⟨b', yields'⟩ := (spelled'.mono (Nat.le_max_right n m)).yields
  exact (yields'.unique yields).1

/-- The bytes of a request spell it. -/
theorem spelled_bytes (inOrder : sortedMembers r.values = r.values)
    (whole : (Json.object r.values).Whole) (shallow : r.toJson.depth ≤ n + 1) :
    Spelled Numeral.number? n r.toJson.bytes r := by
  obtain ⟨f, spells, known, depth⟩ := (whole_toJson whole).exists_spelled
  exact ⟨f, r.toJson.bytes, [], (List.append_nil _).symm, Spelling.spaced_self spells, blank_nil,
    asked_of_value? known (depth ▸ shallow) inOrder⟩

/-! ## Reading back -/

/-- A request with whole numbers is read back from what it is written as, if that nests no deeper
than what may be read, and otherwise nothing is read. So what a body asks for is read again from
what it is written as, whatever the body looked like. -/
theorem parse_toJson_bytes :
    (∀ r : Request, sortedMembers r.values = r.values → (Json.object r.values).Whole →
      if r.toJson.depth ≤ 127 then parse r.toJson.bytes = .ok r
      else ∃ e, parse r.toJson.bytes = .error e) ∧
    ∀ body r, parse body = .ok r → (Json.object r.values).Whole → parse r.toJson.bytes = .ok r := by
  have readBack (r : Request) (inOrder : sortedMembers r.values = r.values)
      (whole : (Json.object r.values).Whole) (shallow : r.toJson.depth ≤ 127) :
      parse r.toJson.bytes = .ok r :=
    (spelled_bytes inOrder whole shallow).parse
  refine ⟨fun r inOrder whole => ?_, fun body r read whole => ?_⟩
  · split
    · next shallow => exact readBack r inOrder whole shallow
    · next deep =>
      cases read : parse r.toJson.bytes with
      | error e => exact ⟨e, rfl⟩
      | ok r' =>
        -- what is read is the request itself, so that it would not be too deep
        have spelled' := spelled_of_parse read
        have spelled := spelled_bytes inOrder whole (Nat.le_succ r.toJson.depth)
        cases spelled.unique spelled'
        obtain ⟨f, _, _, -, -, -, asked⟩ := spelled'
        have shallow := (asked.values (by decide)).2
        rw [depth_toJson] at deep
        omega
  · obtain ⟨f, _, _, -, -, -, asked⟩ := spelled_of_parse read
    obtain ⟨inOrder, shallow⟩ := asked.values (by decide)
    refine readBack r inOrder whole ?_
    rw [depth_toJson]
    exact Nat.succ_le_succ shallow

/-- Lists within each other, the innermost empty. -/
def boxes : Nat → Json
  | 0 => .list []
  | n + 1 => .list [boxes n]

theorem whole_boxes (n : Nat) : (boxes n).Whole := by
  induction n with
  | zero => exact .list nofun
  | succ n inductionHypothesis => exact .list (List.forall_mem_singleton.mpr inductionHypothesis)

theorem sorted_boxes (n : Nat) : (boxes n).sorted = boxes n := by
  induction n with
  | zero => rfl
  | succ n inductionHypothesis => simp only [boxes, sorted, sortedItems, inductionHypothesis]

theorem depth_boxes (n : Nat) : (boxes n).depth = n + 1 := by
  induction n with
  | zero => rfl
  | succ n inductionHypothesis => simp [boxes, Json.depth, Json.itemsDepth, inductionHypothesis]

def nested (n : Nat) : Request := ⟨"q", [("a", boxes n), ("b", .text "x")], some "op"⟩

theorem depth_nested (n : Nat) : (nested n).toJson.depth = n + 3 := by
  rw [depth_toJson]
  simp [nested, Json.depth, Json.membersDepth, depth_boxes]

theorem nested_inOrder (n : Nat) : sortedMembers (nested n).values = (nested n).values := by
  have before : "a" < "b" := by decide
  refine sortedMembers_eq_self (List.pairwise_pair.mpr before) fun m there => ?_
  rcases List.mem_pair.mp there with rfl | rfl
  · exact sorted_boxes n
  · rfl

theorem whole_nested (n : Nat) : (Json.object (nested n).values).Whole := by
  refine .object fun m there => ?_
  rcases List.mem_pair.mp there with rfl | rfl
  · exact whole_boxes n
  · exact .text "x"

/-- A list with the fields of a request, of whose variables one is given twice. -/
def nestedBody : Bytes :=
  Bytes.ofText "[\"q\", \x7b\"b\":\"\\u0078\",\"a\":0,\"a\":[[]]\x7d,\"op\"]"

/-- Whether it is what was read. -/
def readNested : Except ReadError Request → Bool
  | .ok ⟨"q", [("a", .list [.list []]), ("b", .text "x")], some "op"⟩ => true
  | _ => false

theorem parse_nestedBody : parse nestedBody = .ok (nested 1) := by
  have read : readNested (parse nestedBody) := by decide +kernel
  unfold readNested at read
  split at read
  · assumption
  · cases read

/-- The last that is read back, the first that is not, and one that was spelled otherwise. -/
theorem nested_are_read_back :
    parse (nested 124).toJson.bytes = .ok (nested 124) ∧
      (∃ e, parse (nested 125).toJson.bytes = .error e) ∧
        parse (nested 1).toJson.bytes = .ok (nested 1) := by
  have readBack (n : Nat) := parse_toJson_bytes.1 (nested n) (nested_inOrder n) (whole_nested n)
  simp only [depth_nested] at readBack
  have last := readBack 124
  have first := readBack 125
  rw [if_pos (by decide)] at last
  rw [if_neg (by decide)] at first
  exact ⟨last, first, parse_toJson_bytes.2 nestedBody (nested 1) parse_nestedBody (whole_nested 1)⟩

end HotSwap.Graphql.Request

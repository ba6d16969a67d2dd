import HotSwap.Graphql.Request
import HotSwap.Proofs.Json.Records

/-!
# Which bodies are requests

The body of a message is a request if it is an object or a list with the three fields of one. Only
what stands for a field has to stand for something; all else just has to be JSON.
-/

namespace HotSwap.Graphql.Request

open Json Form Bracket

/-! ## The grammar of requests -/

/-- The values under a key, however the key is spelled. -/
def under (key : String) (members : List (List Glyph × Form)) : List Form :=
  (members.filter fun m => Glyph.text? m.1 = some key).map (·.2)

variable (convert : Numeral → Option Number) (n : Nat)

/-- What is given for the fields of a request, if numbers are converted so and no more than `n`
containers may stand within each other. Variables that are `null` are none, and of several under
one name, at any level, the last one counts. -/
structure Fields (query values operationName : List Form) (r : Request) : Prop where
  query : ∃ f, query = [f] ∧ f.value? convert = some (.text r.query)
  values :
    (values = [] ∨ values = [.null]) ∧ r.values = [] ∨
      ∃ f raw, values = [f] ∧ f.value? convert = some (.object raw) ∧ f.depth ≤ n ∧
        r.values = sortedMembers raw
  operationName :
    (operationName = [] ∨ operationName = [.null]) ∧ r.operationName = none ∨
      ∃ f name, operationName = [f] ∧ f.value? convert = some (.text name) ∧
        r.operationName = some name

/-- What may be asked by an object or by a list. -/
inductive Asked : Form → Request → Prop
  | object {members : List (List Glyph × Form)} {r : Request}
      (keys : ∀ m ∈ members, (Glyph.text? m.1).isSome)
      (fields : Fields convert n (under "query" members) (under "variables" members)
        (under "operationName" members) r) : Asked (.object members) r
  | list {items : List Form} {r : Request} (few : items.length ≤ 3)
      (fields : Fields convert n items[0]?.toList items[1]?.toList items[2]?.toList r) :
      Asked (.list items) r

/-- A body that spells the request, among blanks. -/
def Spelled (body : Bytes) (r : Request) : Prop :=
  ∃ f s b, body = s ++ b ∧ f.Spells.Spaced s ∧ Blank b ∧ Asked convert n f r

/-! ## Fields -/

variable {convert n} {f : Form} {fs : List Form} {d d' : Draft} {r : Request}
  {m : List Glyph × Form} {ms : List (List Glyph × Form)} {key : String}

/-- What a field reads into a draft. -/
def Reads (field : Json.Field Draft) (n : Nat) (d : Draft) (f : Form) (d' : Draft) : Prop :=
  if field.key = "query" then ∃ t, Reader.IsText f t ∧ d' = { d with query := some t }
  else if field.key = "variables" then
    ∃ given, Reader.IsOption (Reader.IsMembers n) f given ∧
      d' = { d with values := some (given.getD []) }
  else
    ∃ given, Reader.IsOption Reader.IsText f given ∧ d' = { d with operationName := some given }

theorem shape_reads : shape.Reads Reads := by
  intro field there d n
  rcases List.mem_cons.mp there with rfl | there
  · exact (Reader.accepts_text "a string").map fun t => { d with query := some t }
  rcases List.mem_cons.mp there with rfl | there
  · exact ((Reader.accepts_option Reader.accepts_members) n).map fun given =>
      { d with values := some (given.getD []) }
  · cases List.mem_singleton.mp there
    have text : Reader.Accepts (fun _ => Reader.text "a string") fun _ => Reader.IsText :=
      fun _ => Reader.accepts_text "a string"
    exact ((Reader.accepts_option text) n).map fun given =>
      { d with operationName := some given }

/-- How what is given under one key fills what was given before. -/
def Slot {α : Type} (reads : Form → α → Prop) : Option α → List Form → Option α → Prop
  | before, [], after => after = before
  | before, f :: fs, after => before = none ∧ ∃ a, reads f a ∧ Slot reads (some a) fs after

theorem slot_none_iff {α : Type} {reads : Form → α → Prop} {after : Option α} :
    Slot reads none fs after ↔
      fs = [] ∧ after = none ∨ ∃ f a, fs = [f] ∧ reads f a ∧ after = some a := by
  match fs with
  | [] => simp [Slot]
  | [f] => simp [Slot]
  | f :: g :: fs => simp [Slot]

/-- What is read as variables. -/
def IsValues (n : Nat) (f : Form) (values : Members) : Prop :=
  ∃ given, Reader.IsOption (Reader.IsMembers n) f given ∧ values = given.getD []

/-- What members make of a draft: each of them has a key, and a key of a field fills its field. -/
structure Fill (n : Nat) (d : Draft) (ms : List (List Glyph × Form)) (d' : Draft) : Prop where
  keys : ∀ m ∈ ms, (Glyph.text? m.1).isSome
  query : Slot Reader.IsText d.query (under "query" ms) d'.query
  values : Slot (IsValues n) d.values (under "variables" ms) d'.values
  operationName :
    Slot (Reader.IsOption Reader.IsText) d.operationName (under "operationName" ms)
      d'.operationName

/-- What a value under one key makes of the field of another. -/
def SlotStep {α : Type} (reads : Form → α → Prop) (field key : String) (before : Option α)
    (f : Form) (after : Option α) : Prop :=
  if key = field then before = none ∧ ∃ a, reads f a ∧ after = some a else after = before

/-- The first member fills the field, and then the others do. -/
theorem slot_under_cons_iff {α : Type} {reads : Form → α → Prop} {field : String}
    {before after : Option α} (text : Glyph.text? m.1 = some key) :
    Slot reads before (under field (m :: ms)) after ↔
      ∃ mid, SlotStep reads field key before m.2 mid ∧ Slot reads mid (under field ms) after := by
  unfold under SlotStep
  by_cases same : key = field
  · rw [List.filter_cons_of_pos (by simpa [text] using same), List.map_cons, Slot]
    simp only [if_pos same]
    constructor
    · rintro ⟨new, a, stands, slot⟩
      exact ⟨some a, ⟨new, a, stands, rfl⟩, slot⟩
    · rintro ⟨_, ⟨new, a, stands, rfl⟩, slot⟩
      exact ⟨new, a, stands, slot⟩
  · rw [List.filter_cons_of_neg (by simpa [text] using same)]
    simp only [if_neg same, exists_eq_left]

theorem puts_iff :
    shape.Puts Reads n d key f d' ↔
      SlotStep Reader.IsText "query" key d.query f d'.query ∧
      SlotStep (IsValues n) "variables" key d.values f d'.values ∧
      SlotStep (Reader.IsOption Reader.IsText) "operationName" key d.operationName f
        d'.operationName := by
  obtain ⟨query, values, name⟩ := d
  obtain ⟨query', values', name'⟩ := d'
  unfold Record.Puts SlotStep
  by_cases isQuery : key = "query"
  · subst isQuery
    simp only [shape, List.find?_cons_of_pos, decide_true, Option.isSome_eq_false_iff,
      Option.isNone_iff_eq_none, Reads, if_true, Draft.mk.injEq, String.reduceEq, if_false]
    constructor
    · rintro ⟨new, t, isText, rfl, rfl, rfl⟩
      exact ⟨⟨new, t, isText, rfl⟩, rfl, rfl⟩
    · rintro ⟨⟨new, t, isText, rfl⟩, rfl, rfl⟩
      exact ⟨new, t, isText, rfl, rfl, rfl⟩
  by_cases isValues : key = "variables"
  · subst isValues
    simp only [shape, String.reduceEq, decide_false, Bool.false_eq_true, not_false_eq_true,
      List.find?_cons_of_neg, decide_true, List.find?_cons_of_pos, Option.isSome_eq_false_iff,
      Option.isNone_iff_eq_none, Reads, if_true, if_false, Draft.mk.injEq, IsValues]
    constructor
    · rintro ⟨new, given, stands, rfl, rfl, rfl⟩
      exact ⟨rfl, ⟨new, _, ⟨given, stands, rfl⟩, rfl⟩, rfl⟩
    · rintro ⟨rfl, ⟨new, _, ⟨given, stands, rfl⟩, rfl⟩, rfl⟩
      exact ⟨new, given, stands, rfl, rfl, rfl⟩
  by_cases isName : key = "operationName"
  · subst isName
    simp only [shape, String.reduceEq, decide_false, Bool.false_eq_true, not_false_eq_true,
      List.find?_cons_of_neg, decide_true, List.find?_cons_of_pos, Option.isSome_eq_false_iff,
      Option.isNone_iff_eq_none, Reads, if_true, if_false, Draft.mk.injEq]
    constructor
    · rintro ⟨new, given, stands, rfl, rfl, rfl⟩
      exact ⟨rfl, rfl, new, given, stands, rfl⟩
    · rintro ⟨rfl, rfl, new, given, stands, rfl⟩
      exact ⟨new, given, stands, rfl, rfl, rfl⟩
  have unknown : shape.fields.find? (·.key = key) = none := by
    simp [shape, Ne.symm isQuery, Ne.symm isValues, Ne.symm isName]
  simp only [unknown, if_neg isQuery, if_neg isValues, if_neg isName, Draft.mk.injEq]

theorem chain_iff : Chain (shape.Adds Reads n) d ms d' ↔ Fill n d ms d' := by
  induction ms generalizing d with
  | nil =>
    constructor
    · rintro ⟨⟩
      exact ⟨nofun, rfl, rfl, rfl⟩
    · rintro ⟨-, query, values, name⟩
      cases d
      cases d'
      cases query
      cases values
      cases name
      exact .done
  | cons m ms inductionHypothesis =>
    constructor
    · rintro (_ | ⟨⟨key, text, puts⟩, chain⟩)
      obtain ⟨first, second, third⟩ := puts_iff.mp puts
      obtain ⟨keys, query, values, name⟩ := inductionHypothesis.mp chain
      exact ⟨List.forall_mem_cons.mpr ⟨by rw [text]; rfl, keys⟩,
        (slot_under_cons_iff text).mpr ⟨_, first, query⟩,
        (slot_under_cons_iff text).mpr ⟨_, second, values⟩,
        (slot_under_cons_iff text).mpr ⟨_, third, name⟩⟩
    · rintro ⟨keys, query, values, name⟩
      obtain ⟨here, keys⟩ := List.forall_mem_cons.mp keys
      obtain ⟨key, text⟩ := Option.isSome_iff_exists.mp here
      obtain ⟨query₁, first, query⟩ := (slot_under_cons_iff text).mp query
      obtain ⟨values₁, second, values⟩ := (slot_under_cons_iff text).mp values
      obtain ⟨name₁, third, name⟩ := (slot_under_cons_iff text).mp name
      have puts : shape.Puts Reads n d key m.2 ⟨query₁, values₁, name₁⟩ :=
        puts_iff.mpr ⟨first, second, third⟩
      exact .more ⟨key, text, puts⟩ (inductionHypothesis.mpr ⟨keys, query, values, name⟩)

/-- Items fill the fields in order. -/
theorem fills_iff (nonempty : fs ≠ []) :
    Record.Fills (fun field => Reads field n) shape.fields shape.blank fs d ↔
      fs.length ≤ 3 ∧ Slot Reader.IsText none fs[0]?.toList d.query ∧
        Slot (IsValues n) none fs[1]?.toList d.values ∧
        Slot (Reader.IsOption Reader.IsText) none fs[2]?.toList d.operationName := by
  obtain ⟨query, values, name⟩ := d
  match fs, nonempty with
  | [f], _ =>
    simp [shape, Record.fills_cons_iff, Record.fills_nil_iff, Reads, Slot]
    constructor
    · rintro ⟨t, isText, rfl, none, none'⟩
      exact ⟨⟨t, isText, rfl⟩, none, none'⟩
    · rintro ⟨⟨t, isText, rfl⟩, none, none'⟩
      exact ⟨t, isText, rfl, none, none'⟩
  | [f, g], _ =>
    simp [shape, Record.fills_cons_iff, Record.fills_nil_iff, Reads, Slot, IsValues]
    constructor
    · rintro ⟨t, isText, given, stands, rfl, rfl, none⟩
      exact ⟨⟨t, isText, rfl⟩, ⟨given, stands, rfl⟩, none⟩
    · rintro ⟨⟨t, isText, rfl⟩, ⟨given, stands, rfl⟩, none⟩
      exact ⟨t, isText, given, stands, rfl, rfl, none⟩
  | [f, g, h], _ =>
    simp [shape, Record.fills_cons_iff, Record.fills_nil_iff, Reads, Slot, IsValues]
    constructor
    · rintro ⟨t, isText, given, stands, name, stands', rfl, rfl, rfl⟩
      exact ⟨⟨t, isText, rfl⟩, ⟨given, stands, rfl⟩, name, stands', rfl⟩
    · rintro ⟨⟨t, isText, rfl⟩, ⟨given, stands, rfl⟩, name, stands', rfl⟩
      exact ⟨t, isText, given, stands, name, stands', rfl, rfl, rfl⟩
  | f :: g :: h :: i :: fs, _ =>
    simp [shape, Record.fills_cons_iff, Record.not_fills_cons]

theorem isText_iff {t : String} :
    Reader.IsText f t ↔ f.value? Numeral.number? = some (.text t) := value?_eq_text_iff.symm

theorem isMembers_iff {values : Members} :
    Reader.IsMembers n f values ↔
      ∃ raw, f.value? Numeral.number? = some (.object raw) ∧ f.depth ≤ n ∧
        values = sortedMembers raw := by
  constructor
  · rintro ⟨m, ms, rfl, rfl, shallow, raw, known, rfl⟩
    exact ⟨raw, value?_eq_object_iff.mpr ⟨ms, rfl, known⟩, Nat.succ_le_succ shallow, rfl⟩
  · rintro ⟨raw, known, shallow, rfl⟩
    obtain ⟨ms, rfl, members⟩ := value?_eq_object_iff.mp known
    obtain ⟨m, rfl⟩ := Nat.exists_eq_add_one_of_ne_zero (Nat.ne_of_gt (Nat.lt_of_lt_of_le
      (Nat.succ_pos _) shallow))
    exact ⟨m, ms, rfl, rfl, Nat.le_of_succ_le_succ shallow, raw, members, rfl⟩

theorem finish_eq_ok_iff :
    shape.finish d = .ok r ↔
      d.query = some r.query ∧ r.values = d.values.getD [] ∧
        r.operationName = d.operationName.join := by
  obtain ⟨query, values, name⟩ := d
  obtain ⟨query', values', name'⟩ := r
  cases query with
  | none => simp [shape, required]
  | some query => simp [shape, required, eq_comm]

section

variable {given : List Form} {values : Members} {name : Option String} {query : String}

theorem slot_query_iff :
    Slot Reader.IsText none given (some query) ↔
      ∃ f, given = [f] ∧ f.value? Numeral.number? = some (.text query) := by
  rw [slot_none_iff]
  constructor
  · rintro (⟨-, none⟩ | ⟨f, a, rfl, isText, same⟩)
    · cases none
    · cases same
      exact ⟨f, rfl, isText_iff.mp isText⟩
  · rintro ⟨f, rfl, known⟩
    exact .inr ⟨f, query, rfl, isText_iff.mpr known, rfl⟩

theorem slot_values_iff :
    (∃ after, Slot (IsValues n) none given after ∧ values = after.getD []) ↔
      (given = [] ∨ given = [.null]) ∧ values = [] ∨
        ∃ f raw, given = [f] ∧ f.value? Numeral.number? = some (.object raw) ∧ f.depth ≤ n ∧
          values = sortedMembers raw := by
  constructor
  · rintro ⟨after, slot, rfl⟩
    obtain ⟨rfl, rfl⟩ | ⟨f, _, rfl, ⟨read, stands, rfl⟩, rfl⟩ := slot_none_iff.mp slot
    · exact .inl ⟨.inl rfl, rfl⟩
    · obtain ⟨rfl, rfl⟩ | ⟨-, members, isMembers, rfl⟩ := stands
      · exact .inl ⟨.inr rfl, rfl⟩
      · obtain ⟨raw, known, shallow, rfl⟩ := isMembers_iff.mp isMembers
        exact .inr ⟨f, raw, rfl, known, shallow, rfl⟩
  · rintro (⟨rfl | rfl, rfl⟩ | ⟨f, raw, rfl, known, shallow, rfl⟩)
    · exact ⟨none, slot_none_iff.mpr (.inl ⟨rfl, rfl⟩), rfl⟩
    · exact ⟨some [], slot_none_iff.mpr (.inr ⟨_, _, rfl, ⟨none, .inl ⟨rfl, rfl⟩, rfl⟩, rfl⟩), rfl⟩
    · have object : f ≠ .null := by
        rintro rfl
        cases known
      refine ⟨some _, slot_none_iff.mpr (.inr ⟨f, _, rfl, ⟨some _, .inr ⟨object, _, ?_, rfl⟩, rfl⟩,
        rfl⟩), rfl⟩
      exact isMembers_iff.mpr ⟨raw, known, shallow, rfl⟩

theorem slot_name_iff :
    (∃ after, Slot (Reader.IsOption Reader.IsText) none given after ∧ name = after.join) ↔
      (given = [] ∨ given = [.null]) ∧ name = none ∨
        ∃ f t, given = [f] ∧ f.value? Numeral.number? = some (.text t) ∧ name = some t := by
  constructor
  · rintro ⟨after, slot, rfl⟩
    obtain ⟨rfl, rfl⟩ | ⟨f, read, rfl, stands, rfl⟩ := slot_none_iff.mp slot
    · exact .inl ⟨.inl rfl, rfl⟩
    · obtain ⟨rfl, rfl⟩ | ⟨-, t, isText, rfl⟩ := stands
      · exact .inl ⟨.inr rfl, rfl⟩
      · exact .inr ⟨f, t, rfl, isText_iff.mp isText, rfl⟩
  · rintro (⟨rfl | rfl, rfl⟩ | ⟨f, t, rfl, known, rfl⟩)
    · exact ⟨none, slot_none_iff.mpr (.inl ⟨rfl, rfl⟩), rfl⟩
    · exact ⟨some none, slot_none_iff.mpr (.inr ⟨_, _, rfl, .inl ⟨rfl, rfl⟩, rfl⟩), rfl⟩
    · have text : f ≠ .null := by
        rintro rfl
        cases known
      exact ⟨some (some t), slot_none_iff.mpr
        (.inr ⟨f, _, rfl, .inr ⟨text, t, isText_iff.mpr known, rfl⟩, rfl⟩), rfl⟩

end

/-- A draft is finished as the request whose fields were given. -/
theorem fields_iff {qs vs os : List Form} :
    (∃ d : Draft, Slot Reader.IsText none qs d.query ∧ Slot (IsValues n) none vs d.values ∧
      Slot (Reader.IsOption Reader.IsText) none os d.operationName ∧ shape.finish d = .ok r) ↔
      Fields Numeral.number? n qs vs os r := by
  simp only [finish_eq_ok_iff]
  constructor
  · rintro ⟨d, first, second, third, query, values, name⟩
    rw [query] at first
    exact ⟨slot_query_iff.mp first, slot_values_iff.mp ⟨_, second, values⟩,
      slot_name_iff.mp ⟨_, third, name⟩⟩
  · rintro ⟨query, values, name⟩
    obtain ⟨values', second, values⟩ := slot_values_iff.mpr values
    obtain ⟨name', third, name⟩ := slot_name_iff.mpr name
    exact ⟨⟨some r.query, values', name'⟩, slot_query_iff.mpr query, second, third, rfl, values,
      name⟩

theorem asked_iff :
    (∃ d, shape.Spelled Reads n f d ∧ shape.finish d = .ok r) ↔ Asked Numeral.number? n f r := by
  constructor
  · rintro ⟨d, spelled, finished⟩
    cases spelled with
    | object chain =>
      obtain ⟨keys, query, values, name⟩ := chain_iff.mp chain
      exact .object keys (fields_iff.mp ⟨d, query, values, name, finished⟩)
    | @list fs _ fills =>
      have nonempty : fs ≠ [] := by
        rintro rfl
        obtain ⟨optional, -⟩ := Record.fills_nil_iff.mp fills
        cases optional _ List.mem_cons_self
      obtain ⟨few, query, values, name⟩ := (fills_iff nonempty).mp fills
      exact .list few (fields_iff.mp ⟨d, query, values, name, finished⟩)
  · intro asked
    cases asked with
    | object keys fields =>
      obtain ⟨d, query, values, name, finished⟩ := fields_iff.mpr fields
      exact ⟨d, .object (chain_iff.mpr ⟨keys, query, values, name⟩), finished⟩
    | @list fs _ few fields =>
      have nonempty : fs ≠ [] := by
        rintro rfl
        obtain ⟨f, absent, -⟩ := fields.query
        cases absent
      obtain ⟨d, query, values, name, finished⟩ := fields_iff.mpr fields
      exact ⟨d, .list ((fills_iff nonempty).mpr ⟨few, query, values, name⟩), finished⟩

theorem accepts_reader :
    reader.Accepts fun n f r => ∃ m, n = m + 1 ∧ Asked Numeral.number? m f r := fun n =>
  (Record.accepts_reader shape_reads n).congr fun f r => by
    simp only [← asked_iff, exists_and_left]

theorem spelled_of_parse {body : Bytes} (read : parse body = .ok r) :
    Spelled Numeral.number? 126 body r := by
  obtain ⟨f, s, b, split, spells, blank, m, limit, asked⟩ :=
    (Reader.read_eq_ok_iff accepts_reader).mp read
  cases limit
  exact ⟨f, s, b, split, spells, blank, asked⟩

theorem Spelled.parse {body : Bytes} (spelled : Spelled Numeral.number? 126 body r) :
    parse body = .ok r := by
  obtain ⟨f, s, b, split, spells, blank, asked⟩ := spelled
  exact (Reader.read_eq_ok_iff accepts_reader).mpr ⟨f, s, b, split, spells, blank, 126, rfl, asked⟩

/-- Exactly the bodies that spell a request are read, and as what they spell. Numbers have to
stand for one in the conversion that is used, and the variables count as one container more. -/
theorem parse_eq_ok_iff (body : Bytes) (r : Request) :
    parse body = .ok r ↔ Spelled Numeral.number? 126 body r :=
  ⟨spelled_of_parse, Spelled.parse⟩

/-! ## Numbers at the end of the range -/

/-- A numeral to which the greatest number is nearest. -/
def greatest : Numeral where
  negative := false
  whole := [49]
  fraction := some (Bytes.ofText "7976931348623158")
  exponent := some ⟨101, none, [51, 48, 56], .inl rfl, nofun, by decide⟩
  areDigits := by decide
  noZero := nofun
  areFraction := by
    rintro _ ⟨⟩
    decide +kernel

def greatestBody : Bytes :=
  Bytes.ofText "\x7b\"query\":\"q\",\"variables\":\x7b\"a\":1.7976931348623158e308\x7d\x7d"

/-- Scaling the first digits rounds more than once, so a number may be refused although the nearest
one is not too great. -/
theorem greatest_number_is_refused :
    (∃ r, Spelled Numeral.nearest? 126 greatestBody r) ∧ ¬ ∃ r, parse greatestBody = .ok r := by
  constructor
  · obtain ⟨query, spelledQuery, isQuery⟩ := Scan.exists_glyphs "query" []
    obtain ⟨q, spelledQ, isQ⟩ := Scan.exists_glyphs "q" []
    obtain ⟨variables', spelledVariables, isVariables⟩ := Scan.exists_glyphs "variables" []
    obtain ⟨a, spelledA, isA⟩ := Scan.exists_glyphs "a" []
    rw [List.append_nil] at spelledQuery spelledQ spelledVariables spelledA
    let values : Form := .object [(a, .number greatest)]
    have spelledValues :
        values.Spells (123 :: ((Glyph.quoted a ++ 58 :: greatest.bytes) ++ [125])) :=
      ⟨_, Spelling.listed_one (Spelling.member_self rfl), rfl⟩
    have spelled : (Form.object [(query, .text q), (variables', values)]).Spells greatestBody := by
      refine ⟨_, Spelling.listed_two (Spelling.member_self rfl)
        (Spelling.member_self spelledValues), ?_⟩
      rw [← spelledQuery, ← spelledQ, ← spelledVariables, ← spelledA]
      decide +kernel
    let read : Members := [("a", .number (.float ⟨false, 0x7fefffffffffffff, by decide⟩))]
    have stands : values.value? Numeral.nearest? = some (.object read) := by
      have nearest : greatest.nearest? = some (.float ⟨false, 0x7fefffffffffffff, by decide⟩) := by
        decide +kernel
      simp [values, read, value?, members?, isA, nearest]
    have fields : Fields Numeral.nearest? 126 [.text q] [values] [] ⟨"q", read, none⟩ := by
      have shallow : values.depth ≤ 126 := by simp [values, depth, membersDepth]
      refine ⟨⟨.text q, rfl, ?_⟩, .inr ⟨values, read, rfl, stands, shallow, rfl⟩,
        .inl ⟨.inl rfl, rfl⟩⟩
      rw [value?, isQ, Option.map_some]
    refine ⟨⟨"q", read, none⟩, _, greatestBody, [], (List.append_nil _).symm,
      Spelling.spaced_self spelled, blank_nil, .object ?_ ?_⟩
    · intro m there
      rcases List.mem_pair.mp there with rfl | rfl
      · rw [isQuery, Option.isSome_some]
      · rw [isVariables, Option.isSome_some]
    · simpa [under, isQuery, isVariables] using fields
  · have refused : (parse greatestBody).isOk = false := by decide +kernel
    rintro ⟨r, read⟩
    rw [read] at refused
    cases refused

end HotSwap.Graphql.Request

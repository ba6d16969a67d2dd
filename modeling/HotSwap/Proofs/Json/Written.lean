import HotSwap.Proofs.Json.Decimals
import HotSwap.Proofs.Json.Records

/-!
# What is written is read back

A value is written as a form that stands for it, as long as its numbers are: whole numbers of 64
bits are, while a fraction may be read as one of its neighbours. So what reads a value reads it from
its written form.
-/

namespace HotSwap.Json

/-- All numbers are whole and have 64 bits, or are minus zero, which is no whole number. -/
inductive Whole : Json → Prop
  | null : Whole null
  | bool (b : Bool) : Whole (bool b)
  | int {n : Int} (fits : Number.Fits n) : Whole (int n)
  | minusZero : Whole (number (.float (.zero true)))
  | text (s : String) : Whole (text s)
  | list {items : List Json} (whole : ∀ v ∈ items, Whole v) : Whole (list items)
  | object {members : Members} (whole : ∀ m ∈ members, Whole m.2) : Whole (object members)

attribute [simp] Whole.null Whole.bool Whole.text

mutual

/-- How many containers stand within each other. -/
def depth : Json → Nat
  | list items => itemsDepth items + 1
  | object members => membersDepth members + 1
  | _ => 0

def itemsDepth : List Json → Nat
  | [] => 0
  | v :: rest => max v.depth (itemsDepth rest)

def membersDepth : Members → Nat
  | [] => 0
  | (_, v) :: rest => max v.depth (membersDepth rest)

end

open Spelling

variable {v : Json} {items : List Json} {members : Members} {n : Nat}

/-! ## Depth -/

theorem membersDepth_le_iff : membersDepth members ≤ n ↔ ∀ m ∈ members, m.2.depth ≤ n := by
  induction members with
  | nil => simp [membersDepth]
  | cons m rest inductionHypothesis =>
    rw [membersDepth, Nat.max_le, inductionHypothesis, List.forall_mem_cons]

mutual

/-- Leaving out members does not make a value deeper. -/
theorem depth_sorted_le : (v : Json) → v.sorted.depth ≤ v.depth
  | null | bool _ | number _ | text _ => Nat.le_refl 0
  | list items => Nat.succ_le_succ (itemsDepth_sorted_le items)
  | object members => Nat.succ_le_succ (membersDepth_le_iff.mpr fun m there => by
      obtain ⟨v, there, same⟩ := mem_sortedMembers there
      exact same ▸ depth_sorted_le_membersDepth members _ there)

theorem itemsDepth_sorted_le : (items : List Json) →
    itemsDepth (sortedItems items) ≤ itemsDepth items
  | [] => Nat.le_refl 0
  | v :: rest => Nat.max_le.mpr
      ⟨Nat.le_trans (depth_sorted_le v) (Nat.le_max_left _ _),
        Nat.le_trans (itemsDepth_sorted_le rest) (Nat.le_max_right _ _)⟩

theorem depth_sorted_le_membersDepth : (members : Members) →
    ∀ m ∈ members, m.2.sorted.depth ≤ membersDepth members
  | [], _, there => nomatch there
  | (_, v) :: rest, m, there => by
    rcases List.mem_cons.mp there with rfl | there
    · exact Nat.le_trans (depth_sorted_le v) (Nat.le_max_left _ _)
    · exact Nat.le_trans (depth_sorted_le_membersDepth rest m there) (Nat.le_max_right _ _)

end

theorem membersDepth_sortedMembers_le (members : Members) :
    membersDepth (sortedMembers members) ≤ membersDepth members :=
  Nat.le_of_succ_le_succ (depth_sorted_le (object members))

namespace Form

variable {convert : Numeral → Option Number}

mutual

/-- A value has the depth of the form that stands for it. -/
theorem depth_eq : {f : Form} → {v : Json} → f.value? convert = some v → v.depth = f.depth
  | null, _, known | bool _, _, known => by
    cases known
    rfl
  | number x, _, known => by
    obtain ⟨m, -, rfl⟩ := Option.map_eq_some_iff.mp known
    rfl
  | text gs, _, known => by
    obtain ⟨t, -, rfl⟩ := Option.map_eq_some_iff.mp known
    rfl
  | list items, _, known => by
    obtain ⟨vs, known', rfl⟩ := Option.map_eq_some_iff.mp known
    exact congrArg (· + 1) (itemsDepth_eq known')
  | object members, _, known => by
    obtain ⟨ms, known', rfl⟩ := Option.map_eq_some_iff.mp known
    exact congrArg (· + 1) (membersDepth_eq known')

theorem itemsDepth_eq : {fs : List Form} → {vs : List Json} → items? convert fs = some vs →
    Json.itemsDepth vs = itemsDepth fs
  | [], _, known => by
    cases known
    rfl
  | f :: rest, _, known => by
    simp only [items?, Option.bind_eq_bind, Option.bind_eq_some_iff, Option.pure_def,
      Option.some.injEq] at known
    obtain ⟨v, known, vs, known', rfl⟩ := known
    exact congrArg₂ max (depth_eq known) (itemsDepth_eq known')

theorem membersDepth_eq : {ms : List (List Glyph × Form)} → {raw : Members} →
    members? convert ms = some raw → Json.membersDepth raw = membersDepth ms
  | [], _, known => by
    cases known
    rfl
  | (_, f) :: rest, _, known => by
    simp only [members?, Option.bind_eq_bind, Option.bind_eq_some_iff, Option.pure_def,
      Option.some.injEq] at known
    obtain ⟨key, -, v, known, raw, known', rfl⟩ := known
    exact congrArg₂ max (depth_eq known) (membersDepth_eq known')

end

/-- Items stand for items one by one. -/
theorem items?_eq_some_iff {fs : List Form} {vs : List Json} :
    items? convert fs = some vs ↔ List.Forall₂ (fun f v => f.value? convert = some v) fs vs := by
  induction fs generalizing vs with
  | nil => simp [items?]
  | cons f rest inductionHypothesis =>
    simp only [items?, Option.bind_eq_bind, Option.bind_eq_some_iff, Option.pure_def,
      Option.some.injEq]
    constructor
    · rintro ⟨v, known, vs, known', rfl⟩
      exact .cons known (inductionHypothesis.mp known')
    · rintro (_ | ⟨known, others⟩)
      exact ⟨_, known, _, inductionHypothesis.mpr others, rfl⟩

theorem members?_eq_some_iff {ms : List (List Glyph × Form)} {raw : Members} :
    members? convert ms = some raw ↔
      List.Forall₂ (fun m r => Glyph.text? m.1 = some r.1 ∧ m.2.value? convert = some r.2) ms raw
      := by
  induction ms generalizing raw with
  | nil => simp [members?]
  | cons m rest inductionHypothesis =>
    simp only [members?, Option.bind_eq_bind, Option.bind_eq_some_iff, Option.pure_def,
      Option.some.injEq]
    constructor
    · rintro ⟨key, text, v, known, raw, known', rfl⟩
      exact .cons ⟨text, known⟩ (inductionHypothesis.mp known')
    · rintro (_ | ⟨⟨text, known⟩, others⟩)
      exact ⟨_, text, _, known, _, inductionHypothesis.mpr others, rfl⟩

end Form

/-! ## The form of what is written -/

/-- What is written in front of any tail is a form that stands for the value. -/
def WrittenAs (v : Json) (f : Form) (t : Bytes) : Prop :=
  f.Spells t ∧ (∀ tail, v.write tail = t ++ tail) ∧ f.value? Numeral.number? = some v ∧
    f.depth = v.depth

theorem writeText_append (s : String) (tail : Bytes) :
    writeText s tail = writeText s [] ++ tail := by
  unfold writeText
  rw [List.cons_append]
  congr 1
  induction Bytes.ofText s with
  | nil => rfl
  | cons b bs inductionHypothesis =>
    rw [List.foldr_cons, List.foldr_cons, inductionHypothesis, List.append_assoc]

theorem exists_key (key : String) :
    ∃ gs, Glyph.text? gs = some key ∧ ∀ tail, writeText key tail = Glyph.quoted gs ++ tail := by
  obtain ⟨gs, written, stands⟩ := Scan.exists_glyphs key []
  rw [List.append_nil] at written
  exact ⟨gs, stands, fun tail => by rw [writeText_append, written]⟩

/-- Items, each behind a comma. -/
theorem exists_further (written : ∀ v ∈ items, ∃ f t, WrittenAs v f t) :
    ∃ fs t, Further (Form.itemSpellings fs) t ∧ (∀ tail, writeItems items tail = t ++ tail) ∧
      Form.items? Numeral.number? fs = some items ∧ Form.itemsDepth fs = itemsDepth items := by
  induction items with
  | nil => exact ⟨[], [], further_nil, fun _ => rfl, rfl, rfl⟩
  | cons v items inductionHypothesis =>
    obtain ⟨here, others⟩ := List.forall_mem_cons.mp written
    obtain ⟨f, s, spelled, write, known, depth⟩ := here
    obtain ⟨fs, t, further, writeRest, knownRest, depthRest⟩ := inductionHypothesis others
    have spaced := spaced_self spelled
    refine ⟨f :: fs, [] ++ 44 :: (s ++ t), .more blank_nil spaced further, ?_, ?_, ?_⟩
    · intro tail
      rw [writeItems, write, writeRest]
      simp
    · simp [Form.items?, known, knownRest]
    · rw [Form.itemsDepth, itemsDepth, depth, depthRest]

theorem exists_furtherMembers (written : ∀ m ∈ members, ∃ f t, WrittenAs m.2 f t) :
    ∃ ms t, Further (Form.memberSpellings ms) t ∧
      (∀ tail, writeMembers members tail = t ++ tail) ∧
      Form.members? Numeral.number? ms = some members ∧
      Form.membersDepth ms = membersDepth members := by
  induction members with
  | nil => exact ⟨[], [], further_nil, fun _ => rfl, rfl, rfl⟩
  | cons m members inductionHypothesis =>
    obtain ⟨here, others⟩ := List.forall_mem_cons.mp written
    obtain ⟨f, s, spelled, write, known, depth⟩ := here
    obtain ⟨gs, text, writeKey⟩ := exists_key m.1
    obtain ⟨ms, t, further, writeRest, knownRest, depthRest⟩ := inductionHypothesis others
    refine ⟨(gs, f) :: ms, [] ++ 44 :: ((Glyph.quoted gs ++ 58 :: s) ++ t),
      .more blank_nil (spaced_self (member_self spelled)) further, ?_, ?_, ?_⟩
    · intro tail
      rw [writeMembers, writeKey, write, writeRest]
      simp
    · simp [Form.members?, text, known, knownRest]
    · rw [Form.membersDepth, membersDepth, depth, depthRest]

theorem exists_list (written : ∀ v ∈ items, ∃ f t, WrittenAs v f t) :
    ∃ f t, WrittenAs (list items) f t := by
  cases items with
  | nil =>
    refine ⟨.list [], [91, 93], ?_, fun _ => rfl, rfl, rfl⟩
    rw [Form.Spells]
    exact ⟨[], .none blank_nil, rfl⟩
  | cons v items =>
    obtain ⟨here, others⟩ := List.forall_mem_cons.mp written
    obtain ⟨f, s, spelled, write, known, depth⟩ := here
    obtain ⟨fs, t, further, writeRest, knownRest, depthRest⟩ := exists_further others
    refine ⟨.list (f :: fs), 91 :: ((s ++ t) ++ [93]), ?_, ?_, ?_, ?_⟩
    · rw [Form.Spells]
      exact ⟨s ++ t, .some (spaced_self spelled) further, rfl⟩
    · intro tail
      rw [Json.write, write, writeRest]
      simp
    · simp [Form.value?, Form.items?, known, knownRest]
    · rw [Form.depth, Form.itemsDepth, Json.depth, itemsDepth, depth, depthRest]

theorem exists_object (written : ∀ m ∈ members, ∃ f t, WrittenAs m.2 f t) :
    ∃ f t, WrittenAs (object members) f t := by
  cases members with
  | nil =>
    refine ⟨.object [], [123, 125], ?_, fun _ => rfl, rfl, rfl⟩
    rw [Form.Spells]
    exact ⟨[], .none blank_nil, rfl⟩
  | cons m members =>
    obtain ⟨here, others⟩ := List.forall_mem_cons.mp written
    obtain ⟨f, s, spelled, write, known, depth⟩ := here
    obtain ⟨gs, text, writeKey⟩ := exists_key m.1
    obtain ⟨ms, t, further, writeRest, knownRest, depthRest⟩ := exists_furtherMembers others
    refine ⟨.object ((gs, f) :: ms), 123 :: (((Glyph.quoted gs ++ 58 :: s) ++ t) ++ [125]), ?_, ?_,
      ?_, ?_⟩
    · rw [Form.Spells]
      exact ⟨_, .some (spaced_self (member_self spelled)) further, rfl⟩
    · intro tail
      rw [Json.write, writeKey, write, writeRest]
      simp
    · simp [Form.value?, Form.members?, text, known, knownRest]
    · rw [Form.depth, Form.membersDepth, Json.depth, membersDepth, depth, depthRest]

theorem exists_number {m : Number} {x : Numeral} (bytes : x.bytes = Bytes.ofText m.render)
    (stands : x.number? = some m) : ∃ f t, WrittenAs (number m) f t := by
  refine ⟨.number x, x.bytes, by rw [Form.Spells], fun tail => ?_, ?_, rfl⟩
  · rw [Json.write, bytes]
  · rw [Form.value?, stands, Option.map_some]

/-- A value whose numbers are whole is written as a form that stands for it. -/
theorem Whole.exists_form (whole : v.Whole) : ∃ f t, WrittenAs v f t := by
  induction whole with
  | null => exact ⟨.null, [110, 117, 108, 108], by rw [Form.Spells], fun _ => rfl, rfl, rfl⟩
  | bool b =>
    cases b with
    | true => exact ⟨.bool true, [116, 114, 117, 101], by rw [Form.Spells], fun _ => rfl, rfl, rfl⟩
    | false =>
      exact ⟨.bool false, [102, 97, 108, 115, 101], by rw [Form.Spells], fun _ => rfl, rfl, rfl⟩
  | int fits =>
    obtain ⟨x, bytes, stands⟩ := Numeral.exists_numeral fits
    exact exists_number bytes stands
  | minusZero => exact exists_number Numeral.minusZero_bytes Numeral.number?_minusZero
  | text s =>
    obtain ⟨gs, stands, write⟩ := exists_key s
    refine ⟨.text gs, Glyph.quoted gs, by rw [Form.Spells], fun tail => ?_, ?_, rfl⟩
    · rw [Json.write, write]
    · rw [Form.value?, stands, Option.map_some]
  | list _ inductionHypothesis => exact exists_list inductionHypothesis
  | object _ inductionHypothesis => exact exists_object inductionHypothesis

/-- The bytes of a value spell it. -/
theorem Whole.exists_spelled (whole : v.Whole) :
    ∃ f : Form, f.Spells v.bytes ∧ f.value? Numeral.number? = some v ∧ f.depth = v.depth := by
  obtain ⟨f, t, spelled, write, known, depth⟩ := whole.exists_form
  refine ⟨f, ?_, known, depth⟩
  rwa [Json.bytes, write, List.append_nil]

end HotSwap.Json

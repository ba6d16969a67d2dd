import HotSwap.Proofs.Json.Written

/-!
# Reading back

A reader reads a value back if it reads any form that stands for it and is no deeper than it may
open containers. What is put together from readers that do reads back what is put together from
their values.
-/

namespace HotSwap.Json

open Form

variable {α β δ : Type} {v : Json} {f : Form} {a : α} {n : Nat}

/-! ## Whole values -/

namespace Whole

@[simp] theorem list_iff {items : List Json} : (Json.list items).Whole ↔ ∀ v ∈ items, v.Whole := by
  constructor
  · rintro ⟨⟩
    assumption
  · exact .list

@[simp] theorem object_iff {members : Members} :
    (Json.object members).Whole ↔ ∀ m ∈ members, m.2.Whole := by
  constructor
  · rintro ⟨⟩
    assumption
  · exact .object

@[simp] theorem int_iff {n : Int} : (Json.int n).Whole ↔ Number.Fits n := by
  constructor
  · rintro ⟨⟩
    assumption
  · exact .int

theorem map_items {g : α → Json} {as : List α} (whole : (Json.list (as.map g)).Whole) :
    ∀ a ∈ as, (g a).Whole :=
  List.forall_mem_map.mp (list_iff.mp whole)

theorem ofOption {g : α → Json} {o : Option α} (whole : (Json.ofOption g o).Whole) :
    ∀ a ∈ o, (g a).Whole := by
  rintro a rfl
  exact whole

theorem lt (whole : (Json.nat n).Whole) : n < Word.count 64 := by
  have more : Word.count 63 ≤ Word.count 64 := by decide
  rcases int_iff.mp whole with fits | fits
  · exact Nat.lt_of_lt_of_le (Int.ofNat_lt.mp fits.2) more
  · exact Int.ofNat_lt.mp fits.2

end Whole

namespace Reader

/-- The reader reads the value, however it is spelled, as `a`. -/
def Decodes (x : Reader α) (v : Json) (a : α) : Prop :=
  ∀ ⦃n : Nat⦄ ⦃f : Form⦄, f.value? Numeral.number? = some v → f.depth ≤ n →
    (x n).Reads f.Spells.Spaced a

variable {x : Reader α}

/-- A value is read back from its bytes. -/
theorem Decodes.read_bytes (decodes : x.Decodes v a) (whole : v.Whole)
    (shallow : v.depth ≤ depthLimit) : x.read v.bytes = .ok a := by
  obtain ⟨f, spells, known, depth⟩ := whole.exists_spelled
  have read := decodes known (depth ▸ shallow) (Spelling.spaced_self spells) clear_nil
  rw [List.append_nil] at read
  exact read_eq_ok_iff_yields.mpr ⟨[], read, blank_nil⟩

/-- What is read is made into something else. -/
theorem Decodes.bind {y : α → Scan β} {b : β} (decodes : x.Decodes v a)
    (makes : ∀ s, (y a).Yields s b s) : Decodes (fun n => x n >>= y) v b :=
  fun _ _ known shallow => (decodes known shallow).bind makes

theorem Decodes.map (decodes : x.Decodes v a) (g : α → β) :
    Decodes (fun n => x n >>= fun a => pure (g a)) v (g a) := decodes.bind (.pure _)

/-! ## Scalars and values -/

theorem decodes_text (expected s : String) : Decodes (fun _ => text expected) (.text s) s := by
  intro n f known _
  exact (accepts_text expected).reads (value?_eq_text_iff.mp known)

theorem decodes_natBelow {bound : Nat} (name : String) (below : n < bound) :
    Decodes (fun _ => natBelow bound name) (.nat n) n := by
  intro m f known _
  obtain ⟨x, rfl, number⟩ := value?_eq_number_iff.mp known
  exact (accepts_natBelow bound name).reads ⟨x, rfl, number, below⟩

theorem decodes_value (inOrder : v.sorted = v) : value.Decodes v v :=
  fun n _ known shallow => (accepts_value n).reads ⟨shallow, v, known, inOrder.symm⟩

theorem decodes_members {ms : Members} (inOrder : sortedMembers ms = ms) :
    members.Decodes (.object ms) ms := by
  intro n f known shallow
  obtain ⟨fs, rfl, given⟩ := value?_eq_object_iff.mp known
  obtain _ | n := n
  · exact absurd shallow (Nat.not_succ_le_zero _)
  · exact (accepts_members (n + 1)).reads
      ⟨n, fs, rfl, rfl, Nat.le_of_succ_le_succ shallow, ms, given, inOrder.symm⟩

/-! ## Options and lists -/

theorem decodes_option_none : (option x).Decodes .null none := by
  intro n f known _
  cases value?_eq_null_iff.mp known
  exact reads_option_none

theorem Decodes.option (decodes : x.Decodes v a) (other : v ≠ .null) :
    (option x).Decodes v (some a) := by
  intro n f known shallow
  refine reads_option_some ?_ (decodes known shallow)
  rintro rfl
  cases known
  exact other rfl

/-- Where nothing is written as `null`, what is optional is read back. -/
theorem decodes_ofOption {g : α → Json} {o : Option α} (decodes : ∀ a ∈ o, x.Decodes (g a) a)
    (other : ∀ a, g a ≠ .null) : (option x).Decodes (.ofOption g o) o := by
  cases o with
  | none => exact decodes_option_none
  | some a => exact (decodes a rfl).option (other a)

theorem reads_items {g : α → Json} {fs : List Form} {as : List α}
    (decodes : ∀ a ∈ as, x.Decodes (g a) a) (shallow : Form.itemsDepth fs ≤ n)
    (given : List.Forall₂ (fun f a => f.value? Numeral.number? = some (g a)) fs as) :
    List.Forall₂ (fun f a => (x n).Reads f.Spells.Spaced a) fs as := by
  induction given with
  | nil => exact .nil
  | cons first _ inductionHypothesis =>
    obtain ⟨here, others⟩ := List.forall_mem_cons.mp decodes
    obtain ⟨shallow, shallow'⟩ := Nat.max_le.mp shallow
    exact .cons (here first shallow) (inductionHypothesis others shallow')

theorem decodes_list {g : α → Json} {as : List α} (decodes : ∀ a ∈ as, x.Decodes (g a) a) :
    (list x).Decodes (.list (as.map g)) as := by
  intro n f known shallow
  obtain ⟨fs, rfl, given⟩ := value?_eq_list_iff.mp known
  obtain _ | n := n
  · exact absurd shallow (Nat.not_succ_le_zero _)
  rw [items?_eq_some_iff, List.forall₂_map_right_iff] at given
  exact reads_list (reads_items decodes (Nat.le_of_succ_le_succ shallow) given)

end Reader

/-! ## Records -/

namespace Record

open Reader

variable {r : Record δ α} {d d' : δ} {ms : Members}

/-- A member fills a field that was not given before. -/
def Takes (r : Record δ α) (d : δ) (m : String × Json) (d' : δ) : Prop :=
  ∃ field, r.fields.find? (·.key = m.1) = some field ∧ field.given d = false ∧
    (field.read d).Decodes m.2 d'

theorem reads_members {fs : List (List Glyph × Form)} (chain : Bracket.Chain r.Takes d ms d')
    (known : members? Numeral.number? fs = some ms) (shallow : Form.membersDepth fs ≤ n) :
    Bracket.Chain (fun d m d' => (r.member n d).Reads (memberSpells m) d') d fs d' := by
  rw [members?_eq_some_iff] at known
  induction known generalizing d with
  | nil =>
    cases chain
    exact .done
  | cons first _ inductionHypothesis =>
    obtain ⟨here, others⟩ := Nat.max_le.mp shallow
    cases chain with
    | more takes chain =>
      obtain ⟨field, found, new, decodes⟩ := takes
      have read := reads_member first.1 found new (decodes first.2 here)
      exact .more read (inductionHypothesis chain others)

/-- A record is read back if its members fill its fields. -/
theorem decodes (chain : Bracket.Chain r.Takes r.blank ms d) (finished : r.finish d = .ok a) :
    r.reader.Decodes (.object ms) a := by
  intro n f known shallow
  obtain ⟨fs, rfl, given⟩ := value?_eq_object_iff.mp known
  obtain _ | n := n
  · exact absurd shallow (Nat.not_succ_le_zero _)
  · exact reads_object (reads_members chain given (Nat.le_of_succ_le_succ shallow)) finished

end Record

end HotSwap.Json

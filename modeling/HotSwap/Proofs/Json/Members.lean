import HotSwap.Json.Value

/-!
# Members in order

A reader puts the members of an object one by one into a list in ascending order of their keys,
where a later value takes the place of an earlier one. What comes out has each key once and is in
order at every level.
-/

namespace HotSwap

variable {α : Type} {key key' : String} {v : α} {ms ns : List (String × α)}

/-- Each key once, in ascending order. -/
def Ascending (ms : List (String × α)) : Prop := ms.Pairwise (·.1 < ·.1)

instance (ms : List (String × α)) : Decidable (Ascending ms) :=
  inferInstanceAs (Decidable (ms.Pairwise _))

theorem getMember?_nil (key : String) : getMember? key ([] : List (String × α)) = none := rfl

theorem getMember?_cons (key : String) (m : String × α) (ms : List (String × α)) :
    getMember? key (m :: ms) = if key = m.1 then some m.2 else getMember? key ms := by
  rw [getMember?, List.lookup_cons]
  by_cases same : key = m.1
  · simp [same]
  · rw [if_neg same, beq_eq_false_iff_ne.mpr same, getMember?]

theorem getMember?_putMember (key key' : String) (v : α) (ms : List (String × α)) :
    getMember? key (putMember key' v ms) =
      if key = key' then some v else getMember? key ms := by
  induction ms with
  | nil => simp only [putMember, getMember?_cons]
  | cons m rest inductionHypothesis =>
    rw [putMember]
    split
    · next same =>
      subst same
      simp only [getMember?_cons]
      split <;> rfl
    · split
      · rw [getMember?_cons]
      · next other _ =>
        rw [getMember?_cons, inductionHypothesis, getMember?_cons]
        grind

theorem mem_putMember {m : String × α} (there : m ∈ putMember key v ms) :
    m = (key, v) ∨ m ∈ ms := by
  induction ms with
  | nil => exact .inl (List.mem_singleton.mp there)
  | cons m' rest inductionHypothesis =>
    rw [putMember] at there
    split at there
    · rcases List.mem_cons.mp there with same | later
      · exact .inl same
      · exact .inr (.tail _ later)
    · split at there
      · exact List.mem_cons.mp there
      · rcases List.mem_cons.mp there with same | later
        · exact .inr (same ▸ List.mem_cons_self)
        · exact (inductionHypothesis later).imp_right (.tail _)

theorem Ascending.putMember (ascending : Ascending ms) (key : String) (v : α) :
    Ascending (putMember key v ms) := by
  induction ms with
  | nil => exact List.pairwise_singleton _ _
  | cons m rest inductionHypothesis =>
    obtain ⟨first, later⟩ := List.pairwise_cons.mp ascending
    rw [HotSwap.putMember]
    split
    · next same => exact List.pairwise_cons.mpr ⟨fun m' there => same ▸ first m' there, later⟩
    · split
      · next before =>
        refine List.pairwise_cons.mpr ⟨fun m' there => ?_, ascending⟩
        rcases List.mem_cons.mp there with rfl | there
        · exact before
        · exact String.lt_trans before (first m' there)
      · next other behind =>
        refine List.pairwise_cons.mpr ⟨fun m' there => ?_, inductionHypothesis later⟩
        rcases mem_putMember there with rfl | there
        · grind
        · exact first m' there

/-- A key that is smaller than all others is not among them. -/
theorem getMember?_eq_none (smaller : ∀ m ∈ ms, key < m.1) : getMember? key ms = none := by
  induction ms with
  | nil => rfl
  | cons m rest inductionHypothesis =>
    have other : key ≠ m.1 := fun same =>
      String.lt_irrefl _ (same ▸ smaller m List.mem_cons_self)
    rw [getMember?_cons, if_neg other,
      inductionHypothesis fun m' there => smaller m' (.tail _ there)]

/-- Members in order are told apart by what they have under some key. -/
theorem Ascending.ext (ascending : Ascending ms) (ascending' : Ascending ns)
    (same : ∀ key, getMember? key ms = getMember? key ns) : ms = ns := by
  induction ms generalizing ns with
  | nil =>
    cases ns with
    | nil => rfl
    | cons n ns =>
      have absent := same n.1
      rw [getMember?_cons, if_pos rfl] at absent
      cases absent
  | cons m ms inductionHypothesis =>
    cases ns with
    | nil =>
      have absent := same m.1
      rw [getMember?_cons, if_pos rfl] at absent
      cases absent
    | cons n ns =>
      obtain ⟨first, later⟩ := List.pairwise_cons.mp ascending
      obtain ⟨first', later'⟩ := List.pairwise_cons.mp ascending'
      have keys : m.1 = n.1 := by
        -- otherwise the smaller of the two is missing on the other side
        refine Decidable.byContradiction fun other => ?_
        have one := same m.1
        have two := same n.1
        rw [getMember?_cons, if_pos rfl, getMember?_cons, if_neg other] at one
        rw [getMember?_cons, if_neg (Ne.symm other), getMember?_cons, if_pos rfl] at two
        rcases (by grind : m.1 < n.1 ∨ n.1 < m.1) with before | before
        · have none := getMember?_eq_none fun m' there => String.lt_trans before (first' m' there)
          cases one.trans none
        · have none := getMember?_eq_none fun m' there => String.lt_trans before (first m' there)
          cases two.symm.trans none
      have values : m.2 = n.2 := by
        have one := same m.1
        rw [getMember?_cons, if_pos rfl, getMember?_cons, if_pos keys] at one
        exact Option.some.inj one
      have others : ms = ns := by
        refine inductionHypothesis later later' fun key => ?_
        have here := same key
        rw [getMember?_cons, getMember?_cons, ← keys] at here
        by_cases first'' : key = m.1
        · subst first''
          rw [getMember?_eq_none first, getMember?_eq_none (keys ▸ first')]
        · rwa [if_neg first'', if_neg first''] at here
      rw [others, show m = n from Prod.ext keys values]

namespace Json

/-- What a key stands for is what its last occurrence does. -/
theorem getMember?_sortedMembers_cons (key : String) (m : String × Json) (ms : Members) :
    getMember? key (sortedMembers (m :: ms)) =
      (getMember? key (sortedMembers ms)).or (if key = m.1 then some m.2.sorted else none) := by
  rw [sortedMembers]
  split
  · next there =>
    split
    · next same =>
      subst same
      rw [Option.or_of_isSome there]
    · rw [Option.or_none]
  · next absent =>
    rw [getMember?_putMember]
    split
    · next same =>
      subst same
      rw [Option.not_isSome_iff_eq_none.mp absent, Option.none_or]
    · rw [Option.or_none]

theorem ascending_sortedMembers (ms : Members) : Ascending (sortedMembers ms) := by
  induction ms with
  | nil => exact .nil
  | cons m rest inductionHypothesis =>
    rw [sortedMembers]
    split
    · exact inductionHypothesis
    · exact inductionHypothesis.putMember _ _

/-- The last member with a key counts. -/
theorem getMember?_sortedMembers (key : String) (ms : Members) :
    getMember? key (sortedMembers ms) = (getMember? key ms.reverse).map sorted := by
  induction ms with
  | nil => rfl
  | cons m rest inductionHypothesis =>
    have single : List.lookup key [m] = if key = m.1 then some m.2 else none :=
      getMember?_cons key m []
    rw [getMember?_sortedMembers_cons, inductionHypothesis, List.reverse_cons, getMember?,
      getMember?, List.lookup_append, single]
    cases rest.reverse.lookup key <;> by_cases same : key = m.1 <;> simp [same]

/-! ## Values in order -/

theorem putMember_of_lt {v : Json} {ms : Members} (smaller : ∀ m ∈ ms, key < m.1) :
    putMember key v ms = (key, v) :: ms := by
  cases ms with
  | nil => rfl
  | cons m rest =>
    have before := smaller m List.mem_cons_self
    have other : key ≠ m.1 := fun same => String.lt_irrefl _ (same ▸ before)
    rw [putMember, if_neg other, if_pos before]

theorem mem_sortedMembers {m : String × Json} {ms : Members} (there : m ∈ sortedMembers ms) :
    ∃ v, (m.1, v) ∈ ms ∧ m.2 = v.sorted := by
  induction ms with
  | nil => cases there
  | cons first rest inductionHypothesis =>
    have later (there : m ∈ sortedMembers rest) :
        ∃ v, (m.1, v) ∈ first :: rest ∧ m.2 = v.sorted := by
      obtain ⟨v, there, same⟩ := inductionHypothesis there
      exact ⟨v, .tail _ there, same⟩
    rw [sortedMembers] at there
    split at there
    · exact later there
    · rcases mem_putMember there with rfl | there
      · exact ⟨first.2, List.mem_cons_self, rfl⟩
      · exact later there

/-- Members that are in order at every level stay as they are. -/
theorem sortedMembers_eq_self {ms : Members} (ascending : Ascending ms)
    (inOrder : ∀ m ∈ ms, m.2.sorted = m.2) : sortedMembers ms = ms := by
  induction ms with
  | nil => rfl
  | cons m rest inductionHypothesis =>
    obtain ⟨smaller, ascending⟩ := List.pairwise_cons.mp ascending
    obtain ⟨here, others⟩ := List.forall_mem_cons.mp inOrder
    rw [sortedMembers, inductionHypothesis ascending others, getMember?_eq_none smaller,
      putMember_of_lt smaller, here]
    rfl

mutual

theorem sorted_sorted : (v : Json) → v.sorted.sorted = v.sorted
  | null | bool _ | number _ | text _ => by simp only [sorted]
  | list items => by rw [sorted, sorted, sortedItems_sortedItems items]
  | object members => by rw [sorted, sorted, sortedMembers_sortedMembers members]

theorem sortedItems_sortedItems : (items : List Json) →
    sortedItems (sortedItems items) = sortedItems items
  | [] => rfl
  | v :: rest => by
    rw [sortedItems, sortedItems, sorted_sorted v, sortedItems_sortedItems rest]

theorem sortedMembers_sortedMembers : (members : Members) →
    sortedMembers (sortedMembers members) = sortedMembers members := fun members => by
  refine sortedMembers_eq_self (ascending_sortedMembers members) fun m there => ?_
  obtain ⟨v, there, same⟩ := mem_sortedMembers there
  rw [same, sorted_values members _ there]

theorem sorted_values : (members : Members) → ∀ m ∈ members, m.2.sorted.sorted = m.2.sorted
  | [], _, there => nomatch there
  | (_, v) :: rest, m, there => by
    rcases List.mem_cons.mp there with rfl | there
    · exact sorted_sorted v
    · exact sorted_values rest m there

end

/-! ## Putting one by one -/

/-- The members are put one by one. -/
def putAll (read ms : Members) : Members :=
  ms.foldl (fun read m => putMember m.1 m.2.sorted read) read

theorem ascending_putAll {read : Members} (ascending : Ascending read) (ms : Members) :
    Ascending (putAll read ms) := by
  induction ms generalizing read with
  | nil => exact ascending
  | cons m rest inductionHypothesis => exact inductionHypothesis (ascending.putMember _ _)

theorem getMember?_putAll (key : String) (read ms : Members) :
    getMember? key (putAll read ms) =
      (getMember? key (sortedMembers ms)).or (getMember? key read) := by
  induction ms generalizing read with
  | nil => rw [putAll, List.foldl_nil, sortedMembers, getMember?_nil, Option.none_or]
  | cons m rest inductionHypothesis =>
    change getMember? key (putAll (putMember m.1 m.2.sorted read) rest) = _
    rw [inductionHypothesis, getMember?_putMember, getMember?_sortedMembers_cons, Option.or_assoc]
    split <;> rfl

/-- What a reader puts together is in order, and the last member with a key counts. -/
theorem putAll_nil (ms : Members) : putAll [] ms = sortedMembers ms := by
  refine Ascending.ext (ascending_putAll .nil ms) (ascending_sortedMembers ms) fun key => ?_
  rw [getMember?_putAll, getMember?_nil, Option.or_none]

end Json

end HotSwap

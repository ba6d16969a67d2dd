import HotSwap.Json.Pass
import HotSwap.Proofs.Json.Values

/-!
# Which values are passed over

Passing over a value goes on while containers are open. What is still due then follows from those
that are, and what was passed in the end is spelled by some form, at any depth, whatever it stands
for.
-/

namespace HotSwap.Json

namespace Pass

open Form Spelling

variable {s t u rest b : Bytes} {c : UInt8} {k : Bracket} {outer stack : List Bracket} {due : Due}
  {p : Spelling} {f : Form}

/-! ## One step -/

theorem run_next_comma (more : Scan.skipBlank s = 44 :: rest) :
    run .next (k :: outer) s = run (itemDue k) (k :: outer) rest := by
  rw [run]
  split
  · next none => cases none.symm.trans more
  · next same =>
    cases same.symm.trans more
    rw [if_pos rfl]

theorem run_next_close (ends : Scan.skipBlank s = k.close :: rest) :
    run .next (k :: outer) s = run .next outer rest := by
  rw [run]
  split
  · next none => cases none.symm.trans ends
  · next same =>
    cases same.symm.trans ends
    rw [if_neg (Ne.symm k.comma_ne_close), if_pos rfl]

theorem run_first_close (ends : Scan.skipBlank s = k.close :: rest) :
    run .first (k :: outer) s = run .next outer rest := by
  rw [run]
  split
  · next none => cases none.symm.trans ends
  · next same =>
    cases same.symm.trans ends
    rw [if_pos rfl]

theorem run_first_item (more : Scan.skipBlank s = c :: rest) (other : c ≠ k.close) :
    run .first (k :: outer) s = run (itemDue k) (k :: outer) (c :: rest) := by
  rw [run]
  split
  · next none => cases none.symm.trans more
  · next same =>
    cases same.symm.trans more
    rw [if_neg other]

theorem run_key (quote : Scan.skipBlank s = 34 :: t)
    (passed : (do Scan.passText; Scan.colon : Scan Unit).Yields t () rest) :
    run .key stack s = run .value stack rest := by
  obtain ⟨le, passed⟩ := passed
  rw [run]
  split
  · next none => cases none.symm.trans quote
  · next same =>
    cases same.symm.trans quote
    simp only [if_true, passed]

theorem run_value_open (more : Scan.skipBlank s = c :: rest) (opens : open? c = some k) :
    run .value stack s = run .first (k :: stack) rest := by
  conv => lhs; rw [run]
  split
  · next none => cases none.symm.trans more
  · next same =>
    cases same.symm.trans more
    simp only [opens]

theorem run_value_scalar (more : Scan.skipBlank s = c :: t) (scalar : open? c = none)
    (passed : (Pass.scalar c).Yields (c :: t) () rest) :
    run .value stack s = run .next stack rest := by
  obtain ⟨le, passed⟩ := passed
  rw [run]
  split
  · next none => cases none.symm.trans more
  · next same =>
    cases same.symm.trans more
    simp only [scalar, passed]

/-! ## Scalars -/

theorem scalar_sound (passed : (scalar c).Yields (c :: s) () rest) :
    ∃ f t, c :: s = t ++ rest ∧ Spells f t := by
  unfold scalar at passed
  split at passed
  · next same =>
    subst same
    cases Scan.yields_word_iff.mp (Scan.yields_drop_bind_iff.mp passed)
    exact ⟨.null, [110, 117, 108, 108], rfl, by rw [Spells]⟩
  split at passed
  · next same =>
    subst same
    cases Scan.yields_word_iff.mp (Scan.yields_drop_bind_iff.mp passed)
    exact ⟨.bool true, [116, 114, 117, 101], rfl, by rw [Spells]⟩
  split at passed
  · next same =>
    subst same
    cases Scan.yields_word_iff.mp (Scan.yields_drop_bind_iff.mp passed)
    exact ⟨.bool false, [102, 97, 108, 115, 101], rfl, by rw [Spells]⟩
  split at passed
  · obtain ⟨x, split, -⟩ := Scan.yields_passNumber_iff.mp passed
    exact ⟨.number x, x.bytes, split, by rw [Spells]⟩
  split at passed
  · next same =>
    subst same
    obtain ⟨gs, split⟩ := Scan.yields_passText_iff.mp (Scan.yields_drop_bind_iff.mp passed)
    rw [List.drop_succ_cons, List.drop_zero] at split
    refine ⟨.text gs, Glyph.quoted gs, ?_, by rw [Spells]⟩
    rw [split, Glyph.quoted]
    simp
  · exact absurd passed Scan.not_yields_failNext

/-- A form without items is passed over in one go. -/
theorem scalar_reads (unlisted : ∀ fs, f ≠ .list fs) (unmembered : ∀ ms, f ≠ .object ms)
    (spelled : f.Spells (c :: t)) (clear : Clear rest) :
    open? c = none ∧ (scalar c).Yields (c :: (t ++ rest)) () rest := by
  cases f with
  | null =>
    cases spelled
    exact ⟨rfl, Scan.yields_drop_bind_iff.mpr (Scan.yields_word_iff.mpr rfl)⟩
  | bool b =>
    cases b <;> cases spelled <;>
      exact ⟨rfl, Scan.yields_drop_bind_iff.mpr (Scan.yields_word_iff.mpr rfl)⟩
  | number x =>
    obtain ⟨c', t', split, begins⟩ := spelled.begins
    cases split
    rw [Spells] at spelled
    have read : Scan.passNumber.Yields (c :: (t ++ rest)) () rest :=
      Scan.yields_passNumber_iff.mpr ⟨x, by rw [← spelled]; rfl, Scan.ends_of_clear clear x⟩
    have begins : c = 45 ∨ Bytes.isDigit c := begins
    obtain ⟨other, other', other''⟩ : c ≠ 110 ∧ c ≠ 116 ∧ c ≠ 102 := by
      refine ⟨?_, ?_, ?_⟩ <;> rintro rfl <;> exact absurd begins (by decide)
    obtain ⟨unlisted, unmembered⟩ : c ≠ 91 ∧ c ≠ 123 := by
      refine ⟨?_, ?_⟩ <;> rintro rfl <;> exact absurd begins (by decide)
    simp only [open?, if_neg unlisted, if_neg unmembered, scalar, if_neg other, if_neg other',
      if_neg other'', if_pos begins]
    exact ⟨trivial, read⟩
  | text gs =>
    cases spelled
    refine ⟨rfl, Scan.yields_drop_bind_iff.mpr (Scan.yields_passText_iff.mpr ⟨gs, ?_⟩)⟩
    simp
  | list fs => exact absurd rfl (unlisted fs)
  | object ms => exact absurd rfl (unmembered ms)

/-! ## What is due -/

/-- What may stand in a container. -/
inductive Item : Bracket → Spelling → Prop
  | item (f : Form) : Item .list f.Spells
  | member (m : List Glyph × Form) : Item .object (memberSpells m)

/-- What may follow a value so that all open containers are closed. -/
inductive Pending : List Bracket → Spelling
  | done : Pending [] []
  | close {k : Bracket} {outer : List Bracket} {b u : Bytes} (blank : Blank b)
      (rest : Pending outer u) : Pending (k :: outer) (b ++ k.close :: u)
  | more {k : Bracket} {outer : List Bracket} {p : Spelling} {b s u : Bytes} (blank : Blank b)
      (item : Item k p) (spelled : p.Spaced s) (rest : Pending (k :: outer) u) :
      Pending (k :: outer) (b ++ 44 :: (s ++ u))

/-- What is due, and all that follows. -/
inductive Owed : Due → List Bracket → Spelling
  | next {stack : List Bracket} {u : Bytes} (rest : Pending stack u) : Owed .next stack u
  | value {stack : List Bracket} {f : Form} {s u : Bytes} (spelled : f.Spells.Spaced s)
      (rest : Pending stack u) : Owed .value stack (s ++ u)
  | key {stack : List Bracket} {m : List Glyph × Form} {s u : Bytes}
      (spelled : (memberSpells m).Spaced s) (rest : Pending stack u) : Owed .key stack (s ++ u)
  | empty {k : Bracket} {outer : List Bracket} {b u : Bytes} (blank : Blank b)
      (rest : Pending outer u) : Owed .first (k :: outer) (b ++ k.close :: u)
  | first {k : Bracket} {outer : List Bracket} {p : Spelling} {s u : Bytes} (item : Item k p)
      (spelled : p.Spaced s) (rest : Pending (k :: outer) u) : Owed .first (k :: outer) (s ++ u)
  | over : Owed .first [] []

theorem Owed.item (owed : Owed (itemDue k) (k :: outer) u) :
    ∃ p s t, u = s ++ t ∧ Item k p ∧ p.Spaced s ∧ Pending (k :: outer) t := by
  cases k with
  | list =>
    cases owed with
    | value spelled rest => exact ⟨_, _, _, rfl, .item _, spelled, rest⟩
  | object =>
    cases owed with
    | key spelled rest => exact ⟨_, _, _, rfl, .member _, spelled, rest⟩

/-- What is pending closes the innermost container first. -/
theorem Pending.exists_further (pending : Pending (k :: outer) u) :
    ∃ ps t v, u = t ++ k.close :: v ∧ Further ps t ∧ (∀ p ∈ ps, Item k p) ∧ Pending outer v := by
  generalize opened : k :: outer = stack at pending
  induction pending with
  | done => cases opened
  | close blank rest =>
    cases opened
    exact ⟨[], _, _, rfl, .done blank, nofun, rest⟩
  | more blank item spelled rest inductionHypothesis =>
    cases opened
    obtain ⟨ps, t, v, rfl, further, items, pending⟩ := inductionHypothesis rfl
    refine ⟨_ :: ps, _, v, ?_, .more blank spelled further, ?_, pending⟩
    · simp
    · exact List.forall_mem_cons.mpr ⟨item, items⟩

theorem Owed.exists_listed (owed : Owed .first (k :: outer) u) :
    ∃ ps t v, u = t ++ k.close :: v ∧ Listed ps t ∧ (∀ p ∈ ps, Item k p) ∧ Pending outer v := by
  cases owed with
  | empty blank rest => exact ⟨[], _, _, rfl, .none blank, nofun, rest⟩
  | first item spelled rest =>
    obtain ⟨ps, t, v, rfl, further, items, pending⟩ := rest.exists_further
    refine ⟨_ :: ps, _, v, ?_, .some spelled further, ?_, pending⟩
    · simp
    · exact List.forall_mem_cons.mpr ⟨item, items⟩

theorem exists_items {ps : List Spelling} (items : ∀ p ∈ ps, Item .list p) :
    ∃ fs, ps = itemSpellings fs := by
  induction ps with
  | nil => exact ⟨[], rfl⟩
  | cons p ps inductionHypothesis =>
    obtain ⟨item, others⟩ := List.forall_mem_cons.mp items
    obtain ⟨fs, rfl⟩ := inductionHypothesis others
    cases item with
    | item f => exact ⟨f :: fs, rfl⟩

theorem exists_members {ps : List Spelling} (items : ∀ p ∈ ps, Item .object p) :
    ∃ ms, ps = memberSpellings ms := by
  induction ps with
  | nil => exact ⟨[], rfl⟩
  | cons p ps inductionHypothesis =>
    obtain ⟨item, others⟩ := List.forall_mem_cons.mp items
    obtain ⟨ms, rfl⟩ := inductionHypothesis others
    cases item with
    | member m => exact ⟨m :: ms, rfl⟩

/-- A container is a value. -/
theorem exists_container {ps : List Spelling} (opens : open? c = some k) (listed : Listed ps t)
    (items : ∀ p ∈ ps, Item k p) : ∃ f, Spells f (c :: (t ++ [k.close])) := by
  unfold open? at opens
  split at opens
  · next same =>
    cases opens
    obtain ⟨fs, rfl⟩ := exists_items items
    exact ⟨.list fs, by rw [Spells]; exact ⟨t, listed, congrArg (· :: (t ++ [93])) same⟩⟩
  · split at opens
    · next same =>
      cases opens
      obtain ⟨ms, rfl⟩ := exists_members items
      exact ⟨.object ms, by rw [Spells]; exact ⟨t, listed, congrArg (· :: (t ++ [125])) same⟩⟩
    · cases opens

/-! ## Whole values -/

theorem run_sound (passed : run due stack s = .ok rest) :
    ∃ u, s = u ++ rest ∧ Owed due stack u := by
  fun_induction run due stack s with
  | case1 =>
    cases passed
    exact ⟨[], rfl, .next .done⟩
  | case3 s k outer later found inductionHypothesis =>
    obtain ⟨b, blank, rfl⟩ := (skipBlank_eq_cons_iff rfl).mp found
    obtain ⟨_, rfl, owed⟩ := inductionHypothesis passed
    obtain ⟨p, t, u, rfl, item, spelled, pending⟩ := owed.item
    exact ⟨b ++ 44 :: (t ++ u), by simp, .next (.more blank item spelled pending)⟩
  | case4 s k outer later found _ inductionHypothesis =>
    obtain ⟨b, blank, rfl⟩ := (skipBlank_eq_cons_iff k.isBlank_close).mp found
    obtain ⟨u, rfl, owed⟩ := inductionHypothesis passed
    cases owed with
    | next pending => exact ⟨b ++ k.close :: u, by simp, .next (.close blank pending)⟩
  | case6 =>
    cases passed
    exact ⟨[], rfl, .over⟩
  | case8 s k outer later found inductionHypothesis =>
    obtain ⟨b, blank, rfl⟩ := (skipBlank_eq_cons_iff k.isBlank_close).mp found
    obtain ⟨u, rfl, owed⟩ := inductionHypothesis passed
    cases owed with
    | next pending => exact ⟨b ++ k.close :: u, by simp, .empty blank pending⟩
  | case9 s k outer c later found _ inductionHypothesis =>
    obtain ⟨b, blank, rfl⟩ := (skipBlank_eq_cons_iff (shown_of_skipBlank found)).mp found
    obtain ⟨u, split, owed⟩ := inductionHypothesis passed
    obtain ⟨p, t, v, rfl, item, spelled, pending⟩ := owed.item
    exact ⟨(b ++ t) ++ v, by rw [split]; simp, .first item (spelled.blank blank) pending⟩
  | case12 s stack later u keyed found inductionHypothesis =>
    obtain ⟨b, blank, rfl⟩ := (skipBlank_eq_cons_iff rfl).mp found
    obtain ⟨v, split, owed⟩ := inductionHypothesis passed
    obtain ⟨_, mid, first, second⟩ := Scan.yields_bind_iff.mp ⟨u.le, keyed⟩
    obtain ⟨gs, key⟩ := Scan.yields_passText_iff.mp first
    obtain ⟨b', blank', behind⟩ := Scan.yields_colon_iff.mp second
    cases owed with
    | @value _ f t v spelled pending =>
      have member : (memberSpells (gs, f)).Spaced (b ++ (Glyph.quoted gs ++ (b' ++ 58 :: t))) :=
        ⟨b, _, blank, ⟨_, ⟨b', t, blank', spelled, rfl⟩, rfl⟩, rfl⟩
      refine ⟨_ ++ v, ?_, .key member pending⟩
      rw [key, behind, split]
      simp [Glyph.quoted]
  | case15 s stack c later found k opens inductionHypothesis =>
    obtain ⟨b, blank, rfl⟩ := (skipBlank_eq_cons_iff (shown_of_skipBlank found)).mp found
    obtain ⟨_, rfl, owed⟩ := inductionHypothesis passed
    obtain ⟨ps, t, v, rfl, listed, items, pending⟩ := owed.exists_listed
    obtain ⟨f, spelled⟩ := exists_container opens listed items
    have value : f.Spells.Spaced (b ++ c :: (t ++ [k.close])) := ⟨b, _, blank, spelled, rfl⟩
    exact ⟨(b ++ c :: (t ++ [k.close])) ++ v, by simp, .value value pending⟩
  | case17 s stack c later found _ u taken inductionHypothesis =>
    obtain ⟨b, blank, rfl⟩ := (skipBlank_eq_cons_iff (shown_of_skipBlank found)).mp found
    obtain ⟨v, split, owed⟩ := inductionHypothesis passed
    obtain ⟨f, t, split', spelled⟩ := scalar_sound ⟨u.le, taken⟩
    cases owed with
    | next pending =>
      refine ⟨(b ++ t) ++ v, ?_, .value ⟨b, t, blank, spelled, rfl⟩ pending⟩
      rw [split', split]
      simp
  | _ => cases passed

/-- A value is passed over from wherever it stands. -/
def Passed (p : Spelling) (due : Due) : Prop :=
  ∀ ⦃s rest⦄ stack, p.Spaced s → Clear rest → run due stack (s ++ rest) = run .next stack rest

theorem passed_member {m : List Glyph × Form} (passed : Passed m.2.Spells .value) :
    Passed (memberSpells m) .key := by
  rintro _ rest stack ⟨b, _, blank, ⟨_, ⟨b', t, blank', spelled, rfl⟩, rfl⟩, rfl⟩ clear
  have first : Scan.passText.Yields (Glyph.spell m.1 ++ 34 :: (b' ++ 58 :: (t ++ rest))) ()
      (b' ++ 58 :: (t ++ rest)) := Scan.yields_passText_iff.mpr ⟨m.1, rfl⟩
  have second : Scan.colon.Yields (b' ++ 58 :: (t ++ rest)) () (t ++ rest) :=
    Scan.yields_colon_iff.mpr ⟨b', blank', rfl⟩
  have quote : Scan.skipBlank (b ++ (Glyph.quoted m.1 ++ (b' ++ 58 :: t)) ++ rest) =
      34 :: (Glyph.spell m.1 ++ 34 :: (b' ++ 58 :: (t ++ rest))) :=
    (skipBlank_eq_cons_iff rfl).mpr ⟨b, blank, by simp [Glyph.quoted]⟩
  rw [run_key quote (first.bind second), passed stack spelled clear]

variable {ps : List Spelling}

/-- Items that are passed over take all of the rest of their container. -/
theorem run_further (passed : ∀ p ∈ ps, Passed p (itemDue k)) (further : Further ps t)
    (rest : Bytes) : run .next (k :: outer) (t ++ k.close :: rest) = run .next outer rest := by
  induction further with
  | done blank =>
    exact run_next_close ((skipBlank_eq_cons_iff k.isBlank_close).mpr ⟨_, blank, rfl⟩)
  | @more p ps b s t blank item further inductionHypothesis =>
    obtain ⟨first, others⟩ := List.forall_mem_cons.mp passed
    have comma : Scan.skipBlank (b ++ 44 :: (s ++ t) ++ k.close :: rest) =
        44 :: (s ++ (t ++ k.close :: rest)) :=
      (skipBlank_eq_cons_iff rfl).mpr ⟨b, blank, by simp⟩
    rw [run_next_comma comma, first _ item (Bracket.clear_further further k rest),
      inductionHypothesis others]

theorem run_listed (passed : ∀ p ∈ ps, Passed p (itemDue k))
    (starts : ∀ p ∈ ps, ∀ t, p t → k.Starts t) (listed : Listed ps t) (rest : Bytes) :
    run .first (k :: outer) (t ++ k.close :: rest) = run .next outer rest := by
  cases listed with
  | none blank =>
    exact run_first_close ((skipBlank_eq_cons_iff k.isBlank_close).mpr ⟨_, blank, rfl⟩)
  | @some p ps _ t item further =>
    obtain ⟨first, others⟩ := List.forall_mem_cons.mp passed
    obtain ⟨b, s, blank, spelled, rfl⟩ := item
    obtain ⟨c, s, rfl, shown, accepted⟩ := starts p List.mem_cons_self s spelled
    have found : Scan.skipBlank (b ++ c :: s ++ t ++ k.close :: rest) =
        c :: (s ++ (t ++ k.close :: rest)) :=
      (skipBlank_eq_cons_iff shown).mpr ⟨b, blank, by simp⟩
    have item := first (k :: outer) (spaced_self spelled) (Bracket.clear_further further k rest)
    rw [List.cons_append] at item
    rw [run_first_item found (Bracket.ne_close_of_refusal? accepted), item,
      run_further others further]

theorem passed_container (opens : open? c = some k) (passed : ∀ p ∈ ps, Passed p (itemDue k))
    (starts : ∀ p ∈ ps, ∀ t, p t → k.Starts t) (listed : Listed ps t) (blank : Blank b)
    (rest : Bytes) :
    run .value stack (b ++ c :: (t ++ [k.close]) ++ rest) = run .next stack rest := by
  have shown : Scan.isBlank c = false := by
    unfold open? at opens
    split at opens
    · next same => subst same; rfl
    · split at opens
      · next same => subst same; rfl
      · cases opens
  have found : Scan.skipBlank (b ++ c :: (t ++ [k.close]) ++ rest) = c :: (t ++ k.close :: rest) :=
    (skipBlank_eq_cons_iff shown).mpr ⟨b, blank, by simp⟩
  rw [run_value_open found opens, run_listed passed starts listed]

theorem depth_le_itemsDepth {fs : List Form} (there : f ∈ fs) : f.depth ≤ itemsDepth fs := by
  induction fs with
  | nil => cases there
  | cons g fs inductionHypothesis =>
    rw [itemsDepth]
    rcases List.mem_cons.mp there with rfl | later
    · exact Nat.le_max_left _ _
    · exact Nat.le_trans (inductionHypothesis later) (Nat.le_max_right _ _)

theorem depth_le_membersDepth {ms : List (List Glyph × Form)} {m : List Glyph × Form}
    (there : m ∈ ms) : m.2.depth ≤ membersDepth ms := by
  induction ms with
  | nil => cases there
  | cons m' ms inductionHypothesis =>
    rw [membersDepth]
    rcases List.mem_cons.mp there with rfl | later
    · exact Nat.le_max_left _ _
    · exact Nat.le_trans (inductionHypothesis later) (Nat.le_max_right _ _)

theorem passed_scalar (unlisted : ∀ fs, f ≠ .list fs) (unmembered : ∀ ms, f ≠ .object ms) :
    Passed f.Spells .value := by
  rintro _ rest stack ⟨b, t, blank, spelled, rfl⟩ clear
  obtain ⟨c, t, rfl, shown⟩ := spelled.shown
  obtain ⟨scalar, passed⟩ := scalar_reads unlisted unmembered spelled clear
  have found : Scan.skipBlank (b ++ c :: t ++ rest) = c :: (t ++ rest) :=
    (skipBlank_eq_cons_iff shown).mpr ⟨b, blank, by simp⟩
  exact run_value_scalar found scalar passed

/-- Every form is passed over, however deeply it nests. -/
theorem passed_form (f : Form) : Passed f.Spells .value := by
  cases f with
  | list fs =>
    have items : ∀ p ∈ fs.map Spells, Passed p .value := by
      intro p there
      obtain ⟨g, inside, rfl⟩ := List.mem_map.mp there
      exact passed_form g
    have starts : ∀ p ∈ fs.map Spells, ∀ t, p t → Bracket.list.Starts t := by
      intro p there t spelled
      obtain ⟨g, -, rfl⟩ := List.mem_map.mp there
      exact spelled.starts
    rintro _ rest stack ⟨b, _, blank, spelled, rfl⟩ -
    rw [Spells, itemSpellings_eq] at spelled
    obtain ⟨t, listed, rfl⟩ := spelled
    exact passed_container rfl items starts listed blank rest
  | object ms =>
    have items : ∀ p ∈ ms.map memberSpells, Passed p .key := by
      intro p there
      obtain ⟨m, inside, rfl⟩ := List.mem_map.mp there
      exact passed_member (passed_form m.2)
    have starts : ∀ p ∈ ms.map memberSpells, ∀ t, p t → Bracket.object.Starts t := by
      intro p there t spelled
      obtain ⟨m, -, rfl⟩ := List.mem_map.mp there
      exact starts_member spelled
    rintro _ rest stack ⟨b, _, blank, spelled, rfl⟩ -
    rw [Spells, memberSpellings_eq] at spelled
    obtain ⟨t, listed, rfl⟩ := spelled
    exact passed_container rfl items starts listed blank rest
  | _ => apply passed_scalar <;> intro _ same <;> cases same
termination_by f.depth
decreasing_by
  · exact Nat.lt_succ_of_le (depth_le_itemsDepth inside)
  · exact Nat.lt_succ_of_le (depth_le_membersDepth inside)

end Pass

namespace Scan

open Form

theorem yields_pass_iff {s rest : Bytes} {u : Unit} :
    pass.Yields s u rest ↔ Pass.run .value [] s = .ok rest := by
  refine yields_ofPartial_iff.trans ?_
  cases Pass.run .value [] s <;> simp [Except.map]

/-- Whatever is spelled by a form is passed over, whether it stands for a value or not. -/
theorem accepts_pass : pass.Accepts Spells fun _ _ => True where
  sound {s _ rest} _ yields := by
    obtain ⟨u, split, owed⟩ := Pass.run_sound (yields_pass_iff.mp yields)
    cases owed with
    | @value _ f t u spelled pending =>
      cases pending
      exact ⟨f, t ++ [], split, by rwa [List.append_nil], trivial⟩
  reads {f _ t rest} _ spelled clear := by
    refine yields_pass_iff.mpr ((Pass.passed_form f [] spelled clear).trans ?_)
    rw [Pass.run]

end Scan

end HotSwap.Json

import HotSwap.Proofs.Json.Grammar
import HotSwap.Proofs.Json.Scanning

/-!
# What a scan accepts

A scan accepts what is spelled in some way if it takes something off the front of an input exactly
where that is spelled. A number takes all that could belong to it, so nothing of that kind may
follow. A container is accepted if its items are, one after the other; what an item adds may depend
on those before it, as the members of a record do.
-/

namespace HotSwap.Json

variable {α β ι σ : Type} {s t rest tail b : Bytes} {a : α} {i : ι} {p : ι → Spelling}
  {r : ι → α → Prop} {x : Scan α}

/-- Nothing that a number would take. -/
def Clear (s : Bytes) : Prop :=
  ∀ c ∈ s.head?, ¬ Bytes.isDigit c ∧ c ≠ 46 ∧ c ≠ 101 ∧ c ≠ 69

theorem clear_nil : Clear [] := nofun

/-! ## Blanks -/

theorem blank_nil : Blank [] := nofun

theorem Blank.append (blank : Blank s) (blank' : Blank t) : Blank (s ++ t) := fun b there =>
  (List.mem_append.mp there).elim (blank b) (blank' b)

theorem blank_takeWhile (s : Bytes) : Blank (s.takeWhile Scan.isBlank) :=
  fun _ there => List.all_eq_true.mp List.all_takeWhile _ there

theorem skipBlank_of_shown {c : UInt8} (shown : Scan.isBlank c = false) (rest : Bytes) :
    Scan.skipBlank (c :: rest) = c :: rest :=
  List.dropWhile_cons_of_neg (by simp [shown])

theorem Blank.skip (blank : Blank b) (s : Bytes) : Scan.skipBlank (b ++ s) = Scan.skipBlank s :=
  List.dropWhile_append_of_pos blank

/-- What is skipped is blank. -/
theorem exists_blank (s : Bytes) : ∃ b, Blank b ∧ s = b ++ Scan.skipBlank s :=
  ⟨_, blank_takeWhile s, List.takeWhile_append_dropWhile.symm⟩

theorem skipBlank_eq_cons_iff {c : UInt8} (shown : Scan.isBlank c = false) :
    Scan.skipBlank s = c :: rest ↔ ∃ b, Blank b ∧ s = b ++ c :: rest := by
  constructor
  · intro same
    obtain ⟨b, blank, split⟩ := exists_blank s
    exact ⟨b, blank, same ▸ split⟩
  · rintro ⟨b, blank, rfl⟩
    rw [blank.skip, skipBlank_of_shown shown]

theorem skipBlank_eq_nil_iff : Scan.skipBlank s = [] ↔ Blank s := by
  constructor
  · intro none
    obtain ⟨b, blank, split⟩ := exists_blank s
    rw [none, List.append_nil] at split
    exact split ▸ blank
  · intro blank
    have skipped := blank.skip []
    rwa [List.append_nil] at skipped

theorem shown_of_skipBlank {c : UInt8} (same : Scan.skipBlank s = c :: rest) :
    Scan.isBlank c = false := by
  have stops := List.head?_dropWhile_not Scan.isBlank s
  rw [show s.dropWhile Scan.isBlank = c :: rest from same] at stops
  simpa using stops

theorem Blank.clear (blank : Blank b) (clear : Clear s) : Clear (b ++ s) := by
  cases b with
  | nil => exact clear
  | cons c b =>
    rintro _ ⟨⟩
    have shown := blank c List.mem_cons_self
    simp only [Scan.isBlank, Bool.or_eq_true, beq_iff_eq] at shown
    rcases shown with ((rfl | rfl) | rfl) | rfl <;> decide

theorem Spelling.spaced_self {p : Spelling} (spelled : p t) : p.Spaced t :=
  ⟨[], t, blank_nil, spelled, rfl⟩

theorem Spelling.further_nil : Spelling.Further [] [] := .done blank_nil

theorem Spelling.listed_one {p : Spelling} (spelled : p t) : Spelling.Listed [p] t := by
  have listed := Spelling.Listed.some (Spelling.spaced_self spelled) Spelling.further_nil
  rwa [List.append_nil] at listed

theorem Spelling.listed_two {p q : Spelling} (spelled : p s) (spelled' : q t) :
    Spelling.Listed [p, q] (s ++ 44 :: t) := by
  have further := Spelling.Further.more blank_nil (Spelling.spaced_self spelled')
    Spelling.further_nil
  rw [List.append_nil] at further
  exact .some (Spelling.spaced_self spelled) further

theorem Spelling.member_self {key : List Glyph} {p : Spelling} (spelled : p t) :
    Spelling.member key p (Glyph.quoted key ++ 58 :: t) :=
  ⟨58 :: t, ⟨[], t, blank_nil, Spelling.spaced_self spelled, rfl⟩, rfl⟩

/-- Further blanks may stand before what has some. -/
theorem Spelling.Spaced.blank {p : Spelling} (spaced : p.Spaced t) (blank : Blank b) :
    p.Spaced (b ++ t) := by
  obtain ⟨b', t, blank', spelled, rfl⟩ := spaced
  exact ⟨b ++ b', t, blank.append blank', spelled, (List.append_assoc _ _ _).symm⟩

namespace Scan

/-! ## Acceptance -/

/-- The scan takes the spelling for `a`. -/
def Reads (x : Scan α) (p : Spelling) (a : α) : Prop :=
  ∀ ⦃t rest⦄, p t → Clear rest → x.Yields (t ++ rest) a rest

/-- What is read is made into something else. -/
theorem Reads.bind {p : Spelling} {f : α → Scan β} {b : β} (reads : x.Reads p a)
    (makes : ∀ s, (f a).Yields s b s) : (x >>= f).Reads p b :=
  fun _ rest spelled clear => (reads spelled clear).bind (makes rest)

/-- A scan that goes on by the next byte reads what it reads from that byte on. -/
theorem reads_look {p : Spelling} {f : Option UInt8 → Scan α}
    (shown : ∀ t, p t → ∃ c t', t = c :: t' ∧ isBlank c = false)
    (reads : ∀ c t rest, p (c :: t) → Clear rest →
      (f (some c)).Yields (c :: (t ++ rest)) a rest) : (look >>= f).Reads p.Spaced a := by
  rintro _ rest ⟨b, t, blank, spelled, rfl⟩ clear
  obtain ⟨c, t, rfl, shown⟩ := shown t spelled
  rw [yields_look_bind_iff, List.append_assoc, blank.skip, List.cons_append,
    skipBlank_of_shown shown]
  exact reads c t rest spelled clear

/-- What the scan takes, from where `pre` holds, is spelled by something that stands for it. -/
structure AcceptsFrom (pre : Bytes → Prop) (x : Scan α) (p : ι → Spelling) (r : ι → α → Prop) :
    Prop where
  sound : ∀ {s a rest}, pre s → x.Yields s a rest → ∃ i t, s = t ++ rest ∧ p i t ∧ r i a
  reads : ∀ {i a}, r i a → x.Reads (p i) a

/-- What the scan takes is spelled so wherever it stands, and blanks may stand before it. -/
abbrev Accepts (x : Scan α) (p : ι → Spelling) (r : ι → α → Prop) : Prop :=
  AcceptsFrom (fun _ => True) x (fun i => (p i).Spaced) r

namespace AcceptsFrom

variable {pre : Bytes → Prop}

theorem congr {r' : ι → α → Prop} (accepts : AcceptsFrom pre x p r)
    (same : ∀ i a, r i a ↔ r' i a) : AcceptsFrom pre x p r' where
  sound holds yields := by
    obtain ⟨i, t, split, spelled, stands⟩ := accepts.sound holds yields
    exact ⟨i, t, split, spelled, (same _ _).mp stands⟩
  reads stands := accepts.reads ((same _ _).mpr stands)

/-- What is taken is made into something else, if it is what is wanted. -/
theorem bind {f : α → Scan β} {g : α → β → Prop}
    (makes : ∀ a s b rest, (f a).Yields s b rest ↔ g a b ∧ rest = s)
    (accepts : AcceptsFrom pre x p r) :
    AcceptsFrom pre (x >>= f) p fun i b => ∃ a, r i a ∧ g a b where
  sound holds yields := by
    obtain ⟨a, mid, first, second⟩ := yields_bind_iff.mp yields
    obtain ⟨made, rfl⟩ := (makes _ _ _ _).mp second
    obtain ⟨i, t, split, spelled, stands⟩ := accepts.sound holds first
    exact ⟨i, t, split, spelled, a, stands, made⟩
  reads := by
    rintro i b ⟨a, stands, made⟩
    exact (accepts.reads stands).bind fun s => (makes _ _ _ _).mpr ⟨made, rfl⟩

theorem map (accepts : AcceptsFrom pre x p r) (g : α → β) :
    AcceptsFrom pre (x >>= fun a => Pure.pure (g a)) p fun i b => ∃ a, r i a ∧ b = g a :=
  accepts.bind fun _ _ _ _ => yields_pure_iff

/-- Nothing stands for what is refused. -/
theorem refused (refuses : ∀ s a rest, ¬ x.Yields s a rest) :
    AcceptsFrom pre x p fun _ _ => False where
  sound _ yields := absurd yields (refuses _ _ _)
  reads := False.elim

end AcceptsFrom

/-- Where no blank stands, none is taken. -/
theorem Accepts.sound_shown (accepts : x.Accepts p r)
    (shown : ∀ c ∈ s.head?, isBlank c = false) (yields : x.Yields s a rest) :
    ∃ i t, s = t ++ rest ∧ p i t ∧ r i a := by
  obtain ⟨i, _, split, ⟨b, t, blank, spelled, rfl⟩, stands⟩ := accepts.sound trivial yields
  cases b with
  | nil => exact ⟨i, t, split, spelled, stands⟩
  | cons c b =>
    have first : c ∈ s.head? := by rw [split]; rfl
    exact absurd (blank c List.mem_cons_self) (by simp [shown c first])

/-- A scan that goes on by the next byte accepts what it accepts from that byte on. -/
theorem accepts_look {f : Option UInt8 → Scan α}
    (sound : ∀ s a rest, (∀ c ∈ s.head?, isBlank c = false) → (f s.head?).Yields s a rest →
      ∃ i t, s = t ++ rest ∧ p i t ∧ r i a)
    (reads : ∀ i a, r i a → (look >>= f).Reads (p i).Spaced a) : (look >>= f).Accepts p r where
  sound {s a rest} _ yields := by
    rw [yields_look_bind_iff] at yields
    obtain ⟨b, blank, split⟩ := exists_blank s
    have first : ∀ c ∈ (skipBlank s).head?, isBlank c = false := by
      intro c first
      obtain ⟨later, same⟩ := List.head?_eq_some_iff.mp first
      exact shown_of_skipBlank same
    obtain ⟨i, t, split', spelled, stands⟩ := sound _ a rest first yields
    refine ⟨i, b ++ t, ?_, ⟨b, t, blank, spelled, rfl⟩, stands⟩
    rw [split, split', List.append_assoc]
  reads stands := reads _ _ stands

/-! ## Members -/

theorem yields_colon_iff : colon.Yields s () rest ↔ ∃ b, Blank b ∧ s = b ++ 58 :: rest := by
  rw [← skipBlank_eq_cons_iff (show isBlank 58 = false from rfl), colon, yields_look_bind_iff]
  cases skipBlank s with
  | nil => simp
  | cons c later =>
    by_cases same : c = 58
    · subst same
      change Scan.drop.Yields _ _ _ ↔ _
      rw [(yields_drop _).iff]
      simp [eq_comm]
    · simp [same]

theorem Reads.colon {p : Spelling} (reads : x.Reads p.Spaced a) :
    (colon >>= fun _ => x).Reads p.behind a := by
  rintro _ rest ⟨b, t, blank, spaced, rfl⟩ clear
  rw [List.append_assoc, List.cons_append]
  exact (yields_colon_iff.mpr ⟨b, blank, rfl⟩).bind (reads spaced clear)

theorem AcceptsFrom.colon (accepts : x.Accepts p r) :
    AcceptsFrom (fun _ => True) (colon >>= fun _ => x) (fun i => (p i).behind) r where
  sound _ yields := by
    obtain ⟨_, mid, first, second⟩ := yields_bind_iff.mp yields
    obtain ⟨b, blank, rfl⟩ := yields_colon_iff.mp first
    obtain ⟨i, t, rfl, spaced, stands⟩ := accepts.sound trivial second
    exact ⟨i, b ++ 58 :: t, by simp, ⟨b, t, blank, spaced, rfl⟩, stands⟩
  reads stands := (accepts.reads stands).colon

end Scan

namespace Bracket

open Spelling

variable {k : Bracket}

/-! ## Items -/

/-- An item may start so. -/
def Starts (k : Bracket) (s : Bytes) : Prop :=
  ∃ c rest, s = c :: rest ∧ Scan.isBlank c = false ∧ k.refusal? c = none

theorem Starts.append (starts : k.Starts s) (rest : Bytes) : k.Starts (s ++ rest) := by
  obtain ⟨c, s, rfl, shown, accepted⟩ := starts
  exact ⟨c, s ++ rest, rfl, shown, accepted⟩

theorem isBlank_close (k : Bracket) : Scan.isBlank k.close = false := by
  cases k <;> rfl

theorem clear_close (k : Bracket) (rest : Bytes) : Clear (k.close :: rest) := by
  rintro _ ⟨⟩
  cases k <;> decide

theorem ne_close_of_refusal? {c : UInt8} (accepted : k.refusal? c = none) : c ≠ k.close := by
  intro same
  rw [refusal?, if_pos same] at accepted
  cases accepted

theorem comma_ne_close (k : Bracket) : (44 : UInt8) ≠ k.close := by
  cases k <;> decide

theorem item?_none_iff {first : Bool} :
    k.item? first s = .ok none ↔ ∃ b rest, Blank b ∧ s = b ++ k.close :: rest := by
  constructor
  · intro ends
    unfold item? at ends
    split at ends
    · cases ends
    · next c rest same =>
      split at ends
      · next close =>
        subst close
        obtain ⟨b, blank, split⟩ := (skipBlank_eq_cons_iff k.isBlank_close).mp same
        exact ⟨b, rest, blank, split⟩
      · repeat' split at ends
        all_goals cases ends
  · rintro ⟨b, rest, blank, rfl⟩
    simp only [item?, blank.skip, skipBlank_of_shown k.isBlank_close, if_true]

theorem item?_first_iff :
    k.item? true s = .ok (some rest) ↔ k.Starts rest ∧ ∃ b, Blank b ∧ s = b ++ rest := by
  constructor
  · intro found
    unfold item? at found
    split at found
    · cases found
    · next c later same =>
      split at found
      · cases found
      · simp only [if_true] at found
        split at found
        · cases found
        · next accepted =>
          cases found
          have shown := shown_of_skipBlank same
          exact ⟨⟨c, later, rfl, shown, accepted⟩, (skipBlank_eq_cons_iff shown).mp same⟩
  · rintro ⟨⟨c, later, rfl, shown, accepted⟩, b, blank, rfl⟩
    simp only [item?, blank.skip, skipBlank_of_shown shown,
      if_neg (ne_close_of_refusal? accepted), if_true, accepted]

theorem item?_further_iff :
    k.item? false s = .ok (some rest) ↔
      k.Starts rest ∧ ∃ b b', Blank b ∧ Blank b' ∧ s = b ++ 44 :: (b' ++ rest) := by
  constructor
  · intro found
    unfold item? at found
    split at found
    · cases found
    · next c later same =>
      split at found
      · cases found
      · simp only [Bool.false_eq_true, if_false] at found
        split at found
        · next comma =>
          subst comma
          split at found
          · cases found
          · next c' later' same' =>
            split at found
            · cases found
            · next accepted =>
              cases found
              have shown := shown_of_skipBlank same'
              obtain ⟨b, blank, rfl⟩ := (skipBlank_eq_cons_iff rfl).mp same
              obtain ⟨b', blank', rfl⟩ := (skipBlank_eq_cons_iff shown).mp same'
              exact ⟨⟨c', later', rfl, shown, accepted⟩, b, b', blank, blank', rfl⟩
        · cases found
  · rintro ⟨⟨c, later, rfl, shown, accepted⟩, b, b', blank, blank', rfl⟩
    simp only [item?, blank.skip, blank'.skip, skipBlank_of_shown (c := 44) rfl,
      if_neg k.comma_ne_close, Bool.false_eq_true, if_false, if_true, skipBlank_of_shown shown,
      accepted]

theorem yields_next_iff {first found : Bool} :
    (k.next first).Yields s found rest ↔
      found = false ∧ k.item? first s = .ok none ∧ rest = s ∨
        found = true ∧ k.item? first s = .ok (some rest) := by
  rw [Bracket.next, Scan.yields_ofPartial_iff]
  unfold advance
  rcases k.item? first s with fault | _ | later <;> simp [eq_comm]

/-! ## Folds -/

/-- What the scan takes from where an item may start is spelled so. -/
abbrev AcceptsItem (k : Bracket) (x : Scan α) (p : ι → Spelling) (r : ι → α → Prop) : Prop :=
  Scan.AcceptsFrom k.Starts x p r

/-- An item may be anything that is accepted. -/
theorem acceptsItem (accepts : x.Accepts p r) (k : Bracket) : k.AcceptsItem x p r where
  sound := by
    rintro s a rest ⟨c, s', rfl, shown, -⟩ yields
    refine Scan.Accepts.sound_shown accepts (fun c' first => ?_) yields
    cases first
    exact shown
  reads stands _ _ spelled := accepts.reads stands (spaced_self spelled)

/-- What the items make of a state, one after the other. -/
inductive Chain (r : σ → ι → σ → Prop) : σ → List ι → σ → Prop
  | done {st : σ} : Chain r st [] st
  | more {st st' st'' : σ} {i : ι} {is : List ι} (first : r st i st') (rest : Chain r st' is st'') :
    Chain r st (i :: is) st''

theorem Chain.imp {q q' : σ → ι → σ → Prop} {st st' : σ} {is : List ι} (chain : Chain q st is st')
    (implies : ∀ st i st', q st i st' → q' st i st') : Chain q' st is st' := by
  induction chain with
  | done => exact .done
  | more first rest inductionHypothesis => exact .more (implies _ _ _ first) inductionHypothesis

/-- What stands between the brackets is read, up to blanks. -/
def ReadsInside (k : Bracket) (x : Scan α) (ps : List Spelling) (a : α) : Prop :=
  ∀ ⦃t⦄, Listed ps t → ∀ rest, ∃ b, Blank b ∧
    x.Yields (t ++ k.close :: rest) a (b ++ k.close :: rest)

/-- What is taken between the brackets is spelled by a list that stands for it. -/
structure AcceptsInside (k : Bracket) (x : Scan α) (p : ι → Spelling) (r : List ι → α → Prop) :
    Prop where
  sound : ∀ {s a rest}, x.Yields s a rest → ∃ is t, s = t ++ rest ∧
    (∀ b, Blank b → Listed (is.map p) (t ++ b)) ∧ r is a
  reads : ∀ {is a}, r is a → k.ReadsInside x (is.map p) a

theorem clear_further {ps : List Spelling} (further : Further ps t) (k : Bracket) (rest : Bytes) :
    Clear (t ++ k.close :: rest) := by
  cases further with
  | done blank => exact blank.clear (k.clear_close rest)
  | more blank item further =>
    rw [List.append_assoc]
    exact blank.clear (by rintro _ ⟨⟩; decide)

section

variable {step : σ → Scan σ} {q : σ → ι → σ → Prop} {st st' : σ} {is : List ι}

theorem further_sound (accepts : ∀ st, k.AcceptsItem (step st) p (q st))
    (taken : k.further step st s = .ok (st', rest)) :
    ∃ is t, s = t ++ rest ∧ (∀ b, Blank b → Further (is.map p) (t ++ b)) ∧ Chain q st is st' := by
  fun_induction k.further step st s with
  | case2 st s =>
    cases taken
    exact ⟨[], [], rfl, fun b blank => .done blank, .done⟩
  | case4 st s mid found u stepped inductionHypothesis =>
    obtain ⟨starts, b, b', blank, blank', rfl⟩ := item?_further_iff.mp found
    obtain ⟨i, t, split, spelled, stands⟩ := (accepts st).sound starts ⟨u.le, stepped⟩
    obtain ⟨is, t', split', further, chain⟩ := inductionHypothesis taken
    refine ⟨i :: is, b ++ 44 :: (b' ++ t ++ t'), ?_, fun c clear => ?_, .more stands chain⟩
    · rw [split, split']
      simp only [List.append_assoc, List.cons_append]
    · rw [List.append_assoc, List.cons_append, List.append_assoc]
      exact .more blank ⟨b', t, blank', spelled, rfl⟩ (further c clear)
  | _ => cases taken

theorem further_reads (reads : ∀ st i st', q st i st' → (step st).Reads (p i) st')
    (starts : ∀ i t, p i t → k.Starts t) (chain : Chain q st is st')
    (further : Further (is.map p) t) (rest : Bytes) :
    ∃ b, Blank b ∧ k.further step st (t ++ k.close :: rest) = .ok (st', b ++ k.close :: rest) := by
  induction chain generalizing t with
  | done =>
    cases further with
    | done blank =>
      have ends : k.item? false (t ++ k.close :: rest) = .ok none :=
        item?_none_iff.mpr ⟨t, rest, blank, rfl⟩
      refine ⟨t, blank, ?_⟩
      rw [Bracket.further]
      split
      · next failed => cases failed.symm.trans ends
      · rfl
      · next found => cases found.symm.trans ends
  | @more st st' st'' i is first chain inductionHypothesis =>
    cases further with
    | @more _ _ b _ t' blank item further =>
      obtain ⟨b', t, blank', spelled, rfl⟩ := item
      obtain ⟨c, blank'', goesOn⟩ := inductionHypothesis further
      have found : k.item? false (b ++ 44 :: (b' ++ (t ++ (t' ++ k.close :: rest)))) =
          .ok (some (t ++ (t' ++ k.close :: rest))) :=
        item?_further_iff.mpr ⟨(starts i t spelled).append _, b, b', blank, blank', rfl⟩
      obtain ⟨le, stepped⟩ := reads st i st' first spelled (clear_further further k rest)
      refine ⟨c, blank'', ?_⟩
      rw [List.append_assoc, List.cons_append, List.append_assoc, List.append_assoc,
        Bracket.further]
      split
      · next failed => cases failed.symm.trans found
      · next ended => cases ended.symm.trans found
      · next same =>
        cases same.symm.trans found
        simp only [stepped, goesOn]

/-- A fold reads a list whose items are read one after the other. -/
theorem fold_reads (reads : ∀ st i st', q st i st' → (step st).Reads (p i) st')
    (starts : ∀ i t, p i t → k.Starts t) (chain : Chain q st is st') :
    k.ReadsInside (k.fold step st) (is.map p) st' := by
  intro t listed rest
  cases chain with
  | done =>
    cases listed with
    | none blank =>
      refine ⟨t, blank, Scan.yields_bind_iff.mpr ⟨false, t ++ k.close :: rest, ?_, .pure _ _⟩⟩
      exact yields_next_iff.mpr (.inl ⟨rfl, item?_none_iff.mpr ⟨t, rest, blank, rfl⟩, rfl⟩)
  | @more _ st' _ i is first chain =>
    cases listed with
    | @some _ _ _ t' item further =>
      obtain ⟨b, t, blank, spelled, rfl⟩ := item
      obtain ⟨c, blank', goesOn⟩ := further_reads reads starts chain further rest
      have found : k.item? true (b ++ (t ++ (t' ++ k.close :: rest))) =
          .ok (some (t ++ (t' ++ k.close :: rest))) :=
        item?_first_iff.mpr ⟨(starts i t spelled).append _, b, blank, rfl⟩
      have stepped := reads st i st' first spelled (clear_further further k rest)
      rw [List.append_assoc, List.append_assoc]
      have some : (k.next true).Yields _ true _ := yields_next_iff.mpr (.inr ⟨rfl, found⟩)
      exact ⟨c, blank', some.bind (stepped.bind (.ofPartial goesOn))⟩

/-- A fold accepts the lists of what its steps accept one after the other. -/
theorem acceptsInside_fold (accepts : ∀ st, k.AcceptsItem (step st) p (q st))
    (starts : ∀ i t, p i t → k.Starts t) (start : σ) :
    k.AcceptsInside (k.fold step start) p (Chain q start) where
  sound {s st rest} yields := by
    obtain ⟨found, mid, first, taken⟩ := Scan.yields_bind_iff.mp yields
    obtain ⟨rfl, -, rfl⟩ | ⟨rfl, found⟩ := yields_next_iff.mp first
    · obtain ⟨rfl, rfl⟩ := Scan.yields_pure_iff.mp taken
      exact ⟨[], [], rfl, fun b blank => .none blank, .done⟩
    · obtain ⟨starts', b, blank, rfl⟩ := item?_first_iff.mp found
      obtain ⟨st', later, stepped, others⟩ := Scan.yields_bind_iff.mp taken
      obtain ⟨i, t, rfl, spelled, stands⟩ := (accepts start).sound starts' stepped
      obtain ⟨is, t', rfl, further, chain⟩ :=
        further_sound accepts (Scan.yields_ofPartial_iff.mp others)
      refine ⟨i :: is, b ++ t ++ t', ?_, fun c clear => ?_, .more stands chain⟩
      · simp only [List.append_assoc]
      · rw [List.append_assoc]
        exact .some ⟨b, t, blank, spelled, rfl⟩ (further c clear)
  reads chain := fold_reads (fun st _ _ => (accepts st).reads) starts chain

end

theorem AcceptsInside.congr {x : Scan α} {r r' : List ι → α → Prop}
    (accepts : k.AcceptsInside x p r) (same : ∀ is a, r is a ↔ r' is a) :
    k.AcceptsInside x p r' where
  sound yields := by
    obtain ⟨is, t, split, listed, stands⟩ := accepts.sound yields
    exact ⟨is, t, split, listed, (same _ _).mp stands⟩
  reads stands := accepts.reads ((same _ _).mpr stands)

/-- What was read between the brackets is made into something else. -/
theorem ReadsInside.bind {x : Scan α} {f : α → Scan β} {a : α} {b : β} {ps : List Spelling}
    (reads : k.ReadsInside x ps a) (makes : ∀ s, (f a).Yields s b s) :
    k.ReadsInside (x >>= f) ps b := by
  intro t listed rest
  obtain ⟨c, blank, yields⟩ := reads listed rest
  exact ⟨c, blank, yields.bind (makes _)⟩

theorem AcceptsInside.bind {x : Scan α} {f : α → Scan β} {r : List ι → α → Prop}
    {g : α → β → Prop} (makes : ∀ a s b rest, (f a).Yields s b rest ↔ g a b ∧ rest = s)
    (accepts : k.AcceptsInside x p r) :
    k.AcceptsInside (x >>= f) p fun is b => ∃ a, r is a ∧ g a b where
  sound yields := by
    obtain ⟨a, mid, first, second⟩ := Scan.yields_bind_iff.mp yields
    obtain ⟨made, rfl⟩ := (makes _ _ _ _).mp second
    obtain ⟨is, t, split, listed, stands⟩ := accepts.sound first
    exact ⟨is, t, split, listed, a, stands, made⟩
  reads := by
    rintro is b ⟨a, stands, made⟩
    exact (accepts.reads stands).bind fun s => (makes _ _ _ _).mpr ⟨made, rfl⟩

/-! ## Whole containers -/

theorem yields_placing_iff : (k.placing x).Yields s a rest ↔ x.Yields s a rest := by
  unfold Scan.Yields placing
  cases x s <;> simp

theorem yields_leave_iff :
    k.leave.Yields s () rest ↔ ∃ b, Blank b ∧ s = b ++ k.close :: rest := by
  rw [← skipBlank_eq_cons_iff k.isBlank_close, leave, Scan.yields_look_bind_iff]
  cases Scan.skipBlank s with
  | nil => simp
  | cons c later =>
    simp only [List.head?_cons]
    split
    · next close =>
      subst close
      rw [(Scan.yields_drop _).iff]
      simp [eq_comm]
    · next other =>
      simp only [List.cons.injEq, other, false_and, iff_false]
      split
      · split
        · rw [Scan.yields_drop_bind_iff, Scan.yields_look_bind_iff]
          split <;> exact Scan.not_yields_failNext
        · exact Scan.not_yields_failNext
      · exact Scan.not_yields_failNext

theorem AcceptsInside.yields_around {r : List ι → α → Prop} (accepts : k.AcceptsInside x p r)
    (yields : (k.around (some x)).Yields (k.opening :: s) a rest) :
    ∃ is t, k.opening :: s = t ++ rest ∧ enclosed k (is.map p) t ∧ r is a := by
  rw [around, Scan.yields_drop_bind_iff] at yields
  obtain ⟨a', mid, inside, behind⟩ := Scan.yields_bind_iff.mp yields
  obtain ⟨_, later, closed, ends⟩ := Scan.yields_bind_iff.mp behind
  obtain ⟨rfl, rfl⟩ := Scan.yields_pure_iff.mp ends
  obtain ⟨b, blank, rfl⟩ := yields_leave_iff.mp closed
  obtain ⟨is, t, split, listed, stands⟩ := accepts.sound (yields_placing_iff.mp inside)
  rw [List.drop_succ_cons, List.drop_zero] at split
  refine ⟨is, k.opening :: (t ++ b ++ [k.close]), ?_, ⟨t ++ b, listed b blank, rfl⟩, stands⟩
  rw [split]
  simp only [List.cons_append, List.append_assoc, List.nil_append]

theorem ReadsInside.around {ps : List Spelling} (reads : k.ReadsInside x ps a) :
    (k.around (some x)).Reads (enclosed k ps) a := by
  rintro _ rest ⟨t, listed, rfl⟩ -
  obtain ⟨b, blank, inside⟩ := reads listed rest
  have left : k.leave.Yields (b ++ k.close :: rest) () rest := yields_leave_iff.mpr ⟨b, blank, rfl⟩
  rw [List.cons_append, List.append_assoc, List.singleton_append]
  exact (Scan.Yields.drop k.opening _).bind
    ((yields_placing_iff.mpr inside).bind (left.bind (.pure a rest)))

end Bracket

end HotSwap.Json

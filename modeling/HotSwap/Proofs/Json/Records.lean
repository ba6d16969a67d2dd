import HotSwap.Json.Record
import HotSwap.Proofs.Json.Passing

/-!
# Which records are read

A record is read from an object whose members fill its fields, each at most once and whatever other
members there are, or from a list of its fields in order that may end before those that are
optional.
-/

namespace HotSwap.Json

namespace Record

open Form Spelling

variable {δ α : Type} {r : Record δ α} {reads : Field δ → Nat → δ → Form → δ → Prop}
  {field : Field δ} {fields : List (Field δ)} {fs : List Form} {d d' : δ} {n i : Nat}
  {s t rest : Bytes} {a : α}

/-- Each field is read from the forms that `reads` says. -/
def Reads (r : Record δ α) (reads : Field δ → Nat → δ → Form → δ → Prop) : Prop :=
  ∀ field ∈ r.fields, ∀ d, Reader.Accepts (field.read d) fun n => reads field n d

/-! ## Members -/

/-- What a value under a key makes of a draft: a known one fills its field, unless that is given
already, and others are of no account. -/
def Puts (r : Record δ α) (reads : Field δ → Nat → δ → Form → δ → Prop) (n : Nat) (d : δ)
    (key : String) (f : Form) (d' : δ) : Prop :=
  match r.fields.find? (·.key = key) with
  | none => d' = d
  | some field => field.given d = false ∧ reads field n d f d'

def Adds (r : Record δ α) (reads : Field δ → Nat → δ → Form → δ → Prop) (n : Nat) (d : δ)
    (m : List Glyph × Form) (d' : δ) : Prop :=
  ∃ key, Glyph.text? m.1 = some key ∧ r.Puts reads n d key m.2 d'

/-- A known member fills its field if that was not given before. -/
theorem reads_member {m : List Glyph × Form} {key : String} (text : Glyph.text? m.1 = some key)
    (known : r.fields.find? (·.key = key) = some field) (new : field.given d = false)
    (reads : (field.read d n).Reads m.2.Spells.Spaced d') :
    (r.member n d).Reads (memberSpells m) d' := by
  refine Scan.reads_member text ?_
  simp only [known, new, Bool.false_eq_true, if_false]
  exact reads.colon

theorem acceptsItem_member (accepts : r.Reads reads) (n : Nat) (d : δ) :
    Bracket.object.AcceptsItem (r.member n d) memberSpells (r.Adds reads n d) := by
  refine Scan.accepts_member (q := r.Puts reads n d) fun key => ?_
  unfold Puts
  cases found : r.fields.find? (·.key = key) with
  | none =>
    have passed : (Scan.pass >>= fun _ => pure d).Accepts Spells fun _ d' => d' = d :=
      (Scan.accepts_pass.map fun _ => d).congr fun _ _ => by simp
    exact passed.colon
  | some field =>
    simp only
    cases field.given d with
    | true => exact (Scan.AcceptsFrom.refused fun _ _ _ => Scan.not_yields_reject).congr (by simp)
    | false =>
      have known := accepts field (List.mem_of_find?_eq_some found) d n
      exact (Scan.AcceptsFrom.colon known).congr (by simp)

/-! ## Items -/

/-- What the items of a list make of a draft, if these fields are due. -/
inductive Fills (reads : Field δ → δ → Form → δ → Prop) :
    List (Field δ) → δ → List Form → δ → Prop
  | done {d : δ} : Fills reads [] d [] d
  | missing {field : Field δ} {fields : List (Field δ)} {d d' : δ} (optional : field.optional)
      (rest : Fills reads fields d [] d') : Fills reads (field :: fields) d [] d'
  | more {field : Field δ} {fields : List (Field δ)} {f : Form} {fs : List Form} {d d' d'' : δ}
      (first : reads field d f d') (rest : Fills reads fields d' fs d'') :
      Fills reads (field :: fields) d (f :: fs) d''

section

variable {reads' : Field δ → δ → Form → δ → Prop} {f : Form}

/-- A list may end where all fields that are left are optional. -/
theorem fills_nil_iff :
    Fills reads' fields d [] d' ↔ (∀ field ∈ fields, field.optional) ∧ d' = d := by
  induction fields with
  | nil =>
    constructor
    · rintro ⟨⟩
      exact ⟨nofun, rfl⟩
    · rintro ⟨-, rfl⟩
      exact .done
  | cons field fields inductionHypothesis =>
    constructor
    · rintro (_ | ⟨optional, rest⟩)
      obtain ⟨others, same⟩ := inductionHypothesis.mp rest
      exact ⟨List.forall_mem_cons.mpr ⟨optional, others⟩, same⟩
    · rintro ⟨optional, same⟩
      obtain ⟨here, others⟩ := List.forall_mem_cons.mp optional
      exact .missing here (inductionHypothesis.mpr ⟨others, same⟩)

theorem fills_cons_iff :
    Fills reads' (field :: fields) d (f :: fs) d' ↔
      ∃ d₁, reads' field d f d₁ ∧ Fills reads' fields d₁ fs d' := by
  constructor
  · rintro (_ | _ | ⟨first, rest⟩)
    exact ⟨_, first, rest⟩
  · rintro ⟨d₁, first, rest⟩
    exact .more first rest

theorem not_fills_cons : ¬ Fills reads' [] d (f :: fs) d' := nofun

end

/-- The closing bracket comes next. -/
def Closes (s : Bytes) : Prop := ∃ b rest, Blank b ∧ s = b ++ Bracket.list.close :: rest

theorem yields_next_closes (closes : Closes s) (first : Bool) :
    (Bracket.list.next first).Yields s false s :=
  Bracket.yields_next_iff.mpr (.inl ⟨rfl, Bracket.item?_none_iff.mpr closes, rfl⟩)

/-- Where the list ends, the fields that are left have to be optional. -/
theorem yields_items_closes_iff (closes : Closes s) :
    (r.items n i fields d).Yields s d' rest ↔
      Fills (fun field => reads field n) fields d [] d' ∧ rest = s := by
  induction fields generalizing i d with
  | nil =>
    rw [items, Scan.yields_pure_iff]
    refine and_congr_left fun _ => ⟨?_, ?_⟩
    · rintro rfl
      exact .done
    · rintro ⟨⟩
      rfl
  | cons field fields inductionHypothesis =>
    rw [items, (yields_next_closes closes _).bind_iff]
    simp only [Bool.false_eq_true, if_false]
    split
    · next optional =>
      rw [inductionHypothesis]
      refine and_congr_left fun _ => ⟨.missing optional, ?_⟩
      rintro (_ | ⟨_, rest⟩)
      exact rest
    · next needed =>
      refine iff_of_false Scan.not_yields_reject ?_
      rintro ⟨_ | ⟨optional, _⟩, -⟩
      exact needed optional

theorem items_sound (accepts : r.Reads reads) (known : ∀ field ∈ fields, field ∈ r.fields)
    (later : i ≠ 0) (yields : (r.items n i fields d).Yields s d' rest) :
    ∃ fs t, s = t ++ rest ∧ (∀ b, Blank b → Further (fs.map Spells) (t ++ b)) ∧
      Fills (fun field => reads field n) fields d fs d' := by
  induction fields generalizing i d s with
  | nil =>
    obtain ⟨rfl, rfl⟩ := Scan.yields_pure_iff.mp yields
    exact ⟨[], [], rfl, fun b blank => .done blank, .done⟩
  | cons field fields inductionHypothesis =>
    obtain ⟨here, others⟩ := List.forall_mem_cons.mp known
    rw [items, decide_eq_false later] at yields
    obtain ⟨found, mid, first, second⟩ := Scan.yields_bind_iff.mp yields
    obtain ⟨rfl, ends, rfl⟩ | ⟨rfl, found⟩ := Bracket.yields_next_iff.mp first
    · have closes := Bracket.item?_none_iff.mp ends
      rw [← decide_eq_false later, ← items, yields_items_closes_iff closes] at yields
      exact ⟨[], [], yields.2.symm, fun b blank => .done blank, yields.1⟩
    · obtain ⟨starts, b, b', blank, blank', rfl⟩ := Bracket.item?_further_iff.mp found
      obtain ⟨d₁, mid, read, goesOn⟩ := Scan.yields_bind_iff.mp second
      obtain ⟨f, t, rfl, spelled, fills⟩ :=
        (Bracket.acceptsItem (accepts field here d n) .list).sound starts read
      obtain ⟨fs, t', rfl, further, fills'⟩ :=
        inductionHypothesis others (Nat.succ_ne_zero i) goesOn
      refine ⟨f :: fs, b ++ 44 :: (b' ++ t ++ t'), by simp, fun c clear => ?_, .more fills fills'⟩
      rw [List.append_assoc, List.cons_append, List.append_assoc]
      exact .more blank ⟨b', t, blank', spelled, rfl⟩ (further c clear)

/-- The fields of a list that goes on are filled by its further items. -/
theorem items_reads (accepts : r.Reads reads) (known : ∀ field ∈ fields, field ∈ r.fields)
    (later : i ≠ 0) (fills : Fills (fun field => reads field n) fields d fs d')
    (further : Further (fs.map Spells) t) (rest : Bytes) :
    ∃ b, Blank b ∧ (r.items n i fields d).Yields (t ++ Bracket.list.close :: rest) d'
      (b ++ Bracket.list.close :: rest) := by
  induction fills generalizing i t with
  | done =>
    cases further with
    | done blank => exact ⟨t, blank, .pure _ _⟩
  | missing optional fills =>
    cases further with
    | done blank =>
      have ended := Fills.missing optional fills
      exact ⟨t, blank, (yields_items_closes_iff ⟨t, rest, blank, rfl⟩).mpr ⟨ended, rfl⟩⟩
  | @more field fields f fs d d₁ d₂ first fills inductionHypothesis =>
    obtain ⟨here, others⟩ := List.forall_mem_cons.mp known
    cases further with
    | @more _ _ b _ t' blank item further =>
      obtain ⟨b', t, blank', spelled, rfl⟩ := item
      obtain ⟨c, blank'', goesOn⟩ :=
        inductionHypothesis others (Nat.succ_ne_zero i) further
      have found : Bracket.list.item? false (b ++ 44 :: (b' ++ (t ++ (t' ++ 93 :: rest)))) =
          .ok (some (t ++ (t' ++ 93 :: rest))) :=
        Bracket.item?_further_iff.mpr ⟨spelled.starts.append _, b, b', blank, blank', rfl⟩
      have read := (accepts field here d n).reads first (spaced_self spelled)
        (Bracket.clear_further further .list rest)
      have some : (Bracket.list.next false).Yields _ true _ :=
        Bracket.yields_next_iff.mpr (.inr ⟨rfl, found⟩)
      refine ⟨c, blank'', ?_⟩
      rw [items, decide_eq_false later, List.append_assoc, List.cons_append, List.append_assoc,
        List.append_assoc]
      exact some.bind (read.bind goesOn)

/-- A list fills the fields in order. -/
theorem acceptsInside_items (accepts : r.Reads reads) (known : ∀ field ∈ fields, field ∈ r.fields)
    (n : Nat) (d : δ) :
    Bracket.list.AcceptsInside (r.items n 0 fields d) Spells
      (Fills (fun field => reads field n) fields d) where
  sound {s d' rest} yields := by
    cases fields with
    | nil =>
      obtain ⟨rfl, rfl⟩ := Scan.yields_pure_iff.mp yields
      exact ⟨[], [], rfl, fun b blank => .none blank, .done⟩
    | cons field fields =>
      obtain ⟨here, others⟩ := List.forall_mem_cons.mp known
      obtain ⟨found, mid, first, second⟩ := Scan.yields_bind_iff.mp yields
      obtain ⟨rfl, ends, rfl⟩ | ⟨rfl, found⟩ := Bracket.yields_next_iff.mp first
      · have closes := Bracket.item?_none_iff.mp ends
        rw [yields_items_closes_iff closes] at yields
        exact ⟨[], [], yields.2.symm, fun b blank => .none blank, yields.1⟩
      · obtain ⟨starts, b, blank, rfl⟩ := Bracket.item?_first_iff.mp found
        obtain ⟨d₁, mid, read, goesOn⟩ := Scan.yields_bind_iff.mp second
        obtain ⟨f, t, rfl, spelled, fills⟩ :=
          (Bracket.acceptsItem (accepts field here d n) .list).sound starts read
        obtain ⟨fs, t', rfl, further, fills'⟩ := items_sound accepts others Nat.one_ne_zero goesOn
        refine ⟨f :: fs, b ++ t ++ t', by simp, fun c clear => ?_, .more fills fills'⟩
        rw [List.append_assoc]
        exact .some ⟨b, t, blank, spelled, rfl⟩ (further c clear)
  reads {fs d'} fills := by
    intro t listed rest
    cases fills with
    | done =>
      cases listed with
      | none blank => exact ⟨t, blank, .pure _ _⟩
    | missing optional fills =>
      cases listed with
      | none blank =>
        have ended := Fills.missing optional fills
        exact ⟨t, blank, (yields_items_closes_iff ⟨t, rest, blank, rfl⟩).mpr ⟨ended, rfl⟩⟩
    | @more field fields f fs _ d₁ _ first fills =>
      obtain ⟨here, others⟩ := List.forall_mem_cons.mp known
      cases listed with
      | @some _ _ _ t' item further =>
        obtain ⟨b, t, blank, spelled, rfl⟩ := item
        obtain ⟨c, blank', goesOn⟩ :=
          items_reads accepts others Nat.one_ne_zero fills further rest
        have found : Bracket.list.item? true (b ++ (t ++ (t' ++ 93 :: rest))) =
            .ok (some (t ++ (t' ++ 93 :: rest))) :=
          Bracket.item?_first_iff.mpr ⟨spelled.starts.append _, b, blank, rfl⟩
        have read := (accepts field here d n).reads first (spaced_self spelled)
          (Bracket.clear_further further .list rest)
        have some : (Bracket.list.next true).Yields _ true _ :=
          Bracket.yields_next_iff.mpr (.inr ⟨rfl, found⟩)
        refine ⟨c, blank', ?_⟩
        rw [List.append_assoc, List.append_assoc]
        exact some.bind (read.bind goesOn)

theorem yields_finished_iff (r : Record δ α) (d : δ) (s : Bytes) (a : α) (rest : Bytes) :
    (r.finished d).Yields s a rest ↔ r.finish d = .ok a ∧ rest = s := by
  unfold finished
  split
  · next finished => simp [finished, eq_comm]
  · next missing => simp [missing]

/-- What fills the fields of a record. -/
inductive Spelled (r : Record δ α) (reads : Field δ → Nat → δ → Form → δ → Prop) (n : Nat) :
    Form → δ → Prop
  | object {ms : List (List Glyph × Form)} {d : δ}
      (chain : Bracket.Chain (r.Adds reads n) r.blank ms d) : Spelled r reads n (.object ms) d
  | list {fs : List Form} {d : δ}
      (fills : Fills (fun field => reads field n) r.fields r.blank fs d) :
      Spelled r reads n (.list fs) d

/-- An object is read if its members are, one after the other. -/
theorem reads_object {ms : List (List Glyph × Form)}
    (chain : Bracket.Chain (fun d m d' => (r.member n d).Reads (memberSpells m) d') r.blank ms d)
    (finished : r.finish d = .ok a) :
    (r.reader (n + 1)).Reads (Spaced (Form.object ms).Spells) a := by
  refine Scan.reads_look (fun _ => Spells.shown) fun c t rest spelled clear => ?_
  have folded := Bracket.fold_reads (fun _ _ _ reads => reads) (fun _ _ => starts_member) chain
  have inside := folded.bind fun s => (r.yields_finished_iff d s a s).mpr ⟨finished, rfl⟩
  rw [Spells, memberSpellings_eq] at spelled
  have read := inside.around spelled clear
  obtain ⟨_, -, same⟩ := spelled
  cases same
  exact read

theorem accepts_reader (accepts : r.Reads reads) :
    r.reader.Accepts fun n f a =>
      ∃ m d, n = m + 1 ∧ r.Spelled reads m f d ∧ r.finish d = .ok a := by
  have items (m : Nat) := (acceptsInside_items accepts (fun _ there => there) m r.blank).bind
    r.yields_finished_iff
  have members (m : Nat) := (Bracket.acceptsInside_fold (acceptsItem_member accepts m)
    (fun _ _ => starts_member) r.blank).bind r.yields_finished_iff
  intro n
  refine Scan.accepts_look (fun s a rest _ yields => ?_) fun f a stands => ?_
  · split at yields
    · next opening =>
      obtain ⟨s, rfl⟩ := List.head?_eq_some_iff.mp opening
      obtain ⟨m, fs, t, rfl, split, spelled, d, fills, finished⟩ :=
        Reader.around_sound items yields
      exact ⟨.list fs, t, split, by rwa [Spells, itemSpellings_eq], m, d, rfl, .list fills,
        finished⟩
    · next opening =>
      obtain ⟨s, rfl⟩ := List.head?_eq_some_iff.mp opening
      obtain ⟨m, ms, t, rfl, split, spelled, d, chain, finished⟩ :=
        Reader.around_sound members yields
      exact ⟨.object ms, t, split, by rwa [Spells, memberSpellings_eq], m, d, rfl, .object chain,
        finished⟩
    · exact absurd yields (Reader.not_yields_mismatch _)
  · obtain ⟨m, d, rfl, filled, finished⟩ := stands
    cases filled with
    | list fills =>
      refine Scan.reads_look (fun _ => Spells.shown) fun c t rest spelled clear => ?_
      rw [Spells, itemSpellings_eq] at spelled
      have read := ((items m).reads ⟨d, fills, finished⟩).around spelled clear
      obtain ⟨_, -, same⟩ := spelled
      cases same
      exact read
    | object chain =>
      exact reads_object (chain.imp fun _ _ _ => (acceptsItem_member accepts m _).reads) finished

end Record

end HotSwap.Json

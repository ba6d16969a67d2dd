import Mathlib.Data.List.Forall2
import HotSwap.Proofs.Json.Acceptance
import HotSwap.Proofs.Json.Literals
import HotSwap.Proofs.Json.Members
import HotSwap.Proofs.Json.Numerals

/-!
# Which values are read

A reader of values accepts the forms that stand for one, if they do not nest too deeply.
-/

namespace HotSwap.Json

variable {α β ι : Type} {s t rest : Bytes} {a : α} {c : UInt8} {f : Form} {n : Nat}
  {p : ι → Spelling} {k : Bracket}

namespace Form

/-! ## How forms begin -/

/-- A form may start so. -/
def Begins : Form → UInt8 → Prop
  | null, c => c = 110
  | bool true, c => c = 116
  | bool false, c => c = 102
  | number _, c => c = 45 ∨ Bytes.isDigit c
  | text _, c => c = 34
  | list _, c => c = 91
  | object _, c => c = 123

theorem Spells.begins (spells : f.Spells t) : ∃ c t', t = c :: t' ∧ f.Begins c := by
  match f, spells with
  | null, spelled | bool true, spelled | bool false, spelled | text gs, spelled =>
    rw [Spells] at spelled
    exact ⟨_, _, spelled, rfl⟩
  | number x, spelled =>
    rw [Spells] at spelled
    obtain ⟨c, t', split, begins⟩ := x.exists_bytes
    exact ⟨c, t', spelled.trans split, begins⟩
  | list items, spelled | object members, spelled =>
    rw [Spells] at spelled
    obtain ⟨t, -, rfl⟩ := spelled
    exact ⟨_, _, rfl, rfl⟩

theorem isBlank_of_begins (begins : f.Begins c) : Scan.isBlank c = false := by
  match f, begins with
  | null, rfl | bool true, rfl | bool false, rfl | text _, rfl | list _, rfl | object _, rfl => rfl
  | number _, .inl same => rw [same]; rfl
  | number _, .inr digit =>
    refine Bool.eq_false_iff.mpr fun blank => ?_
    simp only [Scan.isBlank, Bool.or_eq_true, beq_iff_eq] at blank
    rcases blank with ((rfl | rfl) | rfl) | rfl <;> cases digit

theorem Begins.ne_close (begins : f.Begins c) : c ≠ Bracket.list.close := by
  rintro rfl
  match f, begins with
  | bool true, same | bool false, same => cases same
  | number _, .inl same => cases same
  | number _, .inr digit => cases digit

theorem Begins.eq_null (begins : f.Begins 110) : f = .null := by
  match f, begins with
  | null, _ => rfl
  | bool true, same | bool false, same => cases same
  | number _, .inl same => cases same
  | number _, .inr digit => cases digit

theorem Spells.shown (spells : f.Spells t) : ∃ c t', t = c :: t' ∧ Scan.isBlank c = false := by
  obtain ⟨c, t', split, begins⟩ := spells.begins
  exact ⟨c, t', split, isBlank_of_begins begins⟩

theorem Spells.starts (spells : f.Spells t) : Bracket.list.Starts t := by
  obtain ⟨c, t', split, begins⟩ := spells.begins
  refine ⟨c, t', split, isBlank_of_begins begins, ?_⟩
  rw [Bracket.refusal?, if_neg begins.ne_close, if_neg fun both => Bracket.noConfusion both.1]

theorem itemSpellings_eq (items : List Form) : itemSpellings items = items.map Spells := by
  induction items with
  | nil => rfl
  | cons f rest inductionHypothesis => rw [itemSpellings, inductionHypothesis, List.map_cons]

/-- How a member may be spelled. -/
def memberSpells (m : List Glyph × Form) : Spelling := .member m.1 m.2.Spells

theorem memberSpellings_eq (members : List (List Glyph × Form)) :
    memberSpellings members = members.map memberSpells := by
  induction members with
  | nil => rfl
  | cons m rest inductionHypothesis =>
    rw [memberSpellings, inductionHypothesis, List.map_cons, memberSpells]

theorem starts_member {m : List Glyph × Form} (spelled : memberSpells m t) :
    Bracket.object.Starts t := by
  obtain ⟨t, -, rfl⟩ := spelled
  exact ⟨34, _, rfl, rfl, rfl⟩

end Form

/-! ## What stands for a value -/

namespace Form

variable {convert : Numeral → Option Number}

theorem value?_eq_null_iff : f.value? convert = some .null ↔ f = .null := by
  cases f <;> simp [value?]

theorem value?_eq_number_iff {m : Number} :
    f.value? convert = some (.number m) ↔ ∃ x, f = .number x ∧ convert x = some m := by
  cases f <;> simp [value?]

theorem value?_eq_text_iff {s : String} :
    f.value? convert = some (.text s) ↔ ∃ gs, f = .text gs ∧ Glyph.text? gs = some s := by
  cases f <;> simp [value?]

theorem value?_eq_list_iff {vs : List Json} :
    f.value? convert = some (.list vs) ↔ ∃ fs, f = .list fs ∧ items? convert fs = some vs := by
  cases f <;> simp [value?]

theorem value?_eq_object_iff {raw : Members} :
    f.value? convert = some (.object raw) ↔
      ∃ ms, f = .object ms ∧ members? convert ms = some raw := by
  cases f <;> simp [value?]

end Form

/-! ## Keys -/

theorem Scan.reads_member {y : String → Scan α} {m : List Glyph × Form} {key : String}
    (text : Glyph.text? m.1 = some key) (reads : (y key).Reads m.2.Spells.behind a) :
    (Scan.key >>= y).Reads (Form.memberSpells m) a := by
  rintro _ rest ⟨t, behind, rfl⟩ clear
  have first : Scan.key.Yields (Glyph.quoted m.1 ++ (t ++ rest)) key (t ++ rest) := by
    refine yields_key_iff.mpr ⟨m.1, ?_, text⟩
    simp [Glyph.quoted]
  rw [List.append_assoc]
  exact first.bind (reads behind clear)

/-- What stands behind a key is read by what the key says. -/
theorem Scan.accepts_member {y : String → Scan α} {q : String → Form → α → Prop}
    (accepts : ∀ key, AcceptsFrom (fun _ => True) (y key) (fun f => f.Spells.behind) (q key)) :
    Bracket.object.AcceptsItem (Scan.key >>= y) Form.memberSpells fun m a =>
      ∃ key, Glyph.text? m.1 = some key ∧ q key m.2 a where
  sound := by
    rintro s a rest ⟨c, s, rfl, -, accepted⟩ yields
    have quote : c = 34 := by
      unfold Bracket.refusal? at accepted
      split at accepted
      · cases accepted
      · split at accepted
        · cases accepted
        · next other => simpa using other
    subst quote
    obtain ⟨key, mid, first, second⟩ := yields_bind_iff.mp yields
    obtain ⟨gs, split, text⟩ := yields_key_iff.mp first
    obtain ⟨f, t, rfl, behind, stands⟩ := (accepts key).sound trivial second
    rw [List.drop_succ_cons, List.drop_zero] at split
    refine ⟨(gs, f), Glyph.quoted gs ++ t, ?_, ⟨t, behind, rfl⟩, key, text, stands⟩
    rw [split, Glyph.quoted]
    simp only [List.cons_append, List.append_assoc, List.nil_append]
  reads := by
    rintro m a ⟨key, text, stands⟩
    exact reads_member text ((accepts key).reads stands)

/-! ## Containers -/

namespace Bracket

open Form

theorem chain_push_iff {r : ι → α → Prop} {is : List ι} {read read' : List α} :
    Chain (fun read i read' => ∃ a, r i a ∧ read' = a :: read) read is read' ↔
      ∃ as, List.Forall₂ r is as ∧ read' = as.reverse ++ read := by
  induction is generalizing read with
  | nil =>
    constructor
    · rintro ⟨⟩
      exact ⟨[], .nil, rfl⟩
    · rintro ⟨_, ⟨⟩, rfl⟩
      exact .done
  | cons i is inductionHypothesis =>
    constructor
    · rintro (_ | ⟨⟨a, stands, rfl⟩, rest⟩)
      obtain ⟨as, others, rfl⟩ := inductionHypothesis.mp rest
      exact ⟨a :: as, .cons stands others, by simp⟩
    · rintro ⟨_, (_ | ⟨stands, others⟩), rfl⟩
      exact .more ⟨_, stands, rfl⟩ (inductionHypothesis.mpr ⟨_, others, by simp⟩)

/-- A list is read item by item. -/
theorem reads_list {x : Scan α} {fs : List Form} {as : List α}
    (reads : List.Forall₂ (fun f a => x.Reads f.Spells.Spaced a) fs as) (g : List α → β) :
    Bracket.list.ReadsInside
      (Bracket.list.fold (fun read => x >>= fun a => pure (a :: read)) [] >>= fun read =>
        pure (g read.reverse)) (fs.map Spells) (g as) := by
  have chain : Chain (fun read f read' => ∃ a, x.Reads f.Spells.Spaced a ∧ read' = a :: read) [] fs
      (as.reverse ++ []) := chain_push_iff.mpr ⟨as, reads, rfl⟩
  refine (fold_reads (fun st f st' => ?_) (fun _ _ => Spells.starts) chain).bind fun s => ?_
  · rintro ⟨a, reads, rfl⟩ t rest spelled clear
    exact (reads (Spelling.spaced_self spelled) clear).bind (.pure _ rest)
  · rw [List.append_nil, List.reverse_reverse]
    exact .pure _ s

theorem acceptsInside_list {x : Scan α} {r : Form → α → Prop} (accepts : x.Accepts Spells r)
    (g : List α → β) :
    Bracket.list.AcceptsInside
      (Bracket.list.fold (fun read => x >>= fun a => pure (a :: read)) [] >>= fun read =>
        pure (g read.reverse))
      Spells fun fs b => ∃ as, List.Forall₂ r fs as ∧ b = g as := by
  have step (read : List α) : Bracket.list.AcceptsItem (x >>= fun a => pure (a :: read)) Spells
      fun f read' => ∃ a, r f a ∧ read' = a :: read := acceptsItem (accepts.map (· :: read)) _
  have folded := (acceptsInside_fold step (fun _ _ => Spells.starts) []).bind
    fun read s b rest => Scan.yields_pure_iff (a := g read.reverse)
  refine ⟨fun yields => ?_, ?_⟩
  · obtain ⟨fs, t, split, listed, _, chain, rfl⟩ := folded.sound yields
    obtain ⟨as, stand, rfl⟩ := chain_push_iff.mp chain
    exact ⟨fs, t, split, listed, as, stand, by rw [List.append_nil, List.reverse_reverse]⟩
  · rintro fs _ ⟨as, stand, rfl⟩
    exact reads_list (stand.imp fun _ _ => accepts.reads) g

end Bracket

namespace Reader

variable {inside : Reader α} {r : Nat → List ι → α → Prop}

theorem around_sound (accepts : ∀ m, k.AcceptsInside (inside m) p (r m))
    (yields : (around k inside n).Yields (k.opening :: s) a rest) :
    ∃ m is t, n = m + 1 ∧ k.opening :: s = t ++ rest ∧ Spelling.enclosed k (is.map p) t ∧
      r m is a := by
  cases n with
  | zero => exact absurd yields Scan.not_yields_failNext
  | succ m =>
    obtain ⟨is, t, split, spelled, stands⟩ := (accepts m).yields_around yields
    exact ⟨m, is, t, rfl, split, spelled, stands⟩

end Reader

/-! ## Values -/

namespace Form

/-- The form stands for the value, and no more than `n` containers stand within each other. Of the
members with one key the last one counts. -/
def Stands (n : Nat) (f : Form) (v : Json) : Prop :=
  f.depth ≤ n ∧ ∃ w, f.value? Numeral.number? = some w ∧ v = w.sorted

theorem stands_items_iff {items : List Form} {vs : List Json} :
    List.Forall₂ (Stands n) items vs ↔
      itemsDepth items ≤ n ∧ ∃ ws, items? Numeral.number? items = some ws ∧
        vs = Json.sortedItems ws := by
  induction items generalizing vs with
  | nil => simp [itemsDepth, items?, Json.sortedItems]
  | cons f rest inductionHypothesis =>
    constructor
    · rintro (_ | ⟨⟨shallow, w, known, rfl⟩, others⟩)
      obtain ⟨shallow', ws, known', rfl⟩ := inductionHypothesis.mp others
      refine ⟨Nat.max_le.mpr ⟨shallow, shallow'⟩, w :: ws, ?_, rfl⟩
      simp [items?, known, known']
    · rintro ⟨shallow, ws, known, rfl⟩
      simp only [items?, Option.bind_eq_bind, Option.bind_eq_some_iff, Option.pure_def,
        Option.some.injEq] at known
      obtain ⟨w, known, ws, known', rfl⟩ := known
      obtain ⟨shallow, shallow'⟩ := Nat.max_le.mp shallow
      exact .cons ⟨shallow, w, known, rfl⟩ (inductionHypothesis.mpr ⟨shallow', ws, known', rfl⟩)

theorem stands_list_iff {items : List Form} {v : Json} :
    (list items).Stands (n + 1) v ↔ ∃ vs, List.Forall₂ (Stands n) items vs ∧ v = .list vs := by
  constructor
  · rintro ⟨shallow, w, known, rfl⟩
    obtain ⟨ws, known', rfl⟩ := Option.map_eq_some_iff.mp known
    refine ⟨_, stands_items_iff.mpr ⟨Nat.le_of_succ_le_succ shallow, ws, known', rfl⟩, ?_⟩
    rw [Json.sorted]
  · rintro ⟨vs, stand, rfl⟩
    obtain ⟨shallow, ws, known, rfl⟩ := stands_items_iff.mp stand
    refine ⟨Nat.succ_le_succ shallow, .list ws, ?_, by rw [Json.sorted]⟩
    rw [value?, known, Option.map_some]

/-- What members make of those already read. -/
def StandsMember (n : Nat) (read : Members) (m : List Glyph × Form) (read' : Members) : Prop :=
  ∃ key, Glyph.text? m.1 = some key ∧ ∃ v, m.2.Stands n v ∧ read' = putMember key v read

theorem chain_members_iff {members : List (List Glyph × Form)} {read read' : Members} :
    Bracket.Chain (StandsMember n) read members read' ↔
      membersDepth members ≤ n ∧ ∃ raw, members? Numeral.number? members = some raw ∧
        read' = Json.putAll read raw := by
  induction members generalizing read with
  | nil =>
    constructor
    · rintro ⟨⟩
      exact ⟨Nat.zero_le n, [], rfl, rfl⟩
    · rintro ⟨-, raw, known, rfl⟩
      cases known
      exact .done
  | cons m rest inductionHypothesis =>
    constructor
    · rintro (_ | ⟨⟨key, text, v, ⟨shallow, w, known, rfl⟩, rfl⟩, others⟩)
      obtain ⟨shallow', raw, known', rfl⟩ := inductionHypothesis.mp others
      refine ⟨Nat.max_le.mpr ⟨shallow, shallow'⟩, (key, w) :: raw, ?_, rfl⟩
      simp [members?, text, known, known']
    · rintro ⟨shallow, raw, known, rfl⟩
      simp only [members?, Option.bind_eq_bind, Option.bind_eq_some_iff, Option.pure_def,
        Option.some.injEq] at known
      obtain ⟨key, text, w, known, raw, known', rfl⟩ := known
      obtain ⟨shallow, shallow'⟩ := Nat.max_le.mp shallow
      exact .more ⟨key, text, _, ⟨shallow, w, known, rfl⟩, rfl⟩
        (inductionHypothesis.mpr ⟨shallow', raw, known', rfl⟩)

/-- What an object stands for. -/
def StandsMembers (n : Nat) (members : List (List Glyph × Form)) (read : Members) : Prop :=
  membersDepth members ≤ n ∧ ∃ raw, members? Numeral.number? members = some raw ∧
    read = Json.sortedMembers raw

theorem stands_object_iff {members : List (List Glyph × Form)} {v : Json} :
    (object members).Stands (n + 1) v ↔
      ∃ read, StandsMembers n members read ∧ v = .object read := by
  constructor
  · rintro ⟨shallow, w, known, rfl⟩
    obtain ⟨raw, known', rfl⟩ := Option.map_eq_some_iff.mp known
    refine ⟨_, ⟨Nat.le_of_succ_le_succ shallow, raw, known', rfl⟩, ?_⟩
    rw [Json.sorted]
  · rintro ⟨_, ⟨shallow, raw, known, rfl⟩, rfl⟩
    refine ⟨Nat.succ_le_succ shallow, .object raw, ?_, by rw [Json.sorted]⟩
    rw [value?, known, Option.map_some]

end Form

open Form

theorem Scan.acceptsInside_members {x : Scan Json} (accepts : x.Accepts Spells (Stands n)) :
    Bracket.object.AcceptsInside (Scan.members x) memberSpells (StandsMembers n) := by
  have step (read : Members) :
      Bracket.object.AcceptsItem (Scan.member x read) memberSpells (StandsMember n read) :=
    accepts_member fun key => (accepts.map fun v => putMember key v read).colon
  refine (Bracket.acceptsInside_fold step (fun _ _ => starts_member) []).congr fun ms read => ?_
  rw [chain_members_iff, StandsMembers]
  simp only [Json.putAll_nil]

namespace Scan

theorem yields_drop_word_iff {w : Bytes} {v : α} :
    (drop >>= fun _ => word w >>= fun _ => pure v : Scan α).Yields (c :: s) a rest ↔
      s = w ++ rest ∧ a = v := by
  rw [yields_drop_bind_iff, yields_bind_iff]
  constructor
  · rintro ⟨_, mid, first, second⟩
    obtain ⟨rfl, rfl⟩ := yields_pure_iff.mp second
    exact ⟨yields_word_iff.mp first, rfl⟩
  · rintro ⟨split, rfl⟩
    exact ⟨(), rest, yields_word_iff.mpr split, .pure _ rest⟩

/-- A text behind its quote. -/
theorem yields_drop_text_iff {g : String → α} :
    (drop >>= fun _ => text >>= fun t => pure (g t) : Scan α).Yields (c :: s) a rest ↔
      ∃ gs t, s = Glyph.spell gs ++ 34 :: rest ∧ Glyph.text? gs = some t ∧ a = g t := by
  rw [yields_drop_bind_iff, yields_bind_iff]
  constructor
  · rintro ⟨t, mid, first, second⟩
    obtain ⟨rfl, rfl⟩ := yields_pure_iff.mp second
    obtain ⟨gs, split, text⟩ := yields_text_iff.mp first
    exact ⟨gs, t, split, text, rfl⟩
  · rintro ⟨gs, t, split, text, rfl⟩
    exact ⟨t, rest, yields_text_iff.mpr ⟨gs, split, text⟩, .pure _ rest⟩

theorem ends_of_clear (clear : Clear rest) (x : Numeral) : x.Ends rest :=
  ⟨fun b first => (clear b first).1, fun _ =>
    ⟨fun first => (clear _ first).2.2.1 rfl, fun first => (clear _ first).2.2.2 rfl,
      fun _ first => (clear _ first).2.1 rfl⟩⟩

theorem reads_number {x : Numeral} {m : Number} (spelled : (Form.number x).Spells (c :: t))
    (known : x.number? = some m) (clear : Clear rest) :
    (c = 45 ∨ Bytes.isDigit c) ∧ number.Yields (c :: (t ++ rest)) m rest := by
  obtain ⟨c', t', split, begins⟩ := spelled.begins
  cases split
  rw [Spells] at spelled
  exact ⟨begins, yields_number_iff.mpr ⟨x, by rw [← spelled]; rfl, ends_of_clear clear x, known⟩⟩

variable {inner : Option (Scan Json)} {v : Json}

/-- What a value is read with is limited by what its items are read with. -/
def Opens (n : Nat) (inner : Option (Scan Json)) : Prop :=
  inner = none ∧ n = 0 ∨
    ∃ x m, inner = some x ∧ n = m + 1 ∧ x.Accepts Spells (Stands m)

theorem Opens.inside (opens : Opens n inner) {g : Scan Json → Scan Json} {v : Json}
    (yields : (k.around (inner.map g)).Yields s v rest) :
    ∃ x m, inner = some x ∧ n = m + 1 ∧ x.Accepts Spells (Stands m) := by
  rcases opens with ⟨rfl, -⟩ | opens
  · exact absurd yields not_yields_failNext
  · exact opens

theorem Opens.of_pos (opens : Opens n inner) (pos : 0 < n) :
    ∃ x m, inner = some x ∧ n = m + 1 ∧ x.Accepts Spells (Stands m) := by
  rcases opens with ⟨-, rfl⟩ | opens
  · exact absurd pos (Nat.lt_irrefl 0)
  · exact opens

theorem acceptsInside_items {x : Scan Json} (accepts : x.Accepts Spells (Stands n)) :
    Bracket.list.AcceptsInside (items x) Spells fun fs v =>
      ∃ vs, List.Forall₂ (Stands n) fs vs ∧ v = .list vs :=
  Bracket.acceptsInside_list accepts Json.list

theorem acceptsInside_object {x : Scan Json} (accepts : x.Accepts Spells (Stands n)) :
    Bracket.object.AcceptsInside (members x >>= fun read => pure (Json.object read)) memberSpells
      fun ms v => ∃ read, StandsMembers n ms read ∧ v = Json.object read :=
  (acceptsInside_members accepts).bind fun _ _ _ _ => yields_pure_iff

/-- What a value is taken from is spelled by a form that stands for it. -/
theorem valueOver_sound (opens : Opens n inner) (shown : isBlank c = false)
    (yields : (valueOver inner).Yields (c :: s) v rest) :
    ∃ f t, c :: s = t ++ rest ∧ Spells f t ∧ f.Stands n v := by
  rw [valueOver, yields_look_bind_iff, skipBlank_of_shown shown] at yields
  simp only [List.head?_cons] at yields
  split at yields
  · next same =>
    subst same
    obtain ⟨rfl, rfl⟩ := yields_drop_word_iff.mp yields
    exact ⟨.null, [110, 117, 108, 108], rfl, by rw [Spells], Nat.zero_le n, .null, rfl, rfl⟩
  split at yields
  · next same =>
    subst same
    obtain ⟨rfl, rfl⟩ := yields_drop_word_iff.mp yields
    exact ⟨.bool true, [116, 114, 117, 101], rfl, by rw [Spells], Nat.zero_le n, .bool true,
      rfl, rfl⟩
  split at yields
  · next same =>
    subst same
    obtain ⟨rfl, rfl⟩ := yields_drop_word_iff.mp yields
    exact ⟨.bool false, [102, 97, 108, 115, 101], rfl, by rw [Spells], Nat.zero_le n,
      .bool false, rfl, rfl⟩
  split at yields
  · obtain ⟨m, mid, first, second⟩ := yields_bind_iff.mp yields
    obtain ⟨rfl, rfl⟩ := yields_pure_iff.mp second
    obtain ⟨x, split, -, known⟩ := yields_number_iff.mp first
    refine ⟨.number x, x.bytes, split, by rw [Spells], Nat.zero_le n, .number m, ?_, rfl⟩
    rw [value?, known, Option.map_some]
  split at yields
  · next same =>
    subst same
    obtain ⟨gs, text, rfl, known, rfl⟩ := yields_drop_text_iff.mp yields
    refine ⟨.text gs, Glyph.quoted gs, ?_, by rw [Spells], Nat.zero_le n, .text text, ?_, rfl⟩
    · simp [Glyph.quoted]
    · rw [value?, known, Option.map_some]
  split at yields
  · next same =>
    subst same
    obtain ⟨x, m, rfl, rfl, accepts⟩ := opens.inside yields
    obtain ⟨fs, t, split, spelled, stands⟩ :=
      (acceptsInside_items accepts).yields_around yields
    exact ⟨.list fs, t, split, by rwa [Spells, itemSpellings_eq], stands_list_iff.mpr stands⟩
  split at yields
  · next same =>
    subst same
    obtain ⟨x, m, rfl, rfl, accepts⟩ := opens.inside yields
    obtain ⟨ms, t, split, spelled, stands⟩ :=
      (acceptsInside_object accepts).yields_around yields
    exact ⟨.object ms, t, split, by rwa [Spells, memberSpellings_eq],
      stands_object_iff.mpr stands⟩
  · exact absurd yields not_yields_failNext

theorem valueOver_reads (opens : Opens n inner) (stands : f.Stands n v) :
    (valueOver inner).Reads f.Spells.Spaced v := by
  refine reads_look (fun _ => Spells.shown) fun c t rest spelled clear => ?_
  cases f with
  | null =>
    cases spelled
    obtain ⟨-, w, known, rfl⟩ := stands
    cases known
    exact yields_drop_word_iff.mpr ⟨rfl, rfl⟩
  | bool b =>
    obtain ⟨-, w, known, rfl⟩ := stands
    cases known
    cases b <;> cases spelled <;> exact yields_drop_word_iff.mpr ⟨rfl, rfl⟩
  | number x =>
    obtain ⟨-, w, known, rfl⟩ := stands
    obtain ⟨m, known', rfl⟩ := Option.map_eq_some_iff.mp known
    obtain ⟨begins, read⟩ := reads_number spelled known' clear
    obtain ⟨other, other', other''⟩ : c ≠ 110 ∧ c ≠ 116 ∧ c ≠ 102 := by
      refine ⟨?_, ?_, ?_⟩ <;> rintro rfl <;> exact absurd begins (by decide)
    simp only [if_neg other, if_neg other', if_neg other'', if_pos begins]
    exact read.bind (.pure _ rest)
  | text gs =>
    obtain ⟨-, w, known, rfl⟩ := stands
    obtain ⟨text, known', rfl⟩ := Option.map_eq_some_iff.mp known
    cases spelled
    exact yields_drop_text_iff.mpr ⟨gs, text, by simp, known', rfl⟩
  | list fs =>
    have pos := Nat.lt_of_lt_of_le (Nat.succ_pos _) stands.1
    obtain ⟨x, m, rfl, rfl, accepts⟩ := opens.of_pos pos
    rw [Spells, itemSpellings_eq] at spelled
    have read := ((acceptsInside_items accepts).reads (stands_list_iff.mp stands)).around spelled
      clear
    obtain ⟨_, -, same⟩ := spelled
    cases same
    exact read
  | object ms =>
    have pos := Nat.lt_of_lt_of_le (Nat.succ_pos _) stands.1
    obtain ⟨x, m, rfl, rfl, accepts⟩ := opens.of_pos pos
    rw [Spells, memberSpellings_eq] at spelled
    have read := ((acceptsInside_object accepts).reads (stands_object_iff.mp stands)).around
      spelled clear
    obtain ⟨_, -, same⟩ := spelled
    cases same
    exact read

theorem accepts_valueOver (opens : Opens n inner) :
    (valueOver inner).Accepts Spells (Stands n) := by
  refine accepts_look (fun s v rest shown yields => ?_) fun f v => valueOver_reads opens
  cases s with
  | nil => exact absurd yields not_yields_failNext
  | cons c s =>
    apply valueOver_sound opens (shown c rfl)
    rw [valueOver, yields_look_bind_iff, skipBlank_of_shown (shown c rfl)]
    exact yields

end Scan

/-! ## Readers -/

namespace Reader

open Scan Spelling

/-- What a reader that may open `n` containers makes of a form. -/
abbrev Accepts (x : Reader α) (r : Nat → Form → α → Prop) : Prop :=
  ∀ n, (x n).Accepts Spells (r n)

theorem accepts_value : value.Accepts Stands := by
  intro n
  induction n with
  | zero => exact accepts_valueOver (.inl ⟨rfl, rfl⟩)
  | succ n inductionHypothesis =>
    exact accepts_valueOver (.inr ⟨_, n, rfl, rfl, inductionHypothesis⟩)

/-- Nothing is taken where something else is due. -/
theorem not_yields_mismatch (expected : String) :
    ¬ (mismatch expected : Scan α).Yields s a rest := by
  rw [mismatch, yields_look_bind_iff]
  cases skipBlank s with
  | nil => exact not_yields_failNext
  | cons c s =>
    intro yields
    simp only [List.head?_cons] at yields
    repeat' split at yields
    all_goals
      simp only [yields_bind_iff, not_yields_fail, not_yields_failNext, and_false,
        exists_false] at yields

/-- Only a text is read as a text. -/
def IsText (f : Form) (t : String) : Prop := ∃ gs, f = .text gs ∧ Glyph.text? gs = some t

theorem accepts_text (expected : String) : (text expected).Accepts Spells IsText := by
  refine accepts_look (fun s a rest _ yields => ?_) fun f a stands =>
    reads_look (fun _ => Spells.shown) fun c t rest spelled clear => ?_
  · split at yields
    · next quote =>
      obtain ⟨s, rfl⟩ := List.head?_eq_some_iff.mp quote
      obtain ⟨gs, split, text⟩ := yields_key_iff.mp yields
      rw [List.drop_succ_cons, List.drop_zero] at split
      refine ⟨.text gs, Glyph.quoted gs, ?_, by rw [Spells], gs, rfl, text⟩
      rw [split, Glyph.quoted]
      simp
    · exact absurd yields (not_yields_mismatch expected)
  · obtain ⟨gs, rfl, text⟩ := stands
    cases spelled
    exact yields_key_iff.mpr ⟨gs, by simp, text⟩

/-- Only a whole number below the bound is read. -/
def IsNat (bound : Nat) (f : Form) (n : Nat) : Prop :=
  ∃ x, f = .number x ∧ x.number? = some (.int n) ∧ n < bound

theorem accepts_natBelow (bound : Nat) (name : String) :
    (natBelow bound name).Accepts Spells (IsNat bound) := by
  refine accepts_look (fun s a rest _ yields => ?_) fun f a stands =>
    reads_look (fun _ => Spells.shown) fun c t rest spelled clear => ?_
  · split at yields
    · split at yields
      · obtain ⟨m, mid, first, second⟩ := yields_bind_iff.mp yields
        obtain ⟨x, split, -, known⟩ := yields_number_iff.mp first
        split at second
        · next i =>
          split at second
          · next fits =>
            obtain ⟨rfl, rfl⟩ := yields_pure_iff.mp second
            refine ⟨.number x, x.bytes, split, by rw [Spells], x, rfl, ?_, by omega⟩
            rw [known, Int.toNat_of_nonneg fits.1]
          · exact absurd second not_yields_fail
        · exact absurd second not_yields_fail
      · exact absurd yields (not_yields_mismatch name)
    · exact absurd yields (not_yields_mismatch name)
  · obtain ⟨x, rfl, known, fits⟩ := stands
    obtain ⟨begins, read⟩ := reads_number spelled known clear
    simp only [if_pos begins]
    refine read.bind ?_
    simp only [Int.natCast_nonneg, Int.ofNat_lt, fits, and_self, if_true, Int.toNat_natCast]
    exact .pure a rest

variable {x : Reader α} {r : Nat → Form → α → Prop}

/-- What is there is read as what is optional, and `null` as nothing. -/
def IsOption (r : Form → α → Prop) (f : Form) (a : Option α) : Prop :=
  f = .null ∧ a = none ∨ f ≠ .null ∧ ∃ b, r f b ∧ a = some b

theorem reads_option_none : (option x n).Reads (Spaced Form.null.Spells) none :=
  reads_look (fun _ => Spells.shown) fun c t rest spelled _ => by
    cases spelled
    exact yields_drop_word_iff.mpr ⟨rfl, rfl⟩

theorem reads_option_some (other : f ≠ .null) (reads : (x n).Reads f.Spells.Spaced a) :
    (option x n).Reads f.Spells.Spaced (some a) :=
  reads_look (fun _ => Spells.shown) fun c t rest spelled clear => by
    split
    · next same =>
      cases same
      obtain ⟨c', t', split, begins⟩ := spelled.begins
      cases split
      exact absurd begins.eq_null other
    · exact (reads (Spelling.spaced_self spelled) clear).bind (.pure _ rest)

theorem accepts_option (accepts : x.Accepts r) :
    (option x).Accepts fun n => IsOption (r n) := by
  intro n
  refine accepts_look (fun s a rest shown yields => ?_) fun f a stands => ?_
  · by_cases null : s.head? = some 110
    · obtain ⟨s, rfl⟩ := List.head?_eq_some_iff.mp null
      obtain ⟨rfl, rfl⟩ := yields_drop_word_iff.mp yields
      exact ⟨.null, [110, 117, 108, 108], rfl, by rw [Spells], .inl ⟨rfl, rfl⟩⟩
    · split at yields
      · next same => exact absurd same null
      · obtain ⟨b, mid, first, second⟩ := yields_bind_iff.mp yields
        obtain ⟨rfl, rfl⟩ := yields_pure_iff.mp second
        obtain ⟨f, t, rfl, spelled, stands⟩ := Scan.Accepts.sound_shown (accepts n) shown first
        refine ⟨f, t, rfl, spelled, .inr ⟨?_, b, stands, rfl⟩⟩
        rintro rfl
        rw [Spells] at spelled
        exact null (by rw [spelled]; rfl)
  · rcases stands with ⟨rfl, rfl⟩ | ⟨other, b, stands, rfl⟩
    · exact reads_option_none
    · exact reads_option_some other ((accepts n).reads stands)

theorem reads_list {fs : List Form} {as : List α}
    (reads : List.Forall₂ (fun f a => (x n).Reads f.Spells.Spaced a) fs as) :
    (list x (n + 1)).Reads (Spaced (Form.list fs).Spells) as := by
  refine reads_look (fun _ => Spells.shown) fun c t rest spelled clear => ?_
  rw [Spells, itemSpellings_eq] at spelled
  have read := (Bracket.reads_list reads id).around spelled clear
  obtain ⟨_, -, same⟩ := spelled
  cases same
  exact read

def IsMembers (n : Nat) (f : Form) (read : Members) : Prop :=
  ∃ m ms, n = m + 1 ∧ f = .object ms ∧ StandsMembers m ms read

theorem accepts_members : members.Accepts IsMembers := by
  have inside (m : Nat) := acceptsInside_members (accepts_value m)
  intro n
  refine accepts_look (fun s a rest _ yields => ?_) fun f a stands =>
    reads_look (fun _ => Spells.shown) fun c t rest spelled clear => ?_
  · split at yields
    · next opening =>
      obtain ⟨s, rfl⟩ := List.head?_eq_some_iff.mp opening
      obtain ⟨m, ms, t, rfl, split, spelled, stand⟩ := around_sound inside yields
      exact ⟨.object ms, t, split, by rwa [Spells, memberSpellings_eq], m, ms, rfl, rfl, stand⟩
    · exact absurd yields (not_yields_mismatch _)
  · obtain ⟨m, ms, rfl, rfl, stand⟩ := stands
    rw [Spells, memberSpellings_eq] at spelled
    have read := ((inside m).reads stand).around spelled clear
    obtain ⟨_, -, same⟩ := spelled
    cases same
    exact read

theorem value_eq_ok_iff {ε : Type} {y : Scan α} {g : Fault → ε} :
    (match y s with
      | .error e => .error (g e)
      | .ok t => .ok t.value : Except ε α) = .ok a ↔ ∃ rest, y.Yields s a rest := by
  constructor
  · intro read
    split at read
    · cases read
    · next t taken =>
      cases read
      exact ⟨t.rest, t.le, taken⟩
  · rintro ⟨rest, le, taken⟩
    rw [taken]

/-- An input is read if nothing but blanks is left. -/
theorem read_eq_ok_iff_yields :
    x.read s = .ok a ↔ ∃ mid, (x depthLimit).Yields s a mid ∧ Blank mid := by
  refine Iff.trans value_eq_ok_iff ⟨?_, ?_⟩
  · rintro ⟨rest, yields⟩
    obtain ⟨a', mid, first, second⟩ := yields_bind_iff.mp yields
    rw [yields_look_bind_iff] at second
    cases left : skipBlank mid with
    | nil =>
      rw [left] at second
      obtain ⟨rfl, rfl⟩ := yields_pure_iff.mp second
      exact ⟨mid, first, skipBlank_eq_nil_iff.mp left⟩
    | cons c later =>
      rw [left] at second
      exact absurd second not_yields_failNext
  · rintro ⟨mid, yields, blank⟩
    refine ⟨[], yields.bind (yields_look_bind_iff.mpr ?_)⟩
    rw [skipBlank_eq_nil_iff.mpr blank]
    exact .pure a []

/-- A whole input is read if a form that stands for something is spelled there among blanks. -/
theorem read_eq_ok_iff (accepts : x.Accepts r) :
    x.read s = .ok a ↔
      ∃ f t b, s = t ++ b ∧ f.Spells.Spaced t ∧ Blank b ∧ r depthLimit f a := by
  rw [read_eq_ok_iff_yields]
  constructor
  · rintro ⟨b, yields, blank⟩
    obtain ⟨f, t, split, spelled, stands⟩ := (accepts depthLimit).sound trivial yields
    exact ⟨f, t, b, split, spelled, blank, stands⟩
  · rintro ⟨f, t, b, rfl, spelled, blank, stands⟩
    have clear := blank.clear clear_nil
    rw [List.append_nil] at clear
    exact ⟨b, (accepts depthLimit).reads stands spelled clear, blank⟩

end Reader

end HotSwap.Json

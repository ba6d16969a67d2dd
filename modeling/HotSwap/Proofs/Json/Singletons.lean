import HotSwap.Proofs.Json.Values
import HotSwap.Proofs.Json.Written
import Mathlib.Data.List.Induction

/-!
# Objects with one member

An object whose only member is a number is read exactly if its numeral stands for a number: there is
no other way to take it apart.
-/

namespace HotSwap.Json

open Spelling

variable {b s t rest : Bytes} {c : UInt8} {f : Form} {gs : List Glyph} {key : String} {x : Numeral}
  {v : Json} {m : Number}

/-- There are no blanks before what is none. -/
theorem Blank.eq_nil (blank : Blank b) (shown : Scan.isBlank c = false)
    (split : c :: s = b ++ t) : b = [] ∧ t = c :: s := by
  cases b with
  | nil => exact ⟨rfl, split.symm⟩
  | cons d b =>
    have here := blank d List.mem_cons_self
    rw [List.cons_append, List.cons.injEq] at split
    rw [← split.1, shown] at here
    cases here

theorem Blank.eq_nil_of_last (blank : Blank b) (shown : Scan.isBlank c = false)
    (split : s ++ [c] = t ++ b) : b = [] ∧ t = s ++ [c] := by
  induction b using List.reverseRecOn with
  | nil => exact ⟨rfl, (List.append_nil t).symm.trans split.symm⟩
  | append_singleton b d =>
    have here := blank d (List.mem_append_right _ List.mem_cons_self)
    rw [← List.append_assoc] at split
    cases (List.append_inj' split rfl).2
    rw [shown] at here
    cases here

namespace Form

theorem exists_members (spells : f.Spells (123 :: s)) : ∃ ms, f = .object ms := by
  obtain ⟨c, t, split, begins⟩ := spells.begins
  cases split
  match f, begins with
  | object ms, _ => exact ⟨ms, rfl⟩
  | bool true, same | bool false, same => cases same
  | number _, .inl same => cases same
  | number _, .inr digit => cases digit

/-- What begins like a number is one. -/
theorem exists_bytes (spells : f.Spells (c :: s)) (first : c = 45 ∨ Bytes.isDigit c) :
    ∃ y : Numeral, f = .number y ∧ c :: s = y.bytes := by
  obtain ⟨d, t, split, begins⟩ := spells.begins
  cases split
  match f, begins with
  | number y, _ =>
    rw [Spells] at spells
    exact ⟨y, rfl, spells⟩
  | null, same | bool true, same | bool false, same | text _, same | list _, same
  | object _, same =>
    cases same
    rcases first with minus | digit
    · cases minus
    · cases digit

end Form

theorem Glyph.quoted_append (gs : List Glyph) (s : Bytes) :
    quoted gs ++ s = 34 :: (spell gs ++ 34 :: s) := by
  simp [quoted]

/-- What stands behind a text between quotes is found in one way. -/
theorem eq_of_quoted {gs' : List Glyph} {key' : String} (text : Glyph.text? gs = some key)
    (text' : Glyph.text? gs' = some key')
    (split : Glyph.quoted gs ++ s = Glyph.quoted gs' ++ t) : key' = key ∧ t = s := by
  rw [Glyph.quoted_append, Glyph.quoted_append, List.cons.injEq] at split
  have reads : Scan.text.Yields (Glyph.spell gs ++ 34 :: s) key s :=
    Scan.yields_text_iff.mpr ⟨gs, rfl, text⟩
  have reads' : Scan.text.Yields (Glyph.spell gs ++ 34 :: s) key' t :=
    Scan.yields_text_iff.mpr ⟨gs', split.2, text'⟩
  exact reads.unique reads'

/-- What stands behind a numeral is found in one way, if no numeral can go on there. -/
theorem eq_of_numeral {y : Numeral} (known : y.number? = some m) (clear : Clear s)
    (clear' : Clear t) (split : x.bytes ++ s = y.bytes ++ t) : x.number? = some m ∧ t = s := by
  have reads : Scan.number.Yields (y.bytes ++ t) m t :=
    (Scan.yields_number_bytes_iff y (Scan.ends_of_clear clear' y)).mpr ⟨known, rfl⟩
  rw [← split] at reads
  exact (Scan.yields_number_bytes_iff x (Scan.ends_of_clear clear x)).mp reads

/-- An object whose only member is a number. -/
def singleton (gs : List Glyph) (x : Numeral) : Bytes :=
  123 :: (Glyph.quoted gs ++ 58 :: (x.bytes ++ [125]))

theorem singleton_eq (gs : List Glyph) (x : Numeral) :
    singleton gs x = (123 :: (Glyph.quoted gs ++ 58 :: x.bytes)) ++ [125] := by
  rw [singleton, List.cons_append, List.append_assoc, List.cons_append]

/-- A further item stands behind a comma. -/
theorem Spelling.Further.ne_nil {p : Spelling} {ps : List Spelling}
    (further : Further (p :: ps) s) : s ≠ [] := by
  cases further with
  | more blank item rest => simp

/-- The first member of a list that starts with a key and a number. -/
theorem member_of_singleton {gs' : List Glyph} {key' : String} {w : Json} {t' : Bytes}
    (text : Glyph.text? gs = some key) (text' : Glyph.text? gs' = some key')
    (item : (Spelling.member gs' f.Spells).Spaced s) (known : f.value? Numeral.number? = some w)
    (clear : Clear t') (split : Glyph.quoted gs ++ 58 :: (x.bytes ++ [125]) = s ++ t') :
    ∃ m, x.number? = some m ∧ key' = key ∧ w = .number m ∧ t' = [125] := by
  obtain ⟨b, _, blank, ⟨_, ⟨b', _, blank', ⟨b'', t, blank'', spelled, rfl⟩, rfl⟩, rfl⟩, rfl⟩ := item
  -- no blanks stand before the key, the colon and the number
  rw [List.append_assoc, List.append_assoc, Glyph.quoted_append gs] at split
  obtain ⟨rfl, named⟩ := blank.eq_nil (by decide) split
  rw [← Glyph.quoted_append gs] at named
  obtain ⟨rfl, behind⟩ := eq_of_quoted text text' named.symm
  rw [List.append_assoc, List.cons_append] at behind
  obtain ⟨rfl, valued⟩ := blank'.eq_nil (by decide) behind.symm
  obtain ⟨c, digits, bytes, first⟩ := x.exists_bytes
  rw [List.cons.injEq, List.append_assoc, bytes, List.cons_append] at valued
  obtain ⟨rfl, numbered⟩ :=
    blank''.eq_nil (Form.isBlank_of_begins (f := .number x) first) valued.2.symm
  obtain ⟨d, t, rfl, -⟩ := spelled.begins
  rw [List.cons_append, List.cons.injEq] at numbered
  obtain ⟨y, rfl, spells⟩ := Form.exists_bytes spelled (numbered.1 ▸ first)
  obtain ⟨n, number, rfl⟩ := Option.map_eq_some_iff.mp known
  have whole : x.bytes ++ [125] = y.bytes ++ t' := by
    rw [← spells, bytes, List.cons_append, List.cons_append, numbered.1, numbered.2]
  have brace : Clear [125] := by
    rintro _ ⟨⟩
    decide
  obtain ⟨number, rest⟩ := eq_of_numeral number brace clear whole
  exact ⟨n, number, rfl, rfl, rest⟩

/-- Only a number behind the key is a member, and nothing comes after it. -/
theorem members_of_singleton {ms : List (List Glyph × Form)} {raw : Members}
    (text : Glyph.text? gs = some key)
    (listed : Listed (Form.memberSpellings ms) (Glyph.quoted gs ++ 58 :: x.bytes))
    (known : Form.members? Numeral.number? ms = some raw) :
    ∃ m, x.number? = some m ∧ raw = [(key, .number m)] := by
  generalize inside : Glyph.quoted gs ++ 58 :: x.bytes = t at listed
  cases ms with
  | nil =>
    cases listed with
    | none blank =>
      rw [← inside] at blank
      exact absurd (blank 34 List.mem_cons_self) (by decide)
  | cons first ms =>
    have named := Form.members?_eq_some_iff.mp known
    cases named with
    | cons here others =>
      cases listed with
      | some item rest =>
        have split := congrArg (· ++ [125]) inside
        simp only [List.append_assoc, List.cons_append] at split
        obtain ⟨m, number, same, value, last⟩ := member_of_singleton text here.1 item here.2
          (Bracket.clear_further rest .object []) split
        obtain rfl := List.append_left_eq_self.mp last
        cases ms with
        | nil =>
          cases others
          exact ⟨m, number, congrArg (· :: []) (Prod.ext same value)⟩
        | cons next ms => exact absurd rfl rest.ne_nil

theorem singleton_sound (text : Glyph.text? gs = some key)
    (spells : f.Spells (singleton gs x)) (known : f.value? Numeral.number? = some v) :
    ∃ m, x.number? = some m ∧ v = .object [(key, .number m)] := by
  obtain ⟨ms, rfl⟩ := Form.exists_members spells
  obtain ⟨raw, members, rfl⟩ := Option.map_eq_some_iff.mp known
  rw [Form.Spells] at spells
  obtain ⟨t, listed, split⟩ := spells
  rw [singleton_eq] at split
  obtain rfl : Glyph.quoted gs ++ 58 :: x.bytes = t :=
    List.tail_eq_of_cons_eq (List.append_inj' split rfl).1
  obtain ⟨m, number, rfl⟩ := members_of_singleton text listed members
  exact ⟨m, number, rfl⟩

theorem read_singleton_iff (text : Glyph.text? gs = some key) :
    read (singleton gs x) = .ok v ↔ ∃ m, x.number? = some m ∧ v = .object [(key, .number m)] := by
  rw [read, Reader.read_eq_ok_iff Reader.accepts_value]
  constructor
  · rintro ⟨f, _, b, split, ⟨b', t, blank', spells, rfl⟩, blank, shallow, w, known, rfl⟩
    -- the braces leave no room for blanks around them
    rw [List.append_assoc] at split
    obtain ⟨rfl, inside⟩ := blank'.eq_nil (by decide) split
    rw [← singleton, singleton_eq] at inside
    obtain ⟨rfl, rfl⟩ := blank.eq_nil_of_last (by decide) inside.symm
    rw [← singleton_eq] at spells
    obtain ⟨m, number, rfl⟩ := singleton_sound text spells known
    exact ⟨m, number, rfl⟩
  · rintro ⟨m, number, rfl⟩
    have member : Spelling.member gs (Form.number x).Spells (Glyph.quoted gs ++ 58 :: x.bytes) :=
      Spelling.member_self (by rw [Form.Spells])
    have spells : (Form.object [(gs, .number x)]).Spells (singleton gs x) := by
      rw [Form.Spells]
      refine ⟨_, Spelling.listed_one member, ?_⟩
      rw [List.append_assoc]
      rfl
    have shallow : 1 ≤ Reader.depthLimit := by decide
    have known : Form.members? Numeral.number? [(gs, .number x)] = some [(key, .number m)] :=
      Form.members?_eq_some_iff.mpr (.cons ⟨text, congrArg (Option.map Json.number) number⟩ .nil)
    exact ⟨.object [(gs, .number x)], singleton gs x, [], (List.append_nil _).symm,
      Spelling.spaced_self spells, blank_nil, shallow, .object [(key, .number m)],
      congrArg (Option.map Json.object) known, rfl⟩

end HotSwap.Json

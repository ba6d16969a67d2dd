import HotSwap.Settings.Basic

/-!
# Lists of paths

A list of paths is split at its colons, and what is empty is dropped. What is left are the longest
stretches without colons, in their order, and it makes no difference how many colons stand between
two of them or around them all.
-/

namespace HotSwap.Settings

/-- The parts of a list of paths that are not empty. -/
def paths (text : List Char) : List (List Char) := (segments text).filter (· ≠ [])

variable {text e p t before after : List Char} {start : Nat}

theorem segments_eq_splitOn (text : List Char) : segments text = text.splitOn ':' := by
  induction text with
  | nil => rfl
  | cons c rest inductionHypothesis =>
    rw [segments, List.splitOn_cons_eq_if_modifyHead, inductionHypothesis]
    by_cases colon : c = ':'
    · rw [if_pos colon, if_pos (beq_iff_eq.mpr colon)]
    · rw [if_neg colon, if_neg fun same => colon (beq_iff_eq.mp same)]
      cases split : rest.splitOn ':' with
      | nil => exact absurd split (List.splitOn_ne_nil _ _)
      | cons => rfl

/-- The two sides of a colon are split each for itself. -/
theorem paths_append_colon (p t : List Char) : paths (p ++ ':' :: t) = paths p ++ paths t := by
  simp only [paths, segments_eq_splitOn, List.splitOn_append_cons_self, List.filter_append]

theorem paths_colon (t : List Char) : paths (':' :: t) = paths t := paths_append_colon [] t

theorem paths_of_free (nonempty : e ≠ []) (free : ':' ∉ e) : paths e = [e] := by
  rw [paths, segments_eq_splitOn, List.splitOn_eq_singleton free]
  simp [nonempty]

theorem paths_intercalate (parts : List (List Char)) :
    paths ([':'].intercalate parts) = parts.flatMap paths := by
  induction parts with
  | nil => rfl
  | cons first rest inductionHypothesis =>
    cases rest with
    | nil => simp
    | cons second rest =>
      rw [List.intercalate_cons_cons, List.append_assoc, List.singleton_append,
        paths_append_colon, inductionHypothesis]
      rfl

/-! ## Surplus colons -/

/-- The text can be put into a list of paths. -/
structure IsEntry (entry : String) : Prop where
  nonempty : entry ≠ ""
  free : ':' ∉ entry.toList

def surplus (n : Nat) : String := String.ofList (List.replicate n ':')

/-- Entries joined by colons, with `front` more colons before them all, and behind each as many more
as go with it. -/
def padded (front : Nat) (parts : List (String × Nat)) : String :=
  surplus front ++ ":".intercalate (parts.map fun part => part.1 ++ surplus part.2)

theorem paths_surplus_append (n : Nat) (t : List Char) :
    paths (List.replicate n ':' ++ t) = paths t := by
  induction n with
  | zero => rfl
  | succ n inductionHypothesis =>
    rw [List.replicate_succ, List.cons_append, paths_colon, inductionHypothesis]

theorem paths_append_surplus (p : List Char) (n : Nat) :
    paths (p ++ List.replicate n ':') = paths p := by
  cases n with
  | zero => rw [List.replicate_zero, List.append_nil]
  | succ n =>
    have rest : paths (List.replicate n ':') = [] := by
      have none := paths_surplus_append n []
      rwa [List.append_nil] at none
    rw [List.replicate_succ, paths_append_colon, rest, List.append_nil]

theorem paths_entry {entry : String} (h : IsEntry entry) (n : Nat) :
    paths (entry ++ surplus n).toList = [entry.toList] := by
  have nonempty : entry.toList ≠ [] := fun empty => h.nonempty (String.toList_eq_nil_iff.mp empty)
  rw [String.toList_append, surplus, String.toList_ofList, paths_append_surplus,
    paths_of_free nonempty h.free]

theorem paths_padded (front : Nat) {parts : List (String × Nat)}
    (entries : ∀ part ∈ parts, IsEntry part.1) :
    paths (padded front parts).toList = parts.map fun part => part.1.toList := by
  have joined : (":".intercalate (parts.map fun part => part.1 ++ surplus part.2)).toList =
      [':'].intercalate (parts.map fun part => (part.1 ++ surplus part.2).toList) := by
    rw [String.toList_intercalate, List.map_map]
    rfl
  have alone : parts.map (fun part => paths (part.1 ++ surplus part.2).toList) =
      parts.map fun part => [part.1.toList] :=
    List.map_congr_left fun part there => paths_entry (entries part there) part.2
  rw [padded, String.toList_append, joined, surplus, String.toList_ofList, paths_surplus_append,
    paths_intercalate, List.flatMap_map, List.flatMap_def, alone, ← List.flatMap_def,
    ← List.map_eq_flatMap]

theorem splitPaths_padded (front : Nat) {parts : List (String × Nat)}
    (entries : ∀ part ∈ parts, IsEntry part.1) :
    splitPaths (padded front parts) = parts.map Prod.fst := by
  change (paths (padded front parts).toList).map String.ofList = _
  rw [paths_padded front entries]
  simp

/-- Entries without surplus colons. -/
theorem padded_zero (entries : List String) :
    padded 0 (entries.map fun entry => (entry, 0)) = ":".intercalate entries := by
  simp [padded, surplus, Function.comp_def]

/-! ## Stretches without colons -/

/-- What has no colon cannot go on further back. -/
def Opens (before : List Char) : Prop := ∀ c ∈ before.getLast?, c = ':'

/-- What has no colon cannot go on further. -/
def Closes (after : List Char) : Prop := ∀ c ∈ after.head?, c = ':'

/-- What stands from `start` on is something without a colon, and as long as can be. -/
inductive Stretch (text : List Char) (start : Nat) (e : List Char) : Prop
  | intro {before after : List Char} (split : text = before ++ e ++ after)
      (starts : start = before.length) (nonempty : e ≠ []) (free : ':' ∉ e)
      (opens : Opens before) (closes : Closes after)

theorem opens_iff : Opens p ↔ Closes p.reverse := by
  rw [Opens, Closes, List.head?_reverse]

theorem closes_nil : Closes [] := nofun

theorem opens_nil : Opens [] := nofun

theorem Closes.eq_nil (closes : Closes t) (free : ':' ∉ t) : t = [] := by
  cases t with
  | nil => rfl
  | cons c rest =>
    obtain rfl : c = ':' := closes c rfl
    exact absurd List.mem_cons_self free

theorem Opens.eq_nil (opens : Opens p) (free : ':' ∉ p) : p = [] := by
  have free' : ':' ∉ p.reverse := fun there => free (List.mem_reverse.mp there)
  exact List.reverse_eq_nil_iff.mp ((opens_iff.mp opens).eq_nil free')

theorem closes_append_colon : Closes (p ++ ':' :: t) ↔ Closes p := by
  cases p with
  | nil => simp [Closes]
  | cons => rfl

theorem opens_append_colon : Opens (p ++ ':' :: t) ↔ Opens t := by
  rw [opens_iff, opens_iff, List.reverse_append, List.reverse_cons, List.append_assoc]
  exact closes_append_colon

theorem Stretch.lt_length (stretch : Stretch text start e) : start < text.length := by
  obtain ⟨rfl, rfl, nonempty, -, -, -⟩ := stretch
  have long := List.length_pos_iff.mpr nonempty
  simp only [List.length_append]
  omega

/-- Where there is no colon, all that there is is one stretch. -/
theorem stretch_of_free (free : ':' ∉ text) :
    Stretch text start e ↔ text ≠ [] ∧ start = 0 ∧ e = text := by
  constructor
  · rintro ⟨rfl, rfl, nonempty, -, opens, closes⟩
    simp only [List.mem_append, not_or] at free
    obtain rfl := opens.eq_nil free.1.1
    obtain rfl := closes.eq_nil free.2
    simpa using nonempty
  · rintro ⟨nonempty, rfl, rfl⟩
    exact ⟨(List.append_nil _).symm, rfl, nonempty, free, opens_nil, closes_nil⟩

/-- A colon is before or after what has none. -/
theorem split_of_free (free : ':' ∉ e) (split : p ++ ':' :: t = before ++ e ++ after) :
    (∃ m, before = p ++ ':' :: m ∧ t = m ++ e ++ after) ∨
      ∃ m, after = m ++ ':' :: t ∧ p = before ++ e ++ m := by
  rcases List.append_eq_append_iff.mp split with ⟨m, first, last⟩ | ⟨m, first, last⟩
  · cases m with
    | nil => exact .inr ⟨[], last.symm, by simpa using first.symm⟩
    | cons c m =>
      obtain ⟨rfl, rfl⟩ := List.cons.inj last
      -- the colon is somewhere in `before ++ e`, and not in `e`
      rcases List.append_eq_append_iff.mp first with ⟨n, -, rfl⟩ | ⟨n, rfl, rest⟩
      · simp at free
      · cases n with
        | nil =>
          obtain rfl : ':' :: m = e := rest
          simp at free
        | cons c n =>
          obtain ⟨rfl, rfl⟩ := List.cons.inj rest
          exact .inl ⟨n, rfl, rfl⟩
  · exact .inr ⟨m, last, first⟩

/-- A stretch is on one side of a colon. -/
theorem stretch_append_colon :
    Stretch (p ++ ':' :: t) start e ↔
      Stretch p start e ∨ ∃ i, start = i + (p.length + 1) ∧ Stretch t i e := by
  constructor
  · rintro ⟨split, rfl, nonempty, free, opens, closes⟩
    rcases split_of_free free split with ⟨m, rfl, rfl⟩ | ⟨m, rfl, rfl⟩
    · have opens' : Opens m := opens_append_colon.mp opens
      refine .inr ⟨m.length, ?_, rfl, rfl, nonempty, free, opens', closes⟩
      simp only [List.length_append, List.length_cons]
      omega
    · exact .inl ⟨rfl, rfl, nonempty, free, opens, closes_append_colon.mp closes⟩
  · rintro (⟨rfl, rfl, nonempty, free, opens, closes⟩ |
      ⟨_, rfl, ⟨rfl, rfl, nonempty, free, opens, closes⟩⟩)
    · exact ⟨List.append_assoc _ _ _, rfl, nonempty, free, opens, closes_append_colon.mpr closes⟩
    · refine ⟨?_, ?_, nonempty, free, (opens_append_colon (p := p)).mpr opens, closes⟩
      · simp only [List.append_assoc, List.cons_append]
      · simp only [List.length_append, List.length_cons]
        omega

/-- What is so of texts without colons, and of two with a colon between them if it is of both, is so
of all. -/
theorem colon_induction {P : List Char → Prop} (free : ∀ e, ':' ∉ e → P e)
    (joined : ∀ p t, P p → P t → P (p ++ ':' :: t)) (text : List Char) : P text := by
  by_cases there : ':' ∈ text
  · obtain ⟨p, t, rfl⟩ := List.append_of_mem there
    exact joined p t (colon_induction free joined p) (colon_induction free joined t)
  · exact free text there
termination_by text.length

/-- The list is that of all stretches, each with where it starts, in their order. -/
structure Stretches (text : List Char) (entries : List (List Char))
    (spans : List (Nat × List Char)) : Prop where
  entries : spans.map Prod.snd = entries
  ordered : spans.Pairwise fun s s' => s.1 < s'.1
  all : ∀ s, s ∈ spans ↔ Stretch text s.1 s.2

/-- What is split off are the stretches. -/
theorem stretches_paths (text : List Char) : ∃ spans, Stretches text (paths text) spans := by
  induction text using colon_induction with
  | free e free =>
    by_cases empty : e = []
    · refine ⟨[], ?_, .nil, fun s => ?_⟩
      · rw [empty]
        rfl
      · exact ⟨nofun, fun stretch => absurd empty ((stretch_of_free free).mp stretch).1⟩
    · refine ⟨[(0, e)], ?_, List.pairwise_singleton _ _, fun s => ?_⟩
      · rw [paths_of_free empty free]
        rfl
      · simp [stretch_of_free free, empty, Prod.ext_iff]
  | joined p t first second =>
    obtain ⟨spans, first⟩ := first
    obtain ⟨spans', second⟩ := second
    -- what is behind the colon starts as much later as there is before it, the colon included
    refine ⟨spans ++ spans'.map fun s => (s.1 + (p.length + 1), s.2), ?_, ?_, fun s => ?_⟩
    · rw [paths_append_colon, ← first.entries, ← second.entries]
      simp
    · refine List.pairwise_append.mpr ⟨first.ordered, ?_, fun s there s' there' => ?_⟩
      · exact List.pairwise_map.mpr (second.ordered.imp fun lt => Nat.add_lt_add_right lt _)
      · obtain ⟨r, -, rfl⟩ := List.mem_map.mp there'
        have before := ((first.all s).mp there).lt_length
        change s.1 < r.1 + (p.length + 1)
        omega
    · rw [stretch_append_colon, List.mem_append, first.all, List.mem_map]
      refine or_congr_right ⟨?_, ?_⟩
      · rintro ⟨r, there, rfl⟩
        exact ⟨r.1, rfl, (second.all r).mp there⟩
      · rintro ⟨i, starts, stretch⟩
        exact ⟨(i, s.2), (second.all (i, s.2)).mpr stretch, by rw [← starts]⟩

theorem isEntry_of_mem {text entry : String} (there : entry ∈ splitPaths text) : IsEntry entry := by
  obtain ⟨e, split, rfl⟩ := List.mem_map.mp there
  obtain ⟨spans, stretches⟩ := stretches_paths text.toList
  change e ∈ paths text.toList at split
  rw [← stretches.entries] at split
  obtain ⟨s, known, rfl⟩ := List.mem_map.mp split
  obtain ⟨-, -, nonempty, free, -, -⟩ := (stretches.all s).mp known
  refine ⟨fun empty => nonempty (String.ofList_eq_empty_iff.mp empty), ?_⟩
  rwa [String.toList_ofList]

/-- Joined again, what was split off is split in the same way. -/
theorem splitPaths_again (text : String) :
    splitPaths (":".intercalate (splitPaths text)) = splitPaths text := by
  have entries : ∀ part ∈ (splitPaths text).map fun entry => (entry, 0), IsEntry part.1 := by
    simp only [List.forall_mem_map]
    exact fun entry there => isEntry_of_mem there
  rw [← padded_zero, splitPaths_padded 0 entries, List.map_map]
  exact List.map_id _

/-- The paths that a setting lists. -/
structure Lists (classpath : Option String) (entries : List String) : Prop where
  /-- However many more colons there are, what was joined is what is listed. -/
  joined (front : Nat) (parts : List (String × Nat)) (plain : ∀ part ∈ parts, IsEntry part.1)
    (spelled : classpath = some (padded front parts)) : entries = parts.map Prod.fst
  stretches (text : String) (given : classpath = some text) :
    ∃ spans, Stretches text.toList (entries.map String.toList) spans
  again : splitPaths (":".intercalate entries) = entries
  unset (none : classpath = none) : entries = []

theorem lists_classpathEntries (settings : Settings) :
    Lists settings.classpath settings.classpathEntries := by
  unfold classpathEntries
  cases settings.classpath with
  | none => exact ⟨nofun, nofun, rfl, fun _ => rfl⟩
  | some text =>
    refine ⟨?_, ?_, splitPaths_again text, nofun⟩
    · rintro front parts plain ⟨⟩
      exact splitPaths_padded front plain
    · rintro _ ⟨⟩
      obtain ⟨spans, stretches⟩ := stretches_paths text.toList
      have same : (splitPaths text).map String.toList = paths text.toList := by
        change ((paths text.toList).map String.ofList).map String.toList = _
        simp
      exact ⟨spans, same ▸ stretches⟩

end HotSwap.Settings

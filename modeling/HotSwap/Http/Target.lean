/-!
# Targets

A request is aimed at a path, alone or behind a scheme and an authority. A target that has other
characters than its parts may have is refused.
-/

namespace HotSwap.Http.Target

/-- The most bytes of a target. -/
def longest : Nat := 65534

/-- The most characters of a scheme. -/
def longestScheme : Nat := 64

def isSchemeChar (c : Char) : Bool := c.isAlphanum || c ∈ ['+', '-', '.']

/-- What is behind a scheme, in whatever case it is written. -/
def afterScheme? (s : List Char) : Option (List Char) :=
  match s.dropWhile isSchemeChar with
  | ':' :: '/' :: '/' :: rest => some rest
  | _ => none

/-- What ends an authority. -/
def isMark (c : Char) : Bool := c ∈ ['/', '?', '#']

def isAuthorityChar (c : Char) : Bool :=
  c.isAlphanum ||
    c ∈ ['!', '$', '&', '\'', '(', ')', '*', '+', ',', '-', '.', ';', '=', '_', '~']

/-- What was read of an authority; colons and percent signs in the name of a user or between
brackets are forgotten. -/
structure Reading where
  colons : Nat
  opened : Bool
  closed : Bool
  percent : Bool

namespace Reading

def start : Reading := ⟨0, false, false, false⟩

/-- The most colons in a row of parts. -/
def mostColons : Nat := 8

def next? (r : Reading) (c : Char) : Option Reading :=
  match c with
  | ':' => if r.colons < mostColons then some { r with colons := r.colons + 1 } else none
  | '[' => if r.percent ∨ r.opened then none else some { r with opened := true }
  | ']' => if r.opened ∧ ¬ r.closed then some ⟨0, true, true, false⟩ else none
  | '@' => some { r with colons := 0, percent := false }
  | '%' => some { r with percent := true }
  | c => if isAuthorityChar c then some r else none

/-- At most a port is behind the host, and brackets are in pairs. -/
def Complete (r : Reading) : Prop := r.opened = r.closed ∧ r.colons ≤ 1 ∧ r.percent = false

instance (r : Reading) : Decidable r.Complete := inferInstanceAs (Decidable (_ ∧ _ ∧ _))

end Reading

/-- A host is named, with or without a user before it and a port behind it. -/
def IsAuthority (s : List Char) : Prop :=
  s ≠ [] ∧ s.getLast? ≠ some '@' ∧ ∃ r ∈ s.foldlM Reading.next? .start, r.Complete

instance (s : List Char) : Decidable (IsAuthority s) :=
  inferInstanceAs (Decidable (_ ∧ _ ∧ _))

/-- Characters that are seen and need not be encoded, apart from some marks. -/
def isPlain (others : List Char) (c : Char) : Bool := '!' ≤ c && c ≤ '~' && c ∉ others

def isPathChar : Char → Bool := isPlain ['#', '<', '>', '?', '`']

def isQueryChar : Char → Bool := isPlain ['"', '#', '<', '>']

/-- The path before a query; what is behind a hash is not looked at. -/
def pathOf? (s : List Char) : Option (List Char) :=
  let seen := s.takeWhile (· ≠ '#')
  let path := seen.takeWhile (· ≠ '?')
  let query := (seen.dropWhile (· ≠ '?')).drop 1
  if path.all isPathChar ∧ query.all isQueryChar then
    some (if path = [] then ['/'] else path)
  else none

/-- The path behind a scheme and an authority. -/
def absolute? (s : List Char) : Option (List Char) :=
  (afterScheme? s).bind fun rest =>
    if (s.takeWhile isSchemeChar).length ≤ longestScheme ∧
        IsAuthority (rest.takeWhile (!isMark ·)) then
      pathOf? (rest.dropWhile (!isMark ·))
    else none

/-- The path of a target that names one. -/
def path? (target : String) : Option (List Char) :=
  let s := target.toList
  if longest < target.utf8ByteSize then none
  else if s = ['*'] then some s
  else if s.head? = some '/' then pathOf? s
  else absolute? s

end HotSwap.Http.Target

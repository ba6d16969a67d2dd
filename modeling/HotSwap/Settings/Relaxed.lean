import HotSwap.Settings.Yaml

/-!
# Relaxed notations

Texts that are written by hand: two notations with values between brackets, where the last comma may
stay and keys may go without quotes, and lines of keys and values under section names.
-/

namespace HotSwap.Relaxed

/-- One notation has records between parentheses, and takes any name for a value. The other has more
kinds of blanks, quotes and escapes, and its whole numbers are bounded. -/
inductive Dialect where
  | ron
  | json5

namespace Dialect

/-! ## Blanks and comments -/

def blanks : Dialect → List Char
  | ron => [' ', '\t', '\n', '\r']
  | json5 => [' ', '\t', '\n', '\r', '\x0b', '\x0c', '\u00a0', '\u1680', '\u2000', '\u2001',
    '\u2002', '\u2003', '\u2004', '\u2005', '\u2006', '\u2007', '\u2008', '\u2009', '\u200a',
    '\u2028', '\u2029', '\u202f', '\u205f', '\u3000', '\ufeff']

/-- What ends a line, and a comment on it. -/
def breaks : Dialect → List Char
  | ron => ['\n']
  | json5 => ['\n', '\r', '\u2028', '\u2029']

/-- Whether comments may stand in comments. -/
def nests : Dialect → Bool
  | ron => true
  | json5 => false

/-- What follows a comment that is in `level` others; `before` is the last character. -/
def afterComment? (d : Dialect) : Nat → Char → List Char → Option (List Char)
  | _, _, [] => none
  | level, before, c :: s =>
    if before = '*' ∧ c = '/' then
      match level with
      | 0 => some s
      | level + 1 => d.afterComment? level ' ' s
    else if d.nests ∧ before = '/' ∧ c = '*' then d.afterComment? (level + 1) ' ' s
    else d.afterComment? level c s

/-- Goes on behind blanks and comments. -/
def skip (d : Dialect) : Nat → List Char → List Char
  | 0, s => s
  | length + 1, s =>
    match s.dropWhile (· ∈ d.blanks) with
    | '/' :: '/' :: rest => d.skip length (rest.dropWhile (· ∉ d.breaks))
    | '/' :: '*' :: rest =>
      match d.afterComment? 0 ' ' rest with
      | some rest => d.skip length rest
      | none => '/' :: '*' :: rest
    | s => s

/-! ## Texts -/

/-- A code of so many hexadecimal digits. -/
def coded? (width : Nat) (s : List Char) : Option (Nat × List Char) :=
  if s.length < width then none else (Bytes.hexText? (s.take width)).map (·, s.drop width)

def ofCode? (n : Nat) : Option Char := if n.isValidChar then some (Char.ofNat n) else none

/-- A character in one or two units of sixteen bits, behind the mark of the first. -/
def units? (s : List Char) : Option (Char × List Char) :=
  (coded? 4 s).bind fun (lead, rest) =>
    match ofCode? lead, rest with
    | some c, _ => some (c, rest)
    | none, '\\' :: 'u' :: more =>
      (coded? 4 more).bind fun (trail, rest) =>
        if lead < 0xDC00 ∧ 0xDC00 ≤ trail ∧ trail < 0xE000 then
          (ofCode? (0x10000 + (lead - 0xD800) * 0x400 + (trail - 0xDC00))).map (·, rest)
        else none
    | none, _ => none

/-- A character of at most six digits between braces. -/
def braced? : List Char → Option (Char × List Char)
  | '\x7b' :: s =>
    let digits := s.takeWhile (Written.isIn 16)
    match s.drop digits.length with
    | '\x7d' :: rest =>
      if digits = [] ∨ 6 < digits.length then none
      else (ofCode? (Written.natIn 16 digits)).map (·, rest)
    | _ => none
  | _ => none

def letters : List (Char × Char) := [('n', '\n'), ('r', '\r'), ('t', '\t')]

/-- What an escape stands for, behind its backslash. -/
def escape? : Dialect → List Char → Option (List Char × List Char)
  | _, [] => none
  | _, 'x' :: s => (coded? 2 s).map fun t => ([Char.ofNat t.1], t.2)
  | ron, 'u' :: s => (braced? s).map fun t => ([t.1], t.2)
  | ron, c :: s =>
    let marks := [('"', '"'), ('\'', '\''), ('\\', '\\')]
    ((letters ++ marks).lookup c).map fun e => ([e], s)
  | json5, 'u' :: s => (units? s).map fun t => ([t.1], t.2)
  | json5, c :: s =>
    let others := [('0', '\x00'), ('b', '\x08'), ('f', '\x0c'), ('v', '\x0b')]
    match (letters ++ others).lookup c with
    | some e => some ([e], s)
    | none =>
      if c.isDigit then none
      else if c = '\r' ∧ s.head? = some '\n' then some ([], s.drop 1)
      else some (if c ∈ json5.breaks then [] else [c], s)

/-- Characters that do not stand in a text without a backslash. -/
def unquoted : Dialect → List Char
  | ron => []
  | json5 => json5.breaks

/-- A text behind its quote. -/
def quoted? (d : Dialect) (quote : Char) : Nat → List Char → Option (List Char × List Char)
  | 0, _ => none
  | _, [] => none
  | length + 1, c :: s =>
    if c = quote then some ([], s)
    else if c = '\\' then
      (d.escape? s).bind fun (read, rest) =>
        (d.quoted? quote length rest).map fun t => (read ++ t.1, t.2)
    else if c ∈ d.unquoted then none
    else (d.quoted? quote length s).map fun t => (c :: t.1, t.2)

/-- What is before the first of some closing marks, and what behind them. -/
def upTo? (close : List Char) : List Char → Option (List Char × List Char)
  | [] => none
  | c :: s =>
    if close.isPrefixOf (c :: s) then some ([], (c :: s).drop close.length)
    else (upTo? close s).map fun t => (c :: t.1, t.2)

/-- A text without escapes, behind the letter that says so. -/
def raw? (s : List Char) : Option (List Char × List Char) :=
  let fence := s.takeWhile (· = '#')
  match s.drop fence.length with
  | '"' :: rest => upTo? ('"' :: fence) rest
  | _ => none

/-- A text that starts here, and what is behind it. -/
def text? : Dialect → List Char → Option (List Char × List Char)
  | d, '"' :: s => d.quoted? '"' (s.length + 1) s
  | ron, '\'' :: s => (ron.quoted? '\'' (s.length + 1) s).filter (·.1.length = 1)
  | ron, 'r' :: s => raw? s
  | json5, '\'' :: s => json5.quoted? '\'' (s.length + 1) s
  | _, _ => none

/-! ## Names and other words -/

def startsName : Dialect → Char → Bool
  | ron, c => c.isAlpha || c == '_'
  | json5, c => c.isAlpha || c == '_' || c == '$'

def inName (d : Dialect) (c : Char) : Bool := d.startsName c || c.isDigit

def IsName (d : Dialect) (s : List Char) : Prop := s.head?.any d.startsName ∧ s.all d.inName

instance (d : Dialect) (s : List Char) : Decidable (d.IsName s) :=
  inferInstanceAs (Decidable (_ ∧ _))

def name? (d : Dialect) (s : List Char) : Option (List Char × List Char) :=
  let name := s.takeWhile d.inName
  if d.IsName name then some (name, s.drop name.length) else none

/-- A key. Where there are records, only theirs are names. -/
def key? (d : Dialect) (close : Char) (s : List Char) : Option (List Char × List Char) :=
  match d with
  | ron => if close = ')' then ron.name? s else ron.text? s
  | json5 => (json5.text? s).or (json5.name? s)

def inWord (d : Dialect) (c : Char) : Bool := d.inName c || c ∈ ['+', '-', '.']

/-- The base that a mark says, or ten, and what is behind the mark. -/
def based : List Char → Nat × List Char
  | '0' :: 'x' :: s => (16, s)
  | '0' :: 'o' :: s => (8, s)
  | '0' :: 'b' :: s => (2, s)
  | s => (10, s)

/-- Digits may be parted. A whole number is a fraction if it has more than 64 bits, or a sign and
more than 63 others. -/
def ronNumber? (s : List Char) : Option Scalar :=
  let (negative, unsigned) := Digits.sign s
  let (base, written) := based unsigned
  let digits := written.filter (· ≠ '_')
  let n : Int := if negative then -(Written.natIn base digits : Int) else Written.natIn base digits
  if digits ≠ [] ∧ written.head? ≠ some '_' ∧ digits.all (Written.isIn base) ∧
      (Word.FitsSigned 63 n ∨ (unsigned = s ∧ Word.Fits 64 n)) then
    some (.ofShortNumber (.int n))
  else if base ≠ 10 ∨ '_' ∈ written then none
  else (Written.decimal? s).map Written.Decimal.scalar

def ronWord? (s : List Char) : Option Scalar :=
  let (negative, name) := Digits.sign s
  if name = "inf".toList then some (.infinite negative)
  else if name = "NaN".toList then some .notANumber
  else if s = "true".toList then some (.bool true)
  else if s = "false".toList then some (.bool false)
  -- a name is a record without members, and the one for nothing is not told from others
  else if ron.IsName s then some .null
  else ronNumber? s

def badInteger : Except String Scalar := .error "error parsing integer"

/-- What hexadecimal digits behind their mark stand for. They have no sign. -/
def json5Hexadecimal (signed : Bool) (digits : List Char) : Except String Scalar :=
  if signed then
    if digits.any (·.toLower = 'e') then .error "error parsing number" else badInteger
  else if Written.natIn 16 digits < Word.count 32 then .ok (.int (Written.natIn 16 digits))
  else .error "error parsing hex"

/-- A whole number has 63 bits and a sign, and a fraction is finite. -/
def json5Decimal? (s : List Char) : Option (Except String Scalar) :=
  (Written.decimal? s).bind fun d =>
    if d.whole.head? = some '0' ∧ d.whole ≠ ['0'] then none
    else if s.any (· ∈ ['.', 'e', 'E']) then
      match d.scalar with
      | .infinite _ => some (.error "error parsing number: too large")
      | x => some (.ok x)
    else
      match Written.wordOf? 10 s with
      | some n => some (.ok (.int n))
      | none => some badInteger

def json5Word? (s : List Char) : Option (Except String Scalar) :=
  let (negative, unsigned) := Digits.sign s
  if s = "null".toList then some (.ok .null)
  else if s = "true".toList then some (.ok (.bool true))
  else if s = "false".toList then some (.ok (.bool false))
  else if unsigned = "Infinity".toList ∨ unsigned = "NaN".toList then
    if s.head? = some '+' then some badInteger
    else some (.ok (if unsigned = "NaN".toList then .notANumber else .infinite negative))
  else
    match unsigned with
    | '0' :: mark :: digits =>
      if mark = 'x' ∨ mark = 'X' then
        if digits ≠ [] ∧ digits.all (Written.isIn 16) then
          some (json5Hexadecimal (unsigned ≠ s) digits)
        else none
      else json5Decimal? s
    | _ => json5Decimal? s

/-- What a word is, if it is one. -/
def word? : Dialect → List Char → Option (Except String Scalar)
  | ron, s => (ronWord? s).map .ok
  | json5, s => json5Word? s

/-- Whether a record starts behind a parenthesis, rather than a list. -/
def StartsRecord (d : Dialect) (s : List Char) : Prop :=
  ∃ t ∈ d.name? (d.skip s.length s), (d.skip t.2.length t.2).head? = some ':'

instance (d : Dialect) (s : List Char) : Decidable (d.StartsRecord s) :=
  inferInstanceAs (Decidable (∃ t ∈ d.name? _, _))

end Dialect

mutual

def value (d : Dialect) : Nat → List Char → Option (Node × List Char)
  | 0, _ => none
  | depth + 1, s =>
    match d.skip s.length s with
    | '[' :: rest => (items d ']' depth rest).map fun t => (.list t.1, t.2)
    | '\x7b' :: rest => (pairs d '\x7d' depth rest).map fun t => (.table t.1, t.2)
    | s =>
      match d.text? s with
      | some (t, rest) => some (.text t, rest)
      | none =>
        let word := s.takeWhile d.inWord
        let rest := s.drop word.length
        match d, (d.skip rest.length rest) with
        | .ron, '(' :: rest =>
          if word = "Some".toList then option d depth rest
          else if word = [] ∨ d.IsName word then group d depth rest
          else none
        | _, _ => (d.word? word).map fun x => (.scalar x, rest)

/-- What is between parentheses: nothing, a record or a list. -/
def group (d : Dialect) : Nat → List Char → Option (Node × List Char)
  | 0, _ => none
  | depth + 1, s =>
    if s.head? = some ')' then some (.null, s.drop 1)
    else if d.StartsRecord s then (pairs d ')' depth s).map fun t => (.table t.1, t.2)
    else (items d ')' depth s).map fun t => (.list t.1, t.2)

/-- A value between parentheses that could as well be missing. -/
def option (d : Dialect) : Nat → List Char → Option (Node × List Char)
  | 0, _ => none
  | depth + 1, s =>
    match items d ')' depth s with
    | some ([v], rest) => some (v, rest)
    | _ => none

def items (d : Dialect) (close : Char) : Nat → List Char → Option (List Node × List Char)
  | 0, _ => none
  | depth + 1, s =>
    let s := d.skip s.length s
    if s.head? = some close then some ([], s.drop 1)
    else
      match value d depth s with
      | none => none
      | some (v, rest) =>
        match d.skip rest.length rest with
        | ',' :: rest => (items d close depth rest).map fun t => (v :: t.1, t.2)
        | c :: rest => if c = close then some ([v], rest) else none
        | [] => none

def pairs (d : Dialect) (close : Char) :
    Nat → List Char → Option (List (String × Node) × List Char)
  | 0, _ => none
  | depth + 1, s =>
    let s := d.skip s.length s
    if s.head? = some close then some ([], s.drop 1)
    else
      match d.key? close s with
      | none => none
      | some (k, rest) =>
        match d.skip rest.length rest with
        | ':' :: rest =>
          match value d depth rest with
          | none => none
          | some (v, rest) =>
            let member := Node.putEarlier (String.ofList k) v
            match d.skip rest.length rest with
            | ',' :: rest => (pairs d close depth rest).map fun t => (member t.1, t.2)
            | c :: rest => if c = close then some (member [], rest) else none
            | [] => none
        | _ => none

end

def read (d : Dialect) (origin : Option String) (input : String) : Except String Entry :=
  let s := input.toList
  match value d (2 * s.length + 2) s with
  | some (v, rest) =>
    if d.skip rest.length rest = [] then v.entry origin else .error "unexpected characters"
  | none => .error "invalid document"

structure Sections where
  root : Entry
  heading? : Option String

/-- What is written for a value, without the quotes it may stand in. -/
def unquote (written : List Char) : List Char :=
  match written with
  | '"' :: rest => ((Yaml.quotedText '"' rest).map (·.1)).getD written
  | _ => written

/-- A line of sections: a name in brackets, or a key and its value. -/
def sectionLine (origin : Option String) (doc : Sections) (line : List Char) : Sections :=
  match Yaml.trim line with
  | [] => doc
  | '#' :: _ => doc
  | ';' :: _ => doc
  | '[' :: rest =>
    let name := String.ofList (rest.takeWhile (· ≠ ']'))
    ⟨doc.root.change name fun old => old.getD (.table origin []), some name⟩
  | text =>
    let isMark (c : Char) : Bool := c == '=' || c == ':'
    let key := String.ofList (Yaml.trim (text.takeWhile (!isMark ·)))
    let value := unquote (Yaml.trim ((text.dropWhile (!isMark ·)).drop 1))
    let set (e : Entry) : Entry :=
      e.change key fun _ => .scalar origin (.text (String.ofList value))
    match doc.heading? with
    | none => { doc with root := set doc.root }
    | some name =>
      { doc with root := doc.root.change name fun old => set (old.getD (.table origin [])) }

def readSections (origin : Option String) (input : String) : Except String Entry :=
  let lines := Yaml.splitLines input.toList
  .ok (lines.foldl (sectionLine origin) ⟨.table origin [], none⟩).root

end HotSwap.Relaxed

import HotSwap.Settings.Toml.Moment
import HotSwap.Settings.Written

/-!
# TOML

A document is lines of keys and values under the headers of tables. Readers are told how deep a
value may still be nested, for which the length of the document is always enough.
-/

namespace HotSwap.Toml

def isBlank (c : Char) : Bool := c == ' ' || c == '\t'

def skipBlank (s : List Char) : List Char := s.dropWhile isBlank

def isBare (c : Char) : Bool := c.isAlphanum || c == '_' || c == '-'

def startsWith (s word : List Char) : Bool := word.isPrefixOf s

def isControl (c : Char) : Bool := (c.toNat < 32 && c ≠ '\t') || c.toNat == 127

/-- What is behind a comment, if one starts here. -/
def skipComment : List Char → List Char
  | '#' :: s => s.dropWhile (!isControl ·)
  | s => s

/-- The text behind an end of line, of which there are two kinds. -/
def newline? : List Char → Option (List Char)
  | '\n' :: s => some s
  | '\r' :: '\n' :: s => some s
  | _ => none

/-- Blanks, ends of lines and comments. -/
def skipLines (length : Nat) (s : List Char) : List Char :=
  match length with
  | 0 => s
  | length + 1 =>
    let s := skipComment (skipBlank s)
    match newline? s with
    | some s => skipLines length s
    | none => s

def badString : String := "invalid string\nexpected `\"`, `'`"

def badEscape : String :=
  "invalid escape sequence\nexpected `b`, `f`, `n`, `r`, `t`, `u`, `U`, `\\`, `\"`"

def letters : List (Char × Char) :=
  [('b', '\x08'), ('t', '\t'), ('n', '\n'), ('f', '\x0c'), ('r', '\r'), ('"', '"'), ('\\', '\\')]

/-- The character of an escape, behind its backslash. -/
def escape (s : List Char) : Except Fault (Char × List Char) :=
  let coded (width : Nat) (rest : List Char) : Except Fault (Char × List Char) :=
    let bad := "invalid unicode " ++ toString width ++ "-digit hex code"
    match Bytes.hexText? (rest.take width) with
    | some n =>
      if rest.length < width then fail bad rest
      else if n.isValidChar then .ok (Char.ofNat n, rest.drop width)
      else fail (bad ++ "\n" ++ outOfRange) rest
    | none => fail bad rest
  match s with
  | [] => fail badEscape s
  | 'u' :: rest => coded 4 rest
  | 'U' :: rest => coded 8 rest
  | c :: rest =>
    match letters.lookup c with
    | some d => .ok (d, rest)
    | none => fail badEscape s

/-- A text on one line, behind its opening quote. -/
def lineText (quote : Char) (escapes : Bool) (label : String) :
    Nat → List Char → Except Fault (List Char × List Char)
  | 0, s => fail label s
  | _, [] => fail label []
  | length + 1, c :: s =>
    if c = quote then .ok ([], s)
    else if c = '\\' ∧ escapes then
      match escape s with
      | .error e => .error e
      | .ok (d, s) => (lineText quote escapes label length s).map fun t => (d :: t.1, t.2)
    else if isControl c then fail label (c :: s)
    else (lineText quote escapes label length s).map fun t => (c :: t.1, t.2)

/-- Blanks and ends of lines. -/
def skipFold : List Char → List Char
  | '\r' :: '\n' :: s => skipFold s
  | c :: s => if isBlank c ∨ c = '\n' then skipFold s else c :: s
  | [] => []

/-- A text of several lines, behind its three opening quotes; each line ends with a line feed. -/
def longText (quote : Char) (escapes : Bool) (label : String) :
    Nat → List Char → Except Fault (List Char × List Char)
  | 0, s => fail label s
  | length + 1, s =>
    match s with
    | [] => fail label []
    | c :: rest =>
      if startsWith s [quote, quote, quote] then
        let extra := ((s.drop 3).takeWhile (· = quote)).take 2
        .ok (extra, (s.drop 3).drop extra.length)
      else if c = '\\' ∧ escapes then
        match newline? (skipBlank rest) with
        | some more => longText quote escapes label length (skipFold more)
        | none =>
          match escape rest with
          | .error e => .error e
          | .ok (d, rest) => (longText quote escapes label length rest).map fun t => (d :: t.1, t.2)
      else
        match newline? s with
        | some more => (longText quote escapes label length more).map fun t => ('\n' :: t.1, t.2)
        | none =>
          if isControl c then fail label s
          else (longText quote escapes label length rest).map fun t => (c :: t.1, t.2)

def dropNewline (s : List Char) : List Char := (newline? s).getD s

/-- A text, of which the opening quote is there. -/
def text (s : List Char) : Except Fault (String × List Char) :=
  let named (t : Except Fault (List Char × List Char)) := t.map fun t => (String.ofList t.1, t.2)
  match s with
  | '"' :: '"' :: '"' :: rest =>
    named (longText '"' true "invalid multiline basic string" rest.length.succ (dropNewline rest))
  | '"' :: rest => named (lineText '"' true "invalid basic string" rest.length.succ rest)
  | '\'' :: '\'' :: '\'' :: rest =>
    named (longText '\'' false "invalid multiline literal string" rest.length.succ
      (dropNewline rest))
  | '\'' :: rest => named (lineText '\'' false "invalid literal string" rest.length.succ rest)
  | _ => fail badString s

def keyPart (s : List Char) : Except Fault (String × List Char) :=
  match s with
  | '"' :: rest =>
    (lineText '"' true "invalid basic string" rest.length.succ rest).map
      fun t => (String.ofList t.1, t.2)
  | '\'' :: rest =>
    (lineText '\'' false "invalid literal string" rest.length.succ rest).map
      fun t => (String.ofList t.1, t.2)
  | _ =>
    match s.takeWhile isBare with
    | [] => fail "invalid key" s
    | cs => .ok (String.ofList cs, s.dropWhile isBare)

/-- Parts of a key, set apart by points. -/
def key : Nat → List Char → Except Fault (List String × List Char)
  | 0, s => fail "invalid key" s
  | length + 1, s =>
    match keyPart (skipBlank s) with
    | .error e => .error e
    | .ok (part, rest) =>
      match skipBlank rest with
      | '.' :: more => (key length more).map fun t => (part :: t.1, t.2)
      | _ => .ok ([part], skipBlank rest)

/-- Further digits, each behind an underscore or none. -/
def moreDigits (isDigit : Char → Bool) : List Char → List Char × List Char
  | '_' :: d :: rest =>
    if isDigit d then
      let t := moreDigits isDigit rest
      (d :: t.1, t.2)
    else ([], '_' :: d :: rest)
  | d :: rest =>
    if isDigit d then
      let t := moreDigits isDigit rest
      (d :: t.1, t.2)
    else ([], d :: rest)
  | [] => ([], [])

/-- Digits with single underscores between them. -/
def underscored (isDigit : Char → Bool) : List Char → Option (List Char × List Char)
  | [] => none
  | c :: s =>
    if isDigit c then
      let t := moreDigits isDigit s
      some (c :: t.1, t.2)
    else none

def tooLarge : String := "number too large to fit in target type"

/-- The digits of a whole number: none before others, if they start with a zero. -/
def wholeDigits (s : List Char) : Option (List Char × List Char) :=
  match s with
  | '0' :: rest => some (['0'], rest)
  | _ => underscored Char.isDigit s

/-- A fraction or an exponent behind the digits of a number. Only a number that is too small may be
infinite. -/
def floatTail (negative : Bool) (digits s : List Char) :
    Option (Except String (Scalar × List Char)) :=
  let fraction := match s with
    | '.' :: rest => underscored Char.isDigit rest
    | _ => none
  let (parts, s) := fraction.getD ([], s)
  let exponent : Option (Int × List Char) :=
    if s.head? = some 'e' ∨ s.head? = some 'E' then
      let (minus, rest) := Digits.sign (s.drop 1)
      (underscored Char.isDigit rest).map fun t => (Digits.signedValue minus t.1, t.2)
    else none
  if fraction.isNone ∧ exponent.isNone then none
  else
    let (e, s) := exponent.getD (0, s)
    let n := Digits.value (digits ++ parts)
    let overflow : Except String (Scalar × List Char) :=
      if negative then .ok (.infinite true, s) else .error "invalid floating-point number"
    if n ≠ 0 ∧ 400 + parts.length < e then some overflow
    else
      let e := if n = 0 then 0 else max e (-(400 + digits.length + parts.length : Int))
      match Binary64.ofDecimal? negative n (e - parts.length) with
      | some x => some (.ok (.float x, s))
      | none => some overflow

def number (s : List Char) : Except Fault (Scalar × List Char) :=
  match Moment.read? s with
  | some t => t.map fun (moment, rest) => (.text moment.render, rest)
  | none =>
    let (negative, digitsOn) := Digits.sign s
    if startsWith digitsOn ['i', 'n', 'f'] then .ok (.infinite negative, digitsOn.drop 3)
    else if startsWith digitsOn ['n', 'a', 'n'] then .ok (.notANumber, digitsOn.drop 3)
    else
      let based (base : Nat) : Except Fault (Scalar × List Char) :=
        match underscored (Written.isIn base) (s.drop 2) with
        | none => fail "invalid integer" (s.drop 2)
        | some (cs, rest) =>
          let n := Written.natIn base cs
          if n < Word.count 63 then .ok (.int n, rest) else fail tooLarge s
      if startsWith s ['0', 'x'] then based 16
      else if startsWith s ['0', 'o'] then based 8
      else if startsWith s ['0', 'b'] then based 2
      else
        match wholeDigits digitsOn with
        | none => fail "invalid integer" digitsOn
        | some (cs, rest) =>
          match floatTail negative cs rest with
          | some (.ok t) => .ok t
          | some (.error e) => fail e s
          | none =>
            let n := Digits.signedValue negative cs
            if n < -(Word.count 63 : Int) then fail "number too small to fit in target type" s
            else if (Word.count 63 : Int) ≤ n then fail tooLarge s
            else .ok (.int n, rest)

/-- Changes what a key of a table holds, in a list of tables the last of them. -/
def within? (origin : Option String) (k : String) (f : Entry → Option Entry) :
    Entry → Option Entry
  | .table o members =>
    let inner : Option Entry :=
      match getMember? k members with
      | some (.list lo items) =>
        match items.getLast? with
        | some last => (f last).map fun t => .list lo (items.dropLast ++ [t])
        | none => none
      | some e => f e
      | none => f (.table origin [])
    inner.map fun t => .table o (putMember k t members)
  | _ => none

/-- Sets a value at a key of several parts; nothing, if it is there already. -/
def insert (value : Entry) : List String → Entry → Option Entry
  | [], _ => none
  | [k], .table o members =>
    if (getMember? k members).isSome then none else some (.table o (putMember k value members))
  | [_], _ => none
  | k :: rest, e => within? value.origin k (insert value rest) e

def duplicate (path : List String) (key : String) : String :=
  "duplicate key `" ++ key ++ "`" ++
    (if path = [] then " in document root" else " in table `" ++ ".".intercalate path ++ "`")

mutual

def value (origin : Option String) : Nat → List Char → Except Fault (Entry × List Char)
  | 0, s => fail "recursion limit exceeded" s
  | depth + 1, s =>
    match s with
    | [] => fail "" []
    | c :: rest =>
      if c = '"' ∨ c = '\'' then (text s).map fun t => (.scalar origin (.text t.1), t.2)
      else if c = '[' then
        (items origin depth (skipLines rest.length rest)).map fun t => (.list origin t.1, t.2)
      else if c = '\x7b' then
        match skipBlank rest with
        | '\x7d' :: rest => .ok (.table origin [], rest)
        | rest => pairs origin depth (.table origin []) rest
      else if c = '+' ∨ c = '-' ∨ c.isDigit then
        (number s).map fun t => (.scalar origin t.1, t.2)
      else if startsWith s "true".toList then .ok (.scalar origin (.bool true), s.drop 4)
      else if startsWith s "false".toList then .ok (.scalar origin (.bool false), s.drop 5)
      else if startsWith s "inf".toList then .ok (.scalar origin (.infinite false), s.drop 3)
      else if startsWith s "nan".toList then .ok (.scalar origin .notANumber, s.drop 3)
      else if c = '_' then fail "invalid integer\nexpected leading digit" s
      else if c = '.' then fail "invalid floating-point number\nexpected leading digit" s
      else fail badString s

def items (origin : Option String) : Nat → List Char → Except Fault (List Entry × List Char)
  | 0, s => fail "recursion limit exceeded" s
  | depth + 1, s =>
    match s with
    | ']' :: rest => .ok ([], rest)
    | _ =>
      match value origin depth s with
      | .error e => .error e
      | .ok (v, rest) =>
        match skipLines rest.length rest with
        | ']' :: rest => .ok ([v], rest)
        | ',' :: rest =>
          (items origin depth (skipLines rest.length rest)).map fun t => (v :: t.1, t.2)
        | rest => fail "invalid array\nexpected `]`" rest

def pairs (origin : Option String) : Nat → Entry → List Char → Except Fault (Entry × List Char)
  | 0, _, s => fail "recursion limit exceeded" s
  | depth + 1, e, s =>
    match key s.length.succ s with
    | .error e => .error e
    | .ok (k, rest) =>
      match rest with
      | '=' :: rest =>
        match value origin depth (skipBlank rest) with
        | .error e => .error e
        | .ok (v, rest) =>
          match insert v k e with
          | none => fail ("duplicate key `" ++ k.getLastD "" ++ "`") s
          | some e =>
            match skipBlank rest with
            | '\x7d' :: rest => .ok (e, rest)
            | ',' :: rest => pairs origin depth e (skipBlank rest)
            | rest => fail "invalid inline table\nexpected `\x7d`" rest
      | rest => fail "expected `.`, `=`" rest

end

/-- The end of a line. -/
def lineEnd (s : List Char) : Except Fault (List Char) :=
  let s := skipComment (skipBlank s)
  match newline? s with
  | some rest => .ok rest
  | none => if s = [] then .ok [] else fail "expected newline, `#`" s

structure Document where
  root : Entry
  /-- The table under whose header the next line stands. -/
  path : List String
  headers : List (List String)

/-- An empty table at a path, if there is nothing yet. -/
def open? (origin : Option String) : List String → Entry → Option Entry
  | [], .table o members => some (.table o members)
  | [], _ => none
  | k :: rest, e => within? origin k (open? origin rest) e

/-- A further table of the list at a path. -/
def append? (origin : Option String) : List String → Entry → Option Entry
  | [], _ => none
  | [k], .table o members =>
    match getMember? k members with
    | some (.list lo items) =>
      some (.table o (putMember k (.list lo (items ++ [.table origin []])) members))
    | some _ => none
    | none => some (.table o (putMember k (.list origin [.table origin []]) members))
  | [_], _ => none
  | k :: rest, e => within? origin k (append? origin rest) e

def badHeader (reason : String) : String := "invalid table header\n" ++ reason

def header (origin : Option String) (doc : Document) (s : List Char) :
    Except Fault (Document × List Char) := do
  let many := startsWith s ['[', '[']
  let (path, rest) ← key s.length.succ (s.drop (if many then 2 else 1))
  let close := if many then [']', ']'] else [']']
  if ¬ startsWith rest close then fail (badHeader "expected `.`, `]`") rest
  let rest ← match lineEnd (rest.drop close.length) with
    | .ok rest => .ok rest
    | .error f => .error { f with message := badHeader f.message }
  let clash := badHeader (duplicate path.dropLast (path.getLastD ""))
  if many then
    match append? origin path doc.root with
    | some root => return ({ doc with root := root, path := path }, rest)
    | none => fail clash s
  else if path ∈ doc.headers then fail clash s
  else
    match open? origin path doc.root with
    | some root => return (⟨root, path, path :: doc.headers⟩, rest)
    | none => fail clash s

def pair (origin : Option String) (doc : Document) (s : List Char) :
    Except Fault (Document × List Char) := do
  let (k, rest) ← key s.length.succ s
  match rest with
  | '=' :: rest =>
    let (v, rest) ← value origin rest.length.succ (skipBlank rest)
    let rest ← lineEnd rest
    match insert v (doc.path ++ k) doc.root with
    | some root => return ({ doc with root := root }, rest)
    | none => fail (duplicate doc.path (k.getLastD "")) s
  | _ => fail "expected `.`, `=`" rest

def lines (origin : Option String) : Nat → Document → List Char → Except Fault Document
  | 0, doc, _ => .ok doc
  | length + 1, doc, s =>
    match skipLines s.length s with
    | [] => .ok doc
    | '[' :: rest => do
      let (doc, rest) ← header origin doc ('[' :: rest)
      lines origin length doc rest
    | s => do
      let (doc, rest) ← pair origin doc s
      lines origin length doc rest

/-- The table that a document is; a byte order mark may stand before it. -/
def read (origin : Option String) (input : String) : Except String Entry :=
  let s := input.toList
  let body := if s.head? = some '\ufeff' then s.drop 1 else s
  match lines origin s.length.succ ⟨.table origin [], [], []⟩ body with
  | .ok doc => .ok doc.root
  | .error e => .error (e.render s)

end HotSwap.Toml

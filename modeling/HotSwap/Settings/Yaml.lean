import HotSwap.Settings.Node
import HotSwap.Settings.Written

/-!
# YAML

Block mappings and lists by indentation, flow mappings and lists on one line, and plain and quoted
scalars. Plain scalars are numbers, booleans or `null` where they look like it.
-/

namespace HotSwap.Yaml

/-- A line without its comment, and how far it is indented. -/
structure Line where
  indent : Nat
  text : List Char

def isBlank (c : Char) : Bool := c == ' ' || c == '\t' || c == '\r'

def trimEnd (s : List Char) : List Char := (s.reverse.dropWhile isBlank).reverse

def trim (s : List Char) : List Char := trimEnd (s.dropWhile isBlank)

/-- The part before a comment; `quote` is the one that is open, `before` the last character. -/
def uncommented : Option Char → Char → List Char → List Char
  | _, _, [] => []
  | none, before, c :: s =>
    if c = '#' ∧ isBlank before then []
    else c :: uncommented (if c = '"' ∨ c = '\'' then some c else none) c s
  | some q, _, c :: s => c :: uncommented (if c = q then none else some q) c s

def lineOf (s : List Char) : Line :=
  let indent := (s.takeWhile (· = ' ')).length
  ⟨indent, trim (uncommented none ' ' (s.drop indent))⟩

def splitLines : List Char → List (List Char)
  | [] => [[]]
  | '\n' :: rest => [] :: splitLines rest
  | c :: rest =>
    match splitLines rest with
    | [] => [[c]]
    | first :: others => (c :: first) :: others

def linesOf (input : String) : List Line :=
  ((splitLines input.toList).map lineOf).filter fun l =>
    l.text ≠ [] ∧ l.text ≠ "---".toList ∧ l.text ≠ "...".toList

/-- Whole numbers are marked if they are not decimal. Behind a plus sign there may be another
sign. -/
def intOf? : List Char → Option Int
  | '0' :: 'x' :: digits => Written.wordOf? 16 digits
  | '0' :: 'o' :: digits => Written.wordOf? 8 digits
  | '+' :: s => Written.wordOf? 10 s
  | s => Written.wordOf? 10 s

/-- Names of fractions that no fraction is read from. -/
def unreadable : List String := [
  ".inf", ".Inf", ".INF", "+.inf", "+.Inf", "+.INF", "-.inf", "-.Inf", "-.INF", ".nan", ".NAN"]

def plain (s : List Char) : Except String Scalar :=
  if s = [] ∨ s = ['~'] ∨ s = "null".toList then .ok .null
  else if s = "true".toList then .ok (.bool true)
  else if s = "false".toList then .ok (.bool false)
  else
    match intOf? s with
    | some n => .ok (.int n)
    | none =>
      match Written.fraction? s with
      | some x => .ok x
      | none =>
        let written := String.ofList s
        if written ∈ unreadable then
          .error ("Parsing " ++ written ++ " as floating point number failed")
        else .ok (.text written)

/-- Keys that are whole numbers are written out. -/
def plainKey (s : List Char) : String :=
  match intOf? s with
  | some n => toString n
  | none => String.ofList s

def letters : List (Char × Char) :=
  [('0', '\x00'), ('b', '\x08'), ('t', '\t'), ('n', '\n'), ('f', '\x0c'), ('r', '\r'), ('"', '"'),
    ('/', '/'), ('\\', '\\'), (' ', ' ')]

/-- A quoted scalar behind its opening quote, and what follows it. -/
def quotedText (quote : Char) : List Char → Option (List Char × List Char)
  | [] => none
  | [c] => if c = quote then some ([], []) else none
  | c :: d :: s =>
    if c = '\\' ∧ quote = '"' then
      (letters.lookup d).bind fun e => (quotedText quote s).map fun t => (e :: t.1, t.2)
    else if c ≠ quote then (quotedText quote (d :: s)).map fun t => (c :: t.1, t.2)
    else if d = '\'' ∧ quote = '\'' then (quotedText quote s).map fun t => (d :: t.1, t.2)
    else some ([], d :: s)

def isFlowMark (c : Char) : Bool := c ∈ [',', '[', ']', '\x7b', '\x7d']

/-- A plain scalar of a flow collection ends at a mark or at a colon before a blank. -/
def flowPlain : List Char → List Char × List Char
  | [] => ([], [])
  | ':' :: c :: s =>
    if isBlank c then ([], ':' :: c :: s)
    else
      let t := flowPlain (c :: s)
      (':' :: t.1, t.2)
  | c :: s =>
    if isFlowMark c then ([], c :: s)
    else
      let t := flowPlain s
      (c :: t.1, t.2)

def keyText (s : List Char) : Option (String × List Char) :=
  match s with
  | '"' :: rest => (quotedText '"' rest).map fun t => (String.ofList t.1, t.2)
  | '\'' :: rest => (quotedText '\'' rest).map fun t => (String.ofList t.1, t.2)
  | _ =>
    let t := flowPlain s
    some (plainKey (trim t.1), t.2)

mutual

def flow : Nat → List Char → Option (Node × List Char)
  | 0, _ => none
  | depth + 1, s =>
    match s.dropWhile isBlank with
    | '[' :: rest => (flowItems depth rest).map fun t => (.list t.1, t.2)
    | '\x7b' :: rest => (flowPairs depth rest).map fun t => (.table t.1, t.2)
    | '"' :: rest => (quotedText '"' rest).map fun t => (.text t.1, t.2)
    | '\'' :: rest => (quotedText '\'' rest).map fun t => (.text t.1, t.2)
    | rest =>
      let t := flowPlain rest
      some (.scalar (plain (trim t.1)), t.2)

def flowItems : Nat → List Char → Option (List Node × List Char)
  | 0, _ => none
  | depth + 1, s =>
    match s.dropWhile isBlank with
    | ']' :: rest => some ([], rest)
    | s =>
      match flow depth s with
      | none => none
      | some (v, rest) =>
        match rest.dropWhile isBlank with
        | ',' :: rest => (flowItems depth rest).map fun t => (v :: t.1, t.2)
        | ']' :: rest => some ([v], rest)
        | _ => none

def flowPairs : Nat → List Char → Option (List (String × Node) × List Char)
  | 0, _ => none
  | depth + 1, s =>
    match s.dropWhile isBlank with
    | '\x7d' :: rest => some ([], rest)
    | s =>
      match keyText s with
      | none => none
      | some (k, rest) =>
        match rest.dropWhile isBlank with
        | ':' :: rest =>
          match flow depth rest with
          | none => none
          | some (v, rest) =>
            match rest.dropWhile isBlank with
            | ',' :: rest => (flowPairs depth rest).map fun t => (Node.putEarlier k v t.1, t.2)
            | '\x7d' :: rest => some ([(k, v)], rest)
            | _ => none
        | _ => none

end

/-- The key of a line and the text behind its colon. -/
def splitKey (s : List Char) : Option (String × List Char) :=
  match s with
  | '"' :: _ | '\'' :: _ =>
    match keyText s with
    | some (k, rest) =>
      match rest.dropWhile isBlank with
      | ':' :: rest => some (k, rest)
      | _ => none
    | none => none
  | _ => go [] s
where
  go (read : List Char) : List Char → Option (String × List Char)
    | [] => none
    | [':'] => some (plainKey (trim read.reverse), [])
    | ':' :: c :: s =>
      if isBlank c then some (plainKey (trim read.reverse), c :: s)
      else go (':' :: read) (c :: s)
    | c :: s => go (c :: read) s

def inline (s : List Char) : Option Node :=
  match s with
  | '[' :: _ | '\x7b' :: _ | '"' :: _ | '\'' :: _ =>
    match flow s.length.succ s with
    | some (v, rest) => if trim rest = [] then some v else none
    | none => none
  | _ => if (splitKey s).isSome then none else some (.scalar (plain s))

mutual

/-- A block whose lines are indented as the first one is; a `depth` of the number of lines and
characters is enough. -/
def block : Nat → List Line → Option (Node × List Line)
  | 0, _ => none
  | _, [] => some (.null, [])
  | depth + 1, l :: rest =>
    match l.text with
    | ['-'] | '-' :: ' ' :: _ =>
      (listItems depth l.indent (l :: rest)).map fun t => (.list t.1, t.2)
    | _ =>
      if (splitKey l.text).isSome ∧ (inline l.text).isNone then
        (pairs depth l.indent (l :: rest)).map fun t => (.table t.1, t.2)
      else (inline l.text).map fun v => (v, rest)

def listItems : Nat → Nat → List Line → Option (List Node × List Line)
  | 0, _, _ => none
  | _, _, [] => some ([], [])
  | depth + 1, indent, l :: rest =>
    if l.indent ≠ indent then (if l.indent < indent then some ([], l :: rest) else none)
    else
      match l.text with
      | '-' :: text =>
        let inner := text.dropWhile isBlank
        let lines := if inner = [] then rest
          else ⟨indent + 1 + (text.length - inner.length), inner⟩ :: rest
        match block depth lines with
        | none => none
        | some (v, rest) => (listItems depth indent rest).map fun t => (v :: t.1, t.2)
      | _ => some ([], l :: rest)

def pairs : Nat → Nat → List Line → Option (List (String × Node) × List Line)
  | 0, _, _ => none
  | _, _, [] => some ([], [])
  | depth + 1, indent, l :: rest =>
    if l.indent ≠ indent then (if l.indent < indent then some ([], l :: rest) else none)
    else
      match splitKey l.text with
      | none => none
      | some (k, text) =>
        let inner := trim text
        let value : Option (Node × List Line) :=
          if inner ≠ [] then (inline inner).map fun v => (v, rest)
          else
            match rest with
            | next :: _ =>
              if indent < next.indent ∨ (next.indent = indent ∧ next.text.head? = some '-') then
                block depth rest
              else some (.null, rest)
            | [] => some (.null, [])
        match value with
        | none => none
        | some (v, rest) =>
          (pairs depth indent rest).map fun t => (Node.putEarlier k v t.1, t.2)

end

def read (origin : Option String) (input : String) : Except String Entry :=
  match linesOf input with
  | [] => .ok (.table origin [])
  | lines =>
    match block (2 * input.length + 2) lines with
    | some (v, []) => v.entry origin
    | _ => .error "invalid document"

end HotSwap.Yaml

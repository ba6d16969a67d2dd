import HotSwap.Decimal.Digits
import HotSwap.Json.Value
import HotSwap.Text.Bytes

/-!
# Tokens of a GraphQL document

Blanks, commas and comments set tokens apart. A token knows its line and column, both counted from
one in characters.
-/

namespace HotSwap.Graphql

structure Place where
  line : Nat
  column : Nat
  deriving DecidableEq, Repr

/-- A return goes back to the first column, but stays on its line. -/
def Place.next (p : Place) (c : Char) : Place :=
  if c = '\n' then ⟨p.line + 1, 1⟩
  else if c = '\r' then ⟨p.line, 1⟩
  else ⟨p.line, p.column + 1⟩

inductive Token where
  | mark (c : Char)
  | spread
  | name (s : String)
  | number (n : Number)
  | text (s : String)
  deriving DecidableEq

structure Placed (α : Type) where
  place : Place
  value : α

namespace Token

def isBlank (c : Char) : Bool := c ∈ [' ', '\t', '\n', '\r', ',', '\ufeff']

def isNameStart (c : Char) : Bool := c.isAlpha || c == '_'

def isNameChar (c : Char) : Bool := c.isAlphanum || c == '_'

def marks : List Char := ['!', '$', '(', ')', ':', '=', '@', '[', ']', '\x7b', '\x7d', '|', '&']

def letters : List (Char × Char) :=
  [('"', '"'), ('\\', '\\'), ('/', '/'), ('b', '\x08'), ('f', '\x0c'), ('n', '\n'), ('r', '\r'),
    ('t', '\t')]

def hexFour? (cs : List Char) : Option Nat :=
  if cs.length < 4 then none else Bytes.hexText? (cs.take 4)

/-- The text behind an opening quote, and the rest. -/
def lineText : Nat → List Char → Option (List Char × List Char)
  | 0, _ => none
  | _, [] => none
  | _, '\n' :: _ => none
  | _, '"' :: s => some ([], s)
  | length + 1, '\\' :: 'u' :: s =>
    (hexFour? s).bind fun n => (lineText length (s.drop 4)).map fun t => (Char.ofNat n :: t.1, t.2)
  | length + 1, '\\' :: c :: s =>
    (letters.lookup c).bind fun d => (lineText length s).map fun t => (d :: t.1, t.2)
  | length + 1, c :: s => (lineText length s).map fun t => (c :: t.1, t.2)

/-- The text behind three opening quotes as it is written, and the rest. -/
def blockText : Nat → List Char → Option (List Char × List Char)
  | 0, _ => none
  | _, [] => none
  | _, '"' :: '"' :: '"' :: s => some ([], s)
  | length + 1, '\\' :: '"' :: '"' :: '"' :: s =>
    (blockText length s).map fun t => ('"' :: '"' :: '"' :: t.1, t.2)
  | length + 1, c :: s => (blockText length s).map fun t => (c :: t.1, t.2)

/-- The lines of a text, whose ends may be written in three ways. -/
def linesOf : List Char → List (List Char)
  | [] => [[]]
  | '\r' :: '\n' :: s => [] :: linesOf s
  | c :: s =>
    if c = '\n' ∨ c = '\r' then [] :: linesOf s
    else
      match linesOf s with
      | line :: rest => (c :: line) :: rest
      | [] => [[c]]

def isMargin (c : Char) : Bool := c == ' ' || c == '\t'

/-- A block without the margin that all its lines but the first share, and without the lines of
blanks at its ends. -/
def trimBlock (s : List Char) : List Char :=
  let lines := linesOf s
  let isEmpty (line : List Char) : Bool := line.all isMargin
  let margins := (lines.drop 1).filter (!isEmpty ·) |>.map fun line =>
    (line.takeWhile isMargin).length
  let margin := margins.min?.getD 0
  let cut := lines.zipIdx.map fun (line, i) =>
    if i = 0 ∨ line.length < margin then line else line.drop margin
  let inner := (cut.zip lines).dropWhile (isEmpty ·.2) |>.reverse.dropWhile (isEmpty ·.2) |>.reverse
  ['\n'].intercalate (inner.map (·.1))

/-- A number, of which the first character is there. -/
def numeral (s : List Char) : Option (Number × List Char) :=
  let negative := s.head? = some '-'
  let s := if negative then s.drop 1 else s
  let digits := s.takeWhile Char.isDigit
  let rest := s.dropWhile Char.isDigit
  if digits = [] ∨ (1 < digits.length ∧ digits.head? = some '0') then none
  else
    let parts := match rest with
      | '.' :: more => more.takeWhile Char.isDigit
      | _ => []
    let rest := if parts = [] then rest else rest.drop (parts.length + 1)
    let exponent? : Option (Int × List Char) :=
      match rest with
      | c :: more =>
        if c = 'e' ∨ c = 'E' then
          let minus := more.head? = some '-'
          let more := if minus ∨ more.head? = some '+' then more.drop 1 else more
          let es := more.takeWhile Char.isDigit
          if es = [] then none
          else some (Digits.signedValue minus es, more.dropWhile Char.isDigit)
        else none
      | [] => none
    match exponent? with
    | none =>
      if parts = [] then
        some (.int (Digits.signedValue negative digits), rest)
      else
        (Binary64.ofDecimal? negative (Digits.value (digits ++ parts)) (-(parts.length : Int))).map
          fun x => (.float x, rest)
    | some (e, rest) =>
      let e := max (-5000) (min 5000 e)
      (Binary64.ofDecimal? negative (Digits.value (digits ++ parts)) (e - parts.length)).map
        fun x => (.float x, rest)

/-- The first token of a text without blanks before it. -/
def first (s : List Char) : Option (Token × List Char) :=
  match s with
  | [] => none
  | '.' :: '.' :: '.' :: rest => some (spread, rest)
  | '"' :: rest =>
    let block :=
      match rest with
      | '"' :: '"' :: more => (blockText (more.length + 1) more).map fun t => (trimBlock t.1, t.2)
      | _ => none
    (block <|> lineText (rest.length + 1) rest).map fun t => (text (String.ofList t.1), t.2)
  | c :: rest =>
    if c ∈ marks then some (mark c, rest)
    else if isNameStart c then
      some (name (String.ofList ((c :: rest).takeWhile isNameChar)),
        (c :: rest).dropWhile isNameChar)
    else if c = '-' ∨ c.isDigit then (numeral (c :: rest)).map fun t => (number t.1, t.2)
    else none

/-- The tokens of a text, or the place where there is none. `length` bounds their number. -/
def scan : Nat → Place → List Char → Except Place (List (Placed Token) × Place)
  | _, p, [] => .ok ([], p)
  | 0, p, _ => .error p
  | length + 1, p, c :: s =>
    if isBlank c then scan length (p.next c) s
    else if c = '#' then
      scan length p (s.dropWhile (· ≠ '\n'))
    else
      match first (c :: s) with
      | none => .error p
      | some (t, rest) =>
        let read := (c :: s).take (s.length + 1 - rest.length)
        match scan length (read.foldl Place.next p) rest with
        | .error e => .error e
        | .ok (ts, last) => .ok (⟨p, t⟩ :: ts, last)

def ofText (s : String) : Except Place (List (Placed Token) × Place) :=
  scan (s.length + 1) ⟨1, 1⟩ s.toList

end Token

end HotSwap.Graphql

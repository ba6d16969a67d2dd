import HotSwap.Json.Reader

/-!
# The grammar of JSON

A JSON text spells a form: a value as it is written, but for the blanks between its tokens. What a
form stands for is another question, to which there may be no answer, since its text may be no
UTF-8, pair no surrogates or have numbers that are out of range.
-/

namespace HotSwap.Json

/-- Nothing but blanks. -/
def Blank (s : Bytes) : Prop := ∀ b ∈ s, Scan.isBlank b

/-- What may be spelled somewhere. -/
abbrev Spelling := Bytes → Prop

namespace Spelling

/-- There may be blanks before it. -/
def Spaced (p : Spelling) : Spelling := fun s => ∃ b t, Blank b ∧ p t ∧ s = b ++ t

/-- Items behind the first, each after a comma, and blanks at the end. -/
inductive Further : List Spelling → Spelling
  | done {b : Bytes} (blank : Blank b) : Further [] b
  | more {p : Spelling} {ps : List Spelling} {b s t : Bytes} (blank : Blank b) (item : p.Spaced s)
      (rest : Further ps t) : Further (p :: ps) (b ++ 44 :: (s ++ t))

/-- Items with commas between them. -/
inductive Listed : List Spelling → Spelling
  | none {b : Bytes} (blank : Blank b) : Listed [] b
  | some {p : Spelling} {ps : List Spelling} {s t : Bytes} (item : p.Spaced s)
      (rest : Further ps t) : Listed (p :: ps) (s ++ t)

end Spelling

def Bracket.opening : Bracket → UInt8
  | list => 91
  | object => 123

/-- Items between brackets. -/
def Spelling.enclosed (k : Bracket) (ps : List Spelling) : Spelling :=
  fun s => ∃ t, Listed ps t ∧ s = k.opening :: (t ++ [k.close])

/-! ## Text -/

/-- The number that four hexadecimal digits spell. -/
def codeUnit? (digits : Bytes) : Option Nat :=
  if digits.length = 4 then
    digits.foldlM (fun n b => (Bytes.hexDigit? b).map (16 * n + ·)) 0
  else none

/-- A part of a text between quotes. -/
inductive Glyph where
  /-- A byte that stands for itself. -/
  | plain (b : UInt8) (shown : ¬ b < 32) (unquoted : b ≠ 34) (unescaped : b ≠ 92)
  /-- A letter that stands for a byte, behind a backslash. -/
  | letter (l b : UInt8) (stands : Literal.letter? l = some b)
  /-- Four hexadecimal digits. -/
  | code (digits : Bytes) (n : Nat) (spells : codeUnit? digits = some n)

namespace Glyph

def bytes : Glyph → Bytes
  | plain b .. => [b]
  | letter l .. => [92, l]
  | code digits .. => 92 :: 117 :: digits

def spell (gs : List Glyph) : Bytes := gs.flatMap bytes

def quoted (gs : List Glyph) : Bytes := 34 :: (spell gs ++ [34])

/-- The character of a leading and a trailing surrogate. -/
def paired (lead trail : Nat) : Char :=
  .ofNat (0x10000 + (lead - 0xD800) * 0x400 + (trail - 0xDC00))

/-- The bytes that glyphs stand for, unless a surrogate stands alone. -/
def decoded? : List Glyph → Option Bytes
  | [] => some []
  | plain b .. :: rest => (decoded? rest).map (b :: ·)
  | letter _ b _ :: rest => (decoded? rest).map (b :: ·)
  | code _ n .. :: rest =>
    if Literal.IsTrail n then none
    else if Literal.IsLead n then
      -- what follows has to be the other half of the pair
      match rest with
      | code _ m .. :: rest =>
        if Literal.IsTrail m then
          (decoded? rest).map (Bytes.ofText (paired n m).toString ++ ·)
        else none
      | _ => none
    else (decoded? rest).map (Bytes.ofText (Char.ofNat n).toString ++ ·)

/-- The text that glyphs stand for, unless it is not UTF-8. -/
def text? (gs : List Glyph) : Option String := (decoded? gs).bind Bytes.text?

end Glyph

/-! ## Numbers -/

/-- Decimal digits, at least one. -/
def Digits (s : Bytes) : Prop := s ≠ [] ∧ ∀ b ∈ s, Bytes.isDigit b

instance (s : Bytes) : Decidable (Digits s) :=
  have : Decidable (∀ b ∈ s, Bytes.isDigit b) := List.decidableBAll _ s
  inferInstanceAs (Decidable (_ ∧ _))

/-- The number that decimal digits spell. -/
def digitsValue (s : Bytes) : Nat := s.foldl (fun n b => 10 * n + Bytes.digit b) 0

structure Exponent where
  mark : UInt8
  sign : Option UInt8
  digits : Bytes
  isMark : mark = 101 ∨ mark = 69
  isSign : ∀ b ∈ sign, b = 43 ∨ b = 45
  areDigits : Digits digits

/-- A number as it is written; one of several digits does not start with a zero. -/
structure Numeral where
  negative : Bool
  whole : Bytes
  fraction : Option Bytes
  exponent : Option Exponent
  areDigits : Digits whole
  noZero : whole.head? = some 48 → whole = [48]
  areFraction : ∀ s ∈ fraction, Digits s

namespace Exponent

def bytes (e : Exponent) : Bytes := e.mark :: (e.sign.toList ++ e.digits)

def minus (e : Exponent) : Bool := e.sign = some 45

def value (e : Exponent) : Int :=
  if e.minus then -(digitsValue e.digits : Nat) else (digitsValue e.digits : Nat)

end Exponent

namespace Numeral

def bytes (x : Numeral) : Bytes :=
  (if x.negative then [45] else []) ++ x.whole ++ x.fraction.elim [] (46 :: ·) ++
    x.exponent.elim [] Exponent.bytes

/-- A significand scaled by a power of ten, if it does not grow too great. Each operation rounds. -/
def scaled? (negative : Bool) (n : Nat) (scale : Int) : Option Number :=
  ((Binary64.ofNat negative n).scale? scale).map .float

/-- What an exponent makes of a significand that has a scale already. One of more than 31 bits makes
zero of what it does not make too great. -/
def raised? (negative : Bool) (n : Nat) (scale : Int) (minus : Bool) (power : Nat) :
    Option Number :=
  if power < Word.count 31 then
    scaled? negative n (if minus then scale - power else scale + power)
  else if n ≠ 0 ∧ minus = false then none
  else some (.float (.zero negative))

/-- The number made by a fraction and an exponent behind the digits `n`, after which `dropped` were
left out. -/
def behind? (negative : Bool) (n dropped : Nat) (fraction : Option Bytes)
    (exponent : Option Exponent) : Option Number :=
  let all := Scan.gather n (fraction.getD [])
  let scale : Int := dropped - all.1.2
  match exponent with
  | some e => raised? negative all.1.1 scale e.minus (digitsValue e.digits)
  | none =>
    if fraction = none ∧ dropped = 0 then some (Scan.wholeNumber negative n)
    else scaled? negative all.1.1 scale

/-- The number that a numeral stands for: its first digits, as many as 64 bits hold, scaled by the
power of ten that the others and the exponent make up. There is none if it grows too great. -/
def number? (x : Numeral) : Option Number :=
  let whole := Scan.gather 0 x.whole
  behind? x.negative whole.1.1 whole.2.length x.fraction x.exponent

/-- The number nearest to what all digits of a numeral say, rounded once. There is none if it is too
great. -/
def nearest? (x : Numeral) : Option Number :=
  let n := digitsValue (x.whole ++ x.fraction.getD [])
  if x.fraction = none ∧ x.exponent.isNone ∧ n < Word.count 64 then
    some (Scan.wholeNumber x.negative n)
  else
    (Binary64.ofDecimal? x.negative n
      (x.exponent.elim 0 Exponent.value - (x.fraction.getD []).length)).map .float

end Numeral

/-! ## Values -/

/-- A value as it is written; members of an object may have the same key. -/
inductive Form where
  | null
  | bool (b : Bool)
  | number (x : Numeral)
  | text (gs : List Glyph)
  | list (items : List Form)
  | object (members : List (List Glyph × Form))

/-- A colon, and what stands behind it. -/
def Spelling.behind (p : Spelling) : Spelling :=
  fun s => ∃ b t, Blank b ∧ p.Spaced t ∧ s = b ++ 58 :: t

/-- A key, a colon and a value. -/
def Spelling.member (key : List Glyph) (value : Spelling) : Spelling :=
  fun s => ∃ t, value.behind t ∧ s = Glyph.quoted key ++ t

namespace Form

mutual

/-- How a form may be spelled. -/
def Spells : Form → Spelling
  | null => fun s => s = [110, 117, 108, 108]
  | bool true => fun s => s = [116, 114, 117, 101]
  | bool false => fun s => s = [102, 97, 108, 115, 101]
  | number x => fun s => s = x.bytes
  | text gs => fun s => s = Glyph.quoted gs
  | list items => .enclosed .list (itemSpellings items)
  | object members => .enclosed .object (memberSpellings members)

def itemSpellings : List Form → List Spelling
  | [] => []
  | f :: rest => f.Spells :: itemSpellings rest

def memberSpellings : List (List Glyph × Form) → List Spelling
  | [] => []
  | (key, f) :: rest => .member key f.Spells :: memberSpellings rest

end

mutual

/-- How many containers stand within each other. -/
def depth : Form → Nat
  | list items => itemsDepth items + 1
  | object members => membersDepth members + 1
  | _ => 0

def itemsDepth : List Form → Nat
  | [] => 0
  | f :: rest => max f.depth (itemsDepth rest)

def membersDepth : List (List Glyph × Form) → Nat
  | [] => 0
  | (_, f) :: rest => max f.depth (membersDepth rest)

end

variable (convert : Numeral → Option Number)

mutual

/-- The value that a form stands for, if numbers are converted so. Its objects have the members that
are written, in that order. -/
def value? : Form → Option Json
  | null => some .null
  | bool b => some (.bool b)
  | number x => (convert x).map .number
  | text gs => (Glyph.text? gs).map .text
  | list items => (items? items).map .list
  | object members => (members? members).map .object

def items? : List Form → Option (List Json)
  | [] => some []
  | f :: rest => do return (← value? f) :: (← items? rest)

def members? : List (List Glyph × Form) → Option Members
  | [] => some []
  | (key, f) :: rest => do return (← Glyph.text? key, ← value? f) :: (← members? rest)

end

end Form

end HotSwap.Json

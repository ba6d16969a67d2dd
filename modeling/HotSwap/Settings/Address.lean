import HotSwap.Decimal.Digits
import HotSwap.Settings.Basic

/-!
# Addresses to listen on

A host that is a literal of the Internet protocol, version four or six, is the address itself.
-/

namespace HotSwap

inductive Address where
  /-- Four bytes. -/
  | v4 (bytes : List Nat)
  /-- Eight groups of sixteen bits. -/
  | v6 (groups : List Nat)
  deriving DecidableEq, Repr

namespace Address

def splitAt (mark : Char) : List Char → List (List Char)
  | [] => [[]]
  | c :: rest =>
    if c = mark then [] :: splitAt mark rest
    else
      match splitAt mark rest with
      | [] => [[c]]
      | first :: others => (c :: first) :: others

def byte? (cs : List Char) : Option Nat :=
  if cs = [] ∨ 3 < cs.length ∨ cs.any (!·.isDigit) ∨ (1 < cs.length ∧ cs.head? = some '0') then none
  else
    let n := Digits.value cs
    if n < 256 then some n else none

def bytes? (cs : List Char) : Option (List Nat) :=
  match (splitAt '.' cs).mapM byte? with
  | some [a, b, c, d] => some [a, b, c, d]
  | _ => none

def group? (cs : List Char) : Option Nat :=
  if cs = [] ∨ 4 < cs.length then none
  else Bytes.hexText? cs

/-- Groups between colons, of which the last may be written as four bytes. -/
def groups? : List (List Char) → Option (List Nat)
  | [] => some []
  | [last] =>
    match group? last with
    | some g => some [g]
    | none =>
      match bytes? last with
      | some [a, b, c, d] => some [a * 256 + b, c * 256 + d]
      | _ => none
  | g :: rest => do return (← group? g) :: (← groups? rest)

def part? (cs : List Char) : Option (List Nat) :=
  if cs = [] then some [] else groups? (splitAt ':' cs)

/-- The text before and behind the first double colon. -/
def splitGap : List Char → Option (List Char × List Char)
  | [] => none
  | ':' :: ':' :: rest => some ([], rest)
  | c :: rest => (splitGap rest).map fun t => (c :: t.1, t.2)

def parse? (host : String) : Option Address :=
  let cs := host.toList
  match bytes? cs with
  | some bs => some (v4 bs)
  | none =>
    match splitGap cs with
    | none =>
      match groups? (splitAt ':' cs) with
      | some gs => if gs.length = 8 then some (v6 gs) else none
      | none => none
    | some (front, back) =>
      match part? front, part? back with
      | some f, some b =>
        if '.' ∈ front ∨ 7 < f.length + b.length then none
        else some (v6 (f ++ List.replicate (8 - f.length - b.length) 0 ++ b))
      | _, _ => none

/-- How many zeros the list starts with. -/
def zeros (gs : List Nat) : Nat := (gs.takeWhile (· = 0)).length

/-- Where the first of the longest runs of zeros starts, and its length. -/
def longestGap (gs : List Nat) : Nat × Nat :=
  (List.range gs.length).foldl
    (fun best i => if best.2 < zeros (gs.drop i) then (i, zeros (gs.drop i)) else best) (0, 0)

def dotted (bs : List Nat) : String := ".".intercalate (bs.map toString)

def colons (gs : List Nat) : String :=
  ":".intercalate (gs.map fun g => String.ofList (Nat.toDigits 16 g))

def render : Address → String
  | v4 bs => dotted bs
  | v6 gs =>
    if gs.take 6 = [0, 0, 0, 0, 0, 65535] then
      "::ffff:" ++ dotted ((gs.drop 6).flatMap fun g => [g / 256, g % 256])
    else
      let (start, length) := longestGap gs
      if 1 < length then colons (gs.take start) ++ "::" ++ colons (gs.drop (start + length))
      else colons gs

end Address

structure Endpoint where
  address : Address
  port : UInt16
  deriving DecidableEq

def Endpoint.render (e : Endpoint) : String :=
  match e.address with
  | .v4 _ => e.address.render ++ ":" ++ toString e.port.toNat
  | .v6 _ => "[" ++ e.address.render ++ "]:" ++ toString e.port.toNat

/-- What is wrong with a name where none is known. -/
def Address.unknownName (host : String) : String :=
  if '\x00' ∈ host.toList then "file name contained an unexpected NUL byte"
  else "failed to lookup address information: Name or service not known"

/-- Where no name is known, a host is an address itself or stands for none. -/
def Address.lookUp (host : String) (port : UInt16) : Except String (List Endpoint) :=
  match Address.parse? host with
  | some a => .ok [⟨a, port⟩]
  | none => .error (unknownName host)

namespace Settings

/-- The first of the addresses that were found for the host. -/
def chosen (s : Settings) : Except String (List Endpoint) → Except String Endpoint
  | .error reason => .error ("Invalid listen host " ++ s.host ++ ": " ++ reason)
  | .ok [] => .error ("Listen host " ++ s.host ++ " resolved to no address")
  | .ok (e :: _) => .ok e

def endpoint (s : Settings) : Except String Endpoint :=
  s.chosen (Address.lookUp s.host s.port)

end Settings

end HotSwap

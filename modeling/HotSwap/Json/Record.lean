import HotSwap.Json.Pass
import HotSwap.Json.Reader

/-!
# Records

A record is an object with known members, of which each may occur once and others are passed over,
or a list of its fields in order. Fields are gathered in a draft, which is finished at the end.
-/

namespace HotSwap.Json

structure Field (δ : Type) where
  key : String
  /-- A list may end before this field. -/
  optional : Bool
  given : δ → Bool
  read : δ → Reader δ

structure Record (δ α : Type) where
  name : String
  fields : List (Field δ)
  blank : δ
  /-- The record that a draft stands for, or the field that is missing. -/
  finish : δ → Except String α

namespace Record

variable {δ α : Type}

def expected (r : Record δ α) : String := "struct " ++ r.name

def expectedItems (r : Record δ α) : String :=
  r.expected ++ " with " ++ toString r.fields.length ++
    (if r.fields.length = 1 then " element" else " elements")

def finished (r : Record δ α) (draft : δ) : Scan α :=
  match r.finish draft with
  | .ok a => pure a
  | .error key => Scan.reject (.missingField key)

def member (r : Record δ α) (depth : Nat) (draft : δ) : Scan δ := do
  let k ← Scan.key
  match r.fields.find? (·.key = k) with
  | none =>
    Scan.colon
    Scan.pass
    return draft
  | some f =>
    if f.given draft then Scan.reject (.duplicateField k)
    else
      Scan.colon
      f.read draft depth

/-- The fields left, of which the first is number `i` of a list. -/
def items (r : Record δ α) (depth : Nat) : Nat → List (Field δ) → δ → Scan δ
  | _, [], draft => pure draft
  | i, f :: rest, draft => do
    if ← Bracket.list.next (i = 0) then items r depth (i + 1) rest (← f.read draft depth)
    else if f.optional then items r depth (i + 1) rest draft
    else Scan.reject (.wrongLength i r.expectedItems)

def reader (r : Record δ α) : Reader α := fun depth => do
  match ← Scan.look with
  | some 91 =>
    Reader.around .list (fun depth => do
      r.finished (← r.items depth 0 r.fields r.blank)) depth
  | some 123 =>
    Reader.around .object (fun depth => do
      r.finished (← Bracket.object.fold (r.member depth) r.blank)) depth
  | _ => Reader.mismatch r.expected

end Record

/-- A field that has to be there. -/
def required {α : Type} (key : String) : Option α → Except String α
  | some a => .ok a
  | none => .error key

end HotSwap.Json

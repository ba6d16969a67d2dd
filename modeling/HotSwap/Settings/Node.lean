import HotSwap.Settings.Entry

/-!
# Documents before their scalars

A document is read as a whole before its scalars are looked at, each of which may be refused.
-/

namespace HotSwap

inductive Node where
  | scalar (x : Except String Scalar)
  | list (items : List Node)
  | table (members : List (String × Node))

namespace Node

def null : Node := scalar (.ok .null)

def text (s : List Char) : Node := scalar (.ok (.text (String.ofList s)))

/-- Puts a member before others. One of them with the same key comes later, and is kept. -/
def putEarlier {α : Type} (key : String) (value : α) (members : List (String × α)) :
    List (String × α) :=
  if (getMember? key members).isSome then members else putMember key value members

mutual

def entry (origin : Option String) : Node → Except String Entry
  | scalar x => x.map (.scalar origin)
  | list items => (entries origin items).map (.list origin)
  | table members => (memberEntries origin members).map (.table origin)

def entries (origin : Option String) : List Node → Except String (List Entry)
  | [] => .ok []
  | v :: rest =>
    match entry origin v with
    | .error e => .error e
    | .ok e => (entries origin rest).map (e :: ·)

def memberEntries (origin : Option String) :
    List (String × Node) → Except String (List (String × Entry))
  | [] => .ok []
  | (k, v) :: rest =>
    match entry origin v with
    | .error e => .error e
    | .ok e => (memberEntries origin rest).map ((k, e) :: ·)

end

end Node

end HotSwap

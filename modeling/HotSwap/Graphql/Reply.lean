import HotSwap.Graphql.Library
import HotSwap.Graphql.Response

/-!
# Requests and replies

A request is an inquiry of the library that a schema belongs to, and the errors of its reply are
those of a response: an empty list is no list at all, while empty extensions stay what they are.
-/

namespace HotSwap.Graphql

def Place.toLocation (p : Place) : Location := ⟨p.line, p.column⟩

def Segment.toPathSegment : Segment → PathSegment
  | .field name => .field name
  | .index i => .index i

namespace Library

variable {L : Library}

def Inquiry.ofRequest (r : Request) : L.Inquiry :=
  let q : L.Inquiry := ⟨r.query, none, L.readVariables (.object r.values)⟩
  match r.operationName with
  | some name => q.named name
  | none => q

/-- Extensions that are not written as an object are left out. -/
def Error.toError (e : L.Error) : Graphql.Error :=
  let converted := Graphql.Error.ofMessage e.message
  let converted :=
    if e.places = [] then converted
    else converted.withLocations (e.places.map Place.toLocation)
  let converted :=
    if e.path = [] then converted
    else converted.withPath (e.path.map Segment.toPathSegment)
  match e.extensions.bind fun extensions => (L.writeExtensions extensions).toOption with
  | some (.object members) => { converted with extensions := some members }
  | _ => converted

end Library

/-! Replies that are written down. -/

namespace ReplyError

def placeOf (v : Json) : Place :=
  let nat (key : String) : Nat :=
    match v.member? key with
    | some (.number (.int n)) => n.toNat
    | _ => 0
  ⟨nat "line", nat "column"⟩

def segmentOf : Json → Option Segment
  | .text s => some (.field s)
  | .number (.int n) => some (.index n.toNat)
  | _ => none

def itemsOf : Option Json → List Json
  | some (.list items) => items
  | _ => []

def ofJson (v : Json) : ReplyError where
  message := match v.member? "message" with
    | some (.text s) => s
    | _ => ""
  places := (itemsOf (v.member? "locations")).map placeOf
  path := (itemsOf (v.member? "path")).filterMap segmentOf
  extensions := match v.member? "extensions" with
    | some (.object members) => some members
    | _ => none

end ReplyError

def Reply.ofJson (v : Json) : Reply where
  data := (v.member? "data").getD .null
  errors := (ReplyError.itemsOf (v.member? "errors")).map ReplyError.ofJson

end HotSwap.Graphql

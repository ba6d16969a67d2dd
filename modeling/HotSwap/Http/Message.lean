import HotSwap.Text.Bytes

/-!
# Messages

A request names a method and a target; a response has a status, headers and a body.
-/

namespace HotSwap.Http

structure Request where
  method : String
  target : String
  body : Bytes
  deriving DecidableEq

structure Header where
  name : String
  value : String
  deriving DecidableEq, Repr

structure Response where
  status : Nat
  headers : List Header
  body : Bytes
  deriving DecidableEq

namespace Header

def length (body : Bytes) : Header := ⟨"content-length", toString body.length⟩

def type (value : String) : Header := ⟨"content-type", value⟩

def atMost (a b : Header) : Bool := a.name < b.name || (a.name == b.name && a.value ≤ b.value)

/-- In ascending order of names, then of values. -/
def sorted (hs : List Header) : List Header := hs.mergeSort atMost

end Header

namespace Response

/-- A response with content of some type. -/
def content (status : Nat) (type : String) (body : Bytes) : Response :=
  ⟨status, [.type type, .length body], body⟩

def plainType : String := "text/plain; charset=utf-8"

def pageType : String := "text/html; charset=utf-8"

def jsonType : String := "application/json"

def text (status : Nat) (s : String) : Response := content status plainType (Bytes.ofText s)

def page (s : String) : Response := content 200 pageType (Bytes.ofText s)

def empty (status : Nat) : Response := ⟨status, [.length []], []⟩

def withoutBody (r : Response) : Response := { r with body := [] }

def withHeaders (r : Response) (hs : List Header) : Response :=
  { r with headers := hs ++ r.headers }

end Response

end HotSwap.Http

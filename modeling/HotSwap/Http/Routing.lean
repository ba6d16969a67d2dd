import HotSwap.Http.Asset
import HotSwap.Http.Message
import HotSwap.Http.Target

/-!
# Routing

A path is that of a route or of none, and a route has one method, next to which the headers of a
page can be asked for. What needs the engine is left to do; all else is answered at once.
-/

namespace HotSwap.Http

inductive Route where
  | root
  | health
  | graphql
  | reload
  | status
  | editor
  | noAsset
  /-- The name of the asset as it was sent. -/
  | asset (file : List Char)
  deriving DecidableEq

/-- What is left to do for a request. -/
inductive Plan where
  | respond (r : Response) (warning : Option String)
  | query (body : Bytes)
  | reload
  | status

namespace Request

/-- The path of the target, without the query. A target that is only a name or is refused has
none. -/
def path (r : Request) : List Char := (Target.path? r.target).getD []

end Request

namespace Route

def fixed : List (String × Route) := [
  ("/", root),
  ("/health", health),
  ("/graphql", graphql),
  ("/reload", reload),
  ("/status", status),
  ("/graphiql", editor),
  ("/js", noAsset),
  ("/js/", noAsset)]

def ofPath? (path : List Char) : Option Route :=
  match fixed.find? (·.1.toList = path) with
  | some f => some f.2
  | none =>
    match path with
    | '/' :: 'j' :: 's' :: '/' :: file => if '/' ∈ file then none else some (asset file)
    | _ => none

/-- The routes that a message is posted to. -/
def IsPost (r : Route) : Prop := r = graphql ∨ r = reload

instance (r : Route) : Decidable r.IsPost := inferInstanceAs (Decidable (_ ∨ _))

def allowed (r : Route) : String := if r.IsPost then "POST" else "GET,HEAD"

def Allows (r : Route) (method : String) : Prop :=
  if r.IsPost then method = "POST" else method = "GET" ∨ method = "HEAD"

instance (r : Route) (method : String) : Decidable (r.Allows method) := by
  unfold Allows
  infer_instance

/-- The bytes behind percent signs; a sign without two digits stands for itself. -/
def decode : Bytes → Bytes
  | [] => []
  | 37 :: a :: b :: rest =>
    match Bytes.hexDigit? a, Bytes.hexDigit? b with
    | some x, some y => (16 * x + y).toUInt8 :: decode rest
    | _, _ => 37 :: decode (a :: b :: rest)
  | b :: rest => b :: decode rest

def assetPlan (file : List Char) : Plan :=
  match Bytes.text? (decode (Bytes.ofText (String.ofList file))) with
  | none => .respond (.text 400 "Invalid URL: Invalid UTF-8 in `file`") none
  | some name =>
    match Asset.script? name with
    | some s => .respond (.content 200 (Asset.contentType name) (Bytes.ofText s)) none
    | none =>
      .respond (.text 404 ("File not found: " ++ name))
        (some ("Static resource not found: /js/" ++ name))

/-- The longest body that is read. -/
def bodyLimit : Nat := 2097152

def tooLong : Response := .text 413 "Failed to buffer the request body: length limit exceeded"

def plan (r : Route) (body : Bytes) : Plan :=
  match r with
  | root => .respond (.page Asset.redirect) none
  | health => .respond (.text 200 "OK") none
  | graphql => if bodyLimit < body.length then .respond tooLong none else .query body
  | reload => .reload
  | status => .status
  | editor => .respond (.page Asset.editor) none
  | noAsset => .respond (.text 400 "File parameter missing") none
  | asset file => assetPlan file

end Route

namespace Request

def route? (r : Request) : Option Route := Route.ofPath? r.path

/-- What is left to do without sharing across origins. -/
def planDirect (r : Request) : Plan :=
  match r.route? with
  | none => .respond (.empty 404) none
  | some route =>
    if route.Allows r.method then route.plan r.body
    else .respond ((Response.empty 405).withHeaders [⟨"allow", route.allowed⟩]) none

/-- The answer to a browser that asks what it may send. -/
def preflight (r : Request) : Response :=
  (Response.empty 200).withHeaders <|
    [⟨"access-control-allow-headers", "content-type"⟩,
      ⟨"access-control-allow-methods", "GET,POST"⟩] ++
    r.route?.toList.map fun route => ⟨"allow", route.allowed⟩

/-- With sharing across origins every request for options is answered at once. -/
def plan (cors : Bool) (r : Request) : Plan :=
  if cors ∧ r.method = "OPTIONS" then .respond r.preflight none else r.planDirect

def sharing : List Header := [
  ⟨"access-control-allow-origin", "*"⟩,
  ⟨"vary", "access-control-request-headers"⟩,
  ⟨"vary", "access-control-request-method"⟩,
  ⟨"vary", "origin"⟩]

/-- The response as it is sent: without its body if only headers were asked for. -/
def dress (cors : Bool) (r : Request) (response : Response) : Response :=
  let sent := if r.method = "HEAD" then response.withoutBody else response
  if cors then sent.withHeaders sharing else sent

end Request

end HotSwap.Http

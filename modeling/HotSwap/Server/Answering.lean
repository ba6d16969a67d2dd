import HotSwap.Server.Reloading

/-!
# Answering requests

A query is read, looks up the engine in service and keeps to it. Whatever the engine does, the
request gets a response.
-/

namespace HotSwap.Server

def jsonResponse (status : Nat) (v : Json) : Http.Response :=
  .content status Http.Response.jsonType v.bytes

def malformedKind : String := "MalformedRequest"

def malformedMessage (e : Json.ReadError) : String := "Malformed GraphQL request: " ++ e.message

def malformedResponse (e : Json.ReadError) : Http.Response :=
  jsonResponse 400 (Graphql.ErrorBody.exception (malformedMessage e) malformedKind).toJson

def unavailableResponse : Http.Response :=
  jsonResponse 503 (Graphql.ErrorBody.ofMessage "Engine not initialized").toJson

def internalMessage : String := "Internal server error"

def panicKind : String := "Panic"

/-- Nothing of what a panic carries is told to the client. -/
def queryResponse : Outcome → Http.Response
  | .response r => jsonResponse 200 r.toJson
  | .failure kind message =>
    jsonResponse 500 (Graphql.ErrorBody.exception
      (if message = "" then internalMessage else message) kind).toJson
  | .panic _ => jsonResponse 500 (Graphql.ErrorBody.exception internalMessage panicKind).toJson

def panicText : Payload → String
  | .text s => s
  | .other => ""

def logOutcome (s : Server) : Outcome → Server
  | .response _ => s
  | .failure _ message => s.log .error ("Error executing GraphQL query: " ++ message)
  | .panic p => s.log .error ("Engine panicked executing GraphQL query: " ++ panicText p)

def logQuery (s : Server) (input : Graphql.Request) : Server :=
  if input.Introspects then s.log .info "Received schema introspection query from GraphiQL"
  else s.log .debug ("Executing GraphQL query: " ++ input.query)

def queryArriving (s : Server) (c : CallId) (r : Http.Request) (body : Bytes) : Server :=
  match Graphql.Request.parse body with
  | .error e => (s.log .debug ("Rejecting request: " ++ malformedMessage e)).respond c r
    (malformedResponse e)
  | .ok input => s.proceedTo c (.query r (.parsed input))

def queryParsed (s : Server) (c : CallId) (r : Http.Request) (input : Graphql.Request) : Server :=
  match s.slot with
  | none => s.respond c r unavailableResponse
  | some i => (s.logQuery input).proceedTo c (.query r (.holding i input))

def queryStep (s : Server) (c : CallId) (r : Http.Request) : Query.Stage → Server
  | .arriving body => s.queryArriving c r body
  | .parsed input => s.queryParsed c r input
  | .holding i input =>
    (s.note (.executed c i input)).proceedTo c (.query r (.executing i input))
  | .executing i input =>
    let outcome := i.engine.execute input
    (s.logOutcome outcome).respond c r (queryResponse outcome)

/-- What is told of the status while `current` is installed. -/
def statusJson (s : Server) (current : Option Installation) : Json :=
  .object <| [
    ("provider", .ofOption (fun i => .text i.provider) current),
    ("installed_at", .ofOption (fun i => .text (s.setup.clock i.installedAt)) current)] ++
    s.status.members s.setup.clock

def requestStep (s : Server) (c : CallId) (r : Http.Request) : Server :=
  match r.plan s.setup.cors with
  | .respond response warning =>
    let told := match warning with
      | some text => s.log .warn text
      | none => s
    told.respond c r response
  | .query body => s.proceedTo c (.query r (.arriving body))
  | .reload => s.proceedTo c (.reload (.http r) .arriving)
  | .status => s.proceedTo c (.status r)

end HotSwap.Server

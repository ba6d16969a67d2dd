import HotSwap.Proofs.Graphql.ResponseRoundTrip
import HotSwap.Proofs.Routing
import HotSwap.Server.Answering

/-!
# What responses tell

An error is told in a body with one entry, from which its message and its kind are read back. What
a panic carries is not told.
-/

namespace HotSwap

open Graphql

/-- The body that tells of one error. -/
def Graphql.ErrorBody.single (message : String) (kind : Option String) : ErrorBody :=
  ⟨[⟨message, kind.map fun k => [("exception", .text k)]⟩]⟩

theorem Graphql.ErrorBody.read_single (message : String) (kind : Option String) :
    ErrorBody.reader.read (single message kind).toJson.bytes = .ok (single message kind) := by
  refine ErrorBody.read_bytes (fun e there => ?_) ?_ ?_
  · cases List.mem_singleton.mp there
    cases kind with
    | none => nofun
    | some k =>
      rintro _ ⟨⟩
      rfl
  · cases kind <;> simp [ErrorBody.toJson, ErrorEntry.toJson, single]
  · cases kind <;> exact Nat.le_of_ble_eq_true rfl

/-- The response tells of one error, whose message is not empty. -/
structure Http.Response.Reports (response : Http.Response) (status : Nat) (message : String)
    (kind : Option String) : Prop where
  status_eq : response.status = status
  read : ErrorBody.reader.read response.body = .ok (.single message kind)
  nonempty : message ≠ ""

namespace Server

variable {message : String} {kind : Option String} {r : Http.Request} {response : Http.Response}
  {status : Nat}

theorem reports_single (status : Nat) (kind : Option String) (nonempty : message ≠ "") :
    (jsonResponse status (ErrorBody.single message kind).toJson).Reports status message kind :=
  ⟨rfl, ErrorBody.read_single message kind, nonempty⟩

/-- What is sent to who posted a message tells the same. -/
theorem reports_dress (reports : response.Reports status message kind) (posted : r.method = "POST")
    (cors : Bool) : (r.dress cors response).Reports status message kind where
  status_eq := (r.status_dress cors response).trans reports.status_eq
  read := by
    rw [Http.Request.body_dress posted]
    exact reports.read
  nonempty := reports.nonempty

theorem reports_malformed (e : Json.ReadError) :
    (malformedResponse e).Reports 400 (malformedMessage e) (some malformedKind) := by
  have nonempty : malformedMessage e ≠ "" := fun empty =>
    absurd (String.append_eq_empty_iff.mp empty).1 (by decide)
  exact reports_single 400 (some malformedKind) nonempty

theorem reports_unavailable :
    unavailableResponse.Reports 503 "Engine not initialized" none :=
  reports_single 503 none (by decide)

/-- The one response to all panics. -/
def panicResponse : Http.Response :=
  jsonResponse 500 (ErrorBody.exception internalMessage panicKind).toJson

/-- What a failure is told as; there is always something to tell. -/
def failureMessage (message : String) : String := if message = "" then internalMessage else message

theorem failureMessage_ne (message : String) : failureMessage message ≠ "" := by
  unfold failureMessage
  split
  · decide
  · next told => exact told

/-- What a client is told of an execution. -/
inductive Tells (cors : Bool) (r : Http.Request) : Outcome → Http.Response → Prop
  /-- The result is told as an object with data and a list of errors. -/
  | result {result : Graphql.Response} {errors : List Json} {response : Http.Response}
      (status : response.status = 200) (body : response.body = result.toJson.bytes)
      (members : result.toJson = .object [("data", result.data), ("errors", .list errors)]) :
      Tells cors r (.response result) response
  | failure {kind message : String} {response : Http.Response}
      (reports : response.Reports 500 (failureMessage message) (some kind)) :
      Tells cors r (.failure kind message) response
  | panic (p : Payload)
      (reports : (r.dress cors panicResponse).Reports 500 internalMessage (some panicKind)) :
      Tells cors r (.panic p) (r.dress cors panicResponse)

theorem tells_queryResponse (posted : r.method = "POST") (cors : Bool) (outcome : Outcome) :
    Tells cors r outcome (r.dress cors (queryResponse outcome)) := by
  cases outcome with
  | response result =>
    refine .result (r.status_dress cors _) ?_ rfl
    exact Http.Request.body_dress posted cors _
  | failure kind message =>
    have reports := reports_single 500 (some kind) (failureMessage_ne message)
    exact .failure (reports_dress reports posted cors)
  | panic p =>
    have nonempty : internalMessage ≠ "" := by decide
    exact .panic p (reports_dress (reports_single 500 (some panicKind) nonempty) posted cors)

end Server

end HotSwap

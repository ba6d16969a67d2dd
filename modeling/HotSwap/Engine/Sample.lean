import HotSwap.Decimal.Word
import HotSwap.Engine.Adapter
import HotSwap.Graphql.Execution

/-!
# Engines to try things with

Engines over a schema, engines with a fixed outcome, and engines that echo what they are given.
-/

namespace HotSwap.Engine

/-- An engine over what replies to inquiries. -/
def ofReplies (tag : Nat) (reply : Graphql.Inquiry → Graphql.Reply) : Engine :=
  .pure tag fun r => Id.run (ask (fun q => Pure.pure (reply q)) r)

/-- The same, noting what it is asked. -/
def notingRequests (tag : Nat) (reply : Graphql.Inquiry → Graphql.Reply) : Engine :=
  { ofReplies tag reply with noted := .requests }

def ofSchema (tag : Nat) (schema : Graphql.Schema) : Engine :=
  ofReplies tag (Graphql.Execution.reply schema)

def withTag (tag : Nat) : Json := .object [("generation", .nat tag)]

def generation (tag : Nat) : Graphql.Request → Outcome := fun _ =>
  .response (.ofData (withTag tag))

def plain (tag : Nat) : Engine :=
  .pure tag fun _ => .response (.ofData (.object [("plain", .nat tag)]))

/-- What was asked, as data. -/
def echo : Graphql.Request → Outcome := fun r =>
  .response <| .ofData <| .object [
    ("input", r.toJson.sorted),
    ("introspection", .bool r.Introspects)]

namespace Sample

open Graphql

def intOf (args : Json.Members) (name : String) : Int :=
  match getMember? name args with
  | some (.number (.int n)) => n
  | _ => 0

def textOf (args : Json.Members) (name : String) : String :=
  match getMember? name args with
  | some (.text s) => s
  | _ => ""

def int : TypeRef := .required (.named "Int")

def text : TypeRef := .required (.named "String")

def item : ObjectType := ⟨"Item", [
  ⟨"id", [], int, fun source _ => .leaf ((source.member? "id").getD .null)⟩]⟩

def indices (n : Int) : List Nat := List.range n.toNat

def fields (tag : Nat) : List FieldDefinition := [
  ⟨"greeting", [], text, fun _ _ => .leaf (.text "hi")⟩,
  ⟨"generation", [], int, fun _ _ => .leaf (.nat tag)⟩,
  ⟨"echo", [⟨"text", text, none⟩], text, fun _ args => .leaf (.text (textOf args "text"))⟩,
  ⟨"add", [⟨"a", int, none⟩, ⟨"b", int, some (.int 2)⟩], int, fun _ args =>
    .leaf (.int (Int.bmod (intOf args "a" + intOf args "b") (Word.count 32)))⟩,
  ⟨"items", [⟨"n", int, none⟩], .required (.list (.required (.named "Item"))), fun _ args =>
    .list ((indices (intOf args "n")).map fun i => .object (.object [("id", .nat i)]))⟩,
  ⟨"fail", [⟨"message", text, none⟩], .named "Int", fun _ args =>
    .failure (textOf args "message") none⟩,
  ⟨"failWith", [⟨"message", text, none⟩, ⟨"code", int, none⟩], .named "Int", fun _ args =>
    .failure (textOf args "message") (some [("code", .int (intOf args "code"))])⟩,
  ⟨"failItems", [⟨"n", int, none⟩], .required (.list (.named "Int")), fun _ args =>
    .list ((indices (intOf args "n")).map fun i =>
      if i % 2 = 0 then .leaf (.nat i) else .failure "odd" none)⟩]

def schema (tag : Nat) : Schema := ⟨⟨"Query", fields tag⟩, [item]⟩

end Sample

/-- The schema of the program when it runs on its own. -/
def demoSchema (generation : Nat) : Graphql.Schema :=
  ⟨⟨"DemoQuery", [
    ⟨"greeting", [], Sample.text, fun _ _ => .leaf (.text "Hello from DevServe")⟩,
    ⟨"generation", [], Sample.int, fun _ _ => .leaf (.nat generation)⟩]⟩, []⟩

end HotSwap.Engine

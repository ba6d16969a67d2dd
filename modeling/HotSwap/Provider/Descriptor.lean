import HotSwap.Json.Printer
import HotSwap.Json.Record

/-!
# What is known of a provider candidate

A candidate qualifies if it provides engines and can be made without arguments.
-/

namespace HotSwap

structure Descriptor where
  name : String
  implementsProvider : Bool
  hasDefaultConstructor : Bool
  deriving DecidableEq, Repr

namespace Descriptor

def Qualifies (d : Descriptor) : Prop := d.implementsProvider ∧ d.hasDefaultConstructor

instance (d : Descriptor) : Decidable d.Qualifies := inferInstanceAs (Decidable (_ ∧ _))

def toJson (d : Descriptor) : Json :=
  .object [
    ("name", .text d.name),
    ("implements_provider", .bool d.implementsProvider),
    ("has_default_constructor", .bool d.hasDefaultConstructor)]

def render (d : Descriptor) : String :=
  Text.braced "ProviderDescriptor" [
    ("name", Text.quoted d.name),
    ("implements_provider", toString d.implementsProvider),
    ("has_default_constructor", toString d.hasDefaultConstructor)]

structure Draft where
  name : Option String
  implementsProvider : Option Bool
  hasDefaultConstructor : Option Bool

def shape : Json.Record Draft Descriptor where
  name := "ProviderDescriptor"
  fields := [
    { key := "name"
      optional := false
      given := fun d => d.name.isSome
      read := fun d _ => do return { d with name := some (← Json.Reader.text "a string") } },
    { key := "implements_provider"
      optional := false
      given := fun d => d.implementsProvider.isSome
      read := fun d _ => do return { d with implementsProvider := some (← Json.Reader.bool) } },
    { key := "has_default_constructor"
      optional := false
      given := fun d => d.hasDefaultConstructor.isSome
      read := fun d _ => do return { d with hasDefaultConstructor := some (← Json.Reader.bool) } }]
  blank := ⟨none, none, none⟩
  finish := fun d => do
    let name ← Json.required "name" d.name
    let implementsProvider ← Json.required "implements_provider" d.implementsProvider
    return ⟨name, implementsProvider,
      ← Json.required "has_default_constructor" d.hasDefaultConstructor⟩

def reader : Json.Reader Descriptor := shape.reader

end Descriptor

/-- What the constructor of a provider is told. -/
structure Context where
  classpath : List String
  /-- That the engine made with it will have. -/
  generation : Nat
  deriving DecidableEq, Repr

namespace Context

def empty : Context := ⟨[], 0⟩

def render (c : Context) : String :=
  Text.braced "ProviderContext" [
    ("classpath", Text.bracketed (c.classpath.map Text.quotedPath)),
    ("generation", toString c.generation)]

end Context

end HotSwap

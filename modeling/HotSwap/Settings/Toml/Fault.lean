/-!
# Faults of a TOML document

A reader that stops tells what is wrong and what it has not read; from this the line and the column
are counted.
-/

namespace HotSwap.Toml

/-- What is wrong, and the part of the document that was not read. -/
structure Fault where
  message : String
  rest : List Char

def fail {α : Type} (message : String) (rest : List Char) : Except Fault α := .error ⟨message, rest⟩

def outOfRange : String := "value is out of range"

/-- The line that holds a place, its number, and how many characters stand before the place. -/
def locate (input rest : List Char) : Nat × Nat × List Char :=
  let read := input.take (input.length - rest.length)
  let before := (read.reverse.takeWhile (· ≠ '\n')).length
  let number := read.count '\n' + 1
  let line := (input.drop (read.length - before)).takeWhile (· ≠ '\n')
  (number, before, line)

def Fault.render (input : List Char) (f : Fault) : String :=
  let (number, before, line) := locate input f.rest
  let gutter := String.ofList (List.replicate ((toString number).length + 1) ' ')
  "TOML parse error at line " ++ toString number ++ ", column " ++ toString (before + 1) ++ "\n" ++
    gutter ++ "|\n" ++ toString number ++ " | " ++ String.ofList line ++ "\n" ++
    gutter ++ "|" ++ String.ofList (List.replicate (before + 1) ' ') ++ "^\n" ++ f.message ++ "\n"

end HotSwap.Toml

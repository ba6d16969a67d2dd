import HotSwap.Text.Printable

/-!
# Quoted text

A quoted text is readable on one line: the quote, the backslash and characters that do not show
are written as escapes. Texts escape the double quote only, file paths both quotes.
-/

namespace HotSwap.Text

def hexDigits (n : Nat) : String := String.ofList (Nat.toDigits 16 n)

/-- How a character is written between double quotes. -/
def escapeChar (c : Char) : String :=
  match c with
  | '\x00' => "\\0"
  | '\t' => "\\t"
  | '\r' => "\\r"
  | '\n' => "\\n"
  | '"' => "\\\""
  | '\\' => "\\\\"
  | c => if Shows c then c.toString else "\\u\x7b" ++ hexDigits c.toNat ++ "\x7d"

def escapePathChar (c : Char) : String := if c = '\'' then "\\'" else escapeChar c

def quoted (s : String) : String := "\"" ++ String.join (s.toList.map escapeChar) ++ "\""

def quotedPath (s : String) : String := "\"" ++ String.join (s.toList.map escapePathChar) ++ "\""

/-- A bracketed list of the given texts. -/
def bracketed (items : List String) : String := "[" ++ ", ".intercalate items ++ "]"

/-- A record of named fields, written with its name. -/
def braced (name : String) (fields : List (String × String)) : String :=
  name ++ " \x7b " ++ ", ".intercalate (fields.map fun f => f.1 ++ ": " ++ f.2) ++ " \x7d"

end HotSwap.Text

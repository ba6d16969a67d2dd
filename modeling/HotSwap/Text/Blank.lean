/-!
# Blank characters

The characters with the Unicode property White_Space.
-/

namespace HotSwap.Text

def blanks : List Char :=
  ['\t', '\n', '\x0b', '\x0c', '\r', ' ', '\u0085', '\u00a0', '\u1680', '\u2000', '\u2001',
    '\u2002', '\u2003', '\u2004', '\u2005', '\u2006', '\u2007', '\u2008', '\u2009', '\u200a',
    '\u2028', '\u2029', '\u202f', '\u205f', '\u3000']

def IsBlank (c : Char) : Prop := c ∈ blanks

instance (c : Char) : Decidable (IsBlank c) := inferInstanceAs (Decidable (c ∈ blanks))

def dropBlanks (s : List Char) : List Char := s.dropWhile fun c => IsBlank c

end HotSwap.Text

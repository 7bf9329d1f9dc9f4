/-!
# Quoted text

How a character is spelled inside a literal.  Five characters and the delimiting quote are
spelled with a backslash, all others stand for themselves.  Reading accepts both quotes after a
backslash, whichever of them delimits the literal.
-/

namespace Script.Quoted

/-- The spelling of `c` inside a literal that `quote` delimits. -/
def escape (quote c : Char) : List Char :=
  if c = '\n' then ['\\', 'n']
  else if c = '\t' then ['\\', 't']
  else if c = '\r' then ['\\', 'r']
  else if c = '\x00' then ['\\', '0']
  else if c = '\\' ∨ c = quote then ['\\', c]
  else [c]

/-- The character that a backslash and `c` spell together. -/
def unescape? (c : Char) : Option Char :=
  if c = 'n' then some '\n'
  else if c = 't' then some '\t'
  else if c = 'r' then some '\r'
  else if c = '0' then some '\x00'
  else if c = '\\' ∨ c = '"' ∨ c = '\'' then some c
  else none

def encode (quote : Char) (cs : List Char) : List Char :=
  quote :: cs.flatMap (escape quote) ++ [quote]

end Script.Quoted

/-!
# Quoted text

A string literal is written between double quotes. The quote, the backslash, and the three line
characters newline, carriage return and tab are escaped with a backslash; every other character
stands for itself.
-/

namespace Scriptlet.Text

/-- What is written for `c` between the quotes. -/
def escapeChar (c : Char) : List Char :=
  if c = '"' then ['\\', '"']
  else if c = '\\' then ['\\', '\\']
  else if c = '\n' then ['\\', 'n']
  else if c = '\r' then ['\\', 'r']
  else if c = '\t' then ['\\', 't']
  else [c]

/-- The characters between the quotes. -/
def escape (cs : List Char) : List Char := cs.flatMap escapeChar

/-- `text` as a string literal. -/
def quote (text : String) : String :=
  String.ofList ('"' :: (escape text.toList ++ ['"']))

/-- `text` with a space on either side, as an operator stands between its operands. -/
def spaced (text : String) : String := " " ++ text ++ " "

end Scriptlet.Text

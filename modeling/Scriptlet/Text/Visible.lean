import Scriptlet.Text.Printable

/-!
# Text made visible

Messages show a piece of the input so that nothing in it is lost to the reader: line characters,
the null character, the backslash and the enclosing quote are written with a backslash, and
whatever is not printable by its code point in braces.

* `inspect` — a string between double quotes;
* `inspectChar` — a character between single quotes.
-/

namespace Scriptlet.Text

/-- The code point of `c` in base sixteen, as an escape. -/
def escapeCode (c : Char) : String :=
  "\\u\x7b" ++ String.ofList (Nat.toDigits 16 c.toNat) ++ "\x7d"

/-- What shows `c` inside the quotation mark `mark`. -/
def visibleChar (mark c : Char) : String :=
  if c = '\x00' then "\\0"
  else if c = '\t' then "\\t"
  else if c = '\r' then "\\r"
  else if c = '\n' then "\\n"
  else if c = '\\' then "\\\\"
  else if c = mark then String.ofList ['\\', mark]
  else if isPrintable c then c.toString
  else escapeCode c

/-- `text` between double quotes, made visible. -/
def inspect (text : String) : String :=
  "\"" ++ String.join (text.toList.map (visibleChar '"')) ++ "\""

/-- `c` between single quotes, made visible. -/
def inspectChar (c : Char) : String :=
  "'" ++ visibleChar '\x27' c ++ "'"

end Scriptlet.Text

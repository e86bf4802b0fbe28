import Scriptlet.Script.Layout

/-!
# Reading scripts

A reader turns source text into a script, for whatever grammar a host uses. It fails either on the
text, with a message and maybe a place, or on the layout of what it has read.
-/

namespace Scriptlet

/-- Why no script could be read from a text. -/
inductive ReadError where
  | malformed (message : String) (span : Option Span)
  | layout (cause : LayoutError)
deriving DecidableEq

namespace ReadError

/-- The wording of a failure to read. -/
def message : ReadError → String
  | malformed message _ => s!"syntax error: {message}"
  | layout cause => s!"invalid script: {cause.message}"

/-- The place of the offending text, if the reader has reported one. -/
def span : ReadError → Option Span
  | malformed _ span => span
  | layout _ => none

end ReadError

/-- A function from source text to scripts. -/
abbrev Reader := String → Except ReadError Script

/-- Reads a script and sees to it that the script keeps a source: the one that the reader has
recorded, or else the text that was read. -/
def Script.read (reader : Reader) (source : String) : Except ReadError Script := do
  let script ← reader source
  return if script.source.isSome then script else script.withSource source

end Scriptlet

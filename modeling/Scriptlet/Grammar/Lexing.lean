import Scriptlet.Grammar.Token
import Scriptlet.Number.Integer

/-!
# From text to tokens

A token is the longest piece of text of its sort. Blanks between tokens are skipped; only the ASCII
ones count. Text is measured in bytes, and a character that no token can contain is reported by the
first byte of its UTF-8 form.

* `scan` — one token, from its first character and what follows;
* `lex` — all tokens of a text with their spans.
-/

namespace Scriptlet.Grammar

/-- The blanks of the grammar: space, tab, newline, form feed, carriage return. -/
def isSpace (c : Char) : Bool :=
  c = ' ' || c = '\t' || c = '\n' || c = '\x0c' || c = '\r'

/-- Whether `c` can begin a name. -/
def isNameStart (c : Char) : Bool := c.isAlpha || c = '_'

/-- Whether `c` can continue a name. -/
def isNamePart (c : Char) : Bool := c.isAlphanum || c = '_'

/-- What may begin a name may also go on with it. -/
theorem isNamePart_of_isNameStart {c : Char} (h : isNameStart c) : isNamePart c := by
  simp only [isNameStart, Bool.or_eq_true] at h
  simp only [isNamePart, Char.isAlphanum, Bool.or_eq_true]
  exact h.imp_left Or.inl

/-- The number that decimal digits denote. -/
def digitsValue (digits : List Char) : Nat :=
  digits.foldl (fun n c => 10 * n + (c.toNat - '0'.toNat)) 0

/-- The first byte of the UTF-8 form of `c`, taken as a code point. -/
def leadByte (c : Char) : Char :=
  let n := c.toNat
  if n < 0x80 then c
  else if n < 0x800 then Char.ofNat (0xC0 + n / 0x40)
  else if n < 0x10000 then Char.ofNat (0xE0 + n / 0x1000)
  else Char.ofNat (0xF0 + n / 0x40000)

/-- The token of a single character. -/
def mark? (c : Char) : Option Token :=
  if c = '+' then some (.op .plus)
  else if c = '-' then some (.op .minus)
  else if c = '*' then some (.op .times)
  else if c = '/' then some (.op .slash)
  else if c = '<' then some (.op .less)
  else if c = '(' then some .openParen
  else if c = ')' then some .closeParen
  else if c = ';' then some .semicolon
  else if c = '=' then some .assign
  else none

/-- What was found at the front of a text: a token that takes `extra` characters after the first,
or a complaint about the bytes up to a length. -/
inductive Scan where
  | token (token : Token) (extra : Nat)
  | complaint (complaint : Complaint) (bytes : Nat)

/-- Reads the token that begins with `c`; `rest` is the text after `c`. -/
def scan (c : Char) (rest : List Char) : Scan :=
  if c.isDigit then
    let digits := rest.takeWhile Char.isDigit
    match Number.fit? (digitsValue (c :: digits)) with
    | some n => .token (.int n) digits.length
    | none => .complaint .integerTooLarge (digits.length + 1)
  else if isNameStart c then
    let word := rest.takeWhile isNamePart
    let text := String.ofList (c :: word)
    .token (if text = "var" then .var else .name text) word.length
  else if c = '"' then
    let content := rest.takeWhile (· ≠ '"')
    if content.length = rest.length then
      .complaint .unterminatedString (Source.byteLength rest + 1)
    else .token (.str (String.ofList content)) (content.length + 1)
  else
    match mark? c with
    | some token => .token token 0
    | none => .complaint (.unexpectedCharacter (leadByte c)) 1

/-- The tokens of a text that begins `start` bytes into the source. -/
def lexFrom (start : Nat) (text : List Char) : Except SyntaxError (List Lexeme) :=
  match text with
  | [] => .ok []
  | c :: rest =>
    if isSpace c then lexFrom (start + 1) rest
    else
      match scan c rest with
      | .token token extra => do
        let stop := start + c.utf8Size + Source.byteLength (rest.take extra)
        let lexemes ← lexFrom stop (rest.drop extra)
        return ⟨token, ⟨start.toUInt32, stop.toUInt32⟩⟩ :: lexemes
      | .complaint complaint bytes =>
        .error ⟨complaint, (Span.ofRange start (start + bytes)).toOption⟩
termination_by text.length
decreasing_by
  · exact Nat.lt_succ_self _
  · rw [List.length_drop]
    exact Nat.lt_succ_of_le (Nat.sub_le ..)

/-- The tokens of a source text. -/
def lex (source : String) : Except SyntaxError (List Lexeme) := lexFrom 0 source.toList

end Scriptlet.Grammar

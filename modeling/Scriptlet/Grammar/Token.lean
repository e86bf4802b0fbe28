import Scriptlet.Number.Written
import Scriptlet.Source.Span
import Scriptlet.Text.Visible
import Scriptlet.Tree.Operator

/-!
# Tokens

The words of the small grammar: integers, names, strings without escapes, the keyword `var`, five
operator symbols and four marks. Messages name a token by its sort and content.
-/

namespace Scriptlet.Grammar

/-- The operator symbols. -/
inductive Symbol where
  | plus | minus | times | slash | less
deriving DecidableEq

namespace Symbol

/-- The symbol as it is written. -/
def char : Symbol → Char
  | plus => '+'
  | minus => '-'
  | times => '*'
  | slash => '/'
  | less => '<'

/-- The operator that the symbol stands for between sums and comparisons. -/
def additive? : Symbol → Option BinaryOp
  | plus => some .add
  | minus => some .sub
  | less => some .lt
  | times | slash => none

/-- The operator that the symbol stands for between factors. -/
def multiplicative? : Symbol → Option BinaryOp
  | times => some .mul
  | slash => some .div
  | plus | minus | less => none

end Symbol

/-- The tokens. -/
inductive Token where
  | int (value : Int64)
  | name (text : String)
  | str (text : String)
  | var
  | op (symbol : Symbol)
  | openParen
  | closeParen
  | semicolon
  | assign
deriving DecidableEq

/-- How messages name a token. -/
def Token.describe : Token → String
  | int n => s!"Int({Number.integerText n})"
  | name text => s!"Ident({Text.inspect text})"
  | str text => s!"Str({Text.inspect text})"
  | var => "Var"
  | op symbol => s!"Op({Text.inspectChar symbol.char})"
  | openParen => "LParen"
  | closeParen => "RParen"
  | semicolon => "Semi"
  | assign => "Assign"

/-- A token with the span it was read from. -/
structure Lexeme where
  token : Token
  span : Span
deriving DecidableEq

/-- What can be wrong with a text. -/
inductive Complaint where
  | unexpectedCharacter (c : Char)
  | integerTooLarge
  | unterminatedString
  | unexpectedToken (token : Token)
  | unexpectedEnd
  | expectedName (found : Token)
  | expectedClosing
  | tooManyLocals
deriving DecidableEq

/-- The wording of each complaint. -/
def Complaint.message : Complaint → String
  | unexpectedCharacter c => s!"unexpected character {Text.inspectChar c}"
  | integerTooLarge => "integer too large"
  | unterminatedString => "unterminated string"
  | unexpectedToken token => s!"unexpected {token.describe}"
  | unexpectedEnd => "unexpected end of input"
  | expectedName found => s!"expected name, found {found.describe}"
  | expectedClosing => "expected `)`"
  | tooManyLocals => "too many locals"

/-- A complaint with its place, if it has one. -/
structure SyntaxError where
  complaint : Complaint
  span : Option Span
deriving DecidableEq

end Scriptlet.Grammar

/-!
# Operators

The operators of scripts with their symbols. Binary operators group by precedence, a smaller number
binding tighter, and all associate to the left.
-/

namespace Scriptlet

/-- Operators between two operands. -/
inductive BinaryOp where
  | add | sub | mul | div | mod
  | eq | ne | lt | le | gt | ge
  | and | or
deriving DecidableEq

/-- Operators in front of one operand. -/
inductive UnaryOp where
  | neg | not
deriving DecidableEq

namespace BinaryOp

/-- How the operator is written. -/
def symbol : BinaryOp → String
  | add => "+"
  | sub => "-"
  | mul => "*"
  | div => "/"
  | mod => "%"
  | eq => "=="
  | ne => "!="
  | lt => "<"
  | le => "<="
  | gt => ">"
  | ge => ">="
  | and => "&&"
  | or => "||"

/-- The binary operators. -/
def all : List BinaryOp :=
  [add, sub, mul, div, mod, eq, ne, lt, le, gt, ge, and, or]

/-- The operator with the given symbol. -/
def ofSymbol? (s : String) : Option BinaryOp := all.find? (·.symbol == s)

/-- From products, which bind tightest, down to disjunction. -/
def precedence : BinaryOp → Nat
  | mul | div | mod => 1
  | add | sub => 2
  | lt | le | gt | ge => 3
  | eq | ne => 4
  | and => 5
  | or => 6

/-- Whether the left operand may settle the result, so that the right one is not evaluated. -/
def isShortCircuit : BinaryOp → Bool
  | and | or => true
  | _ => false

@[simp]
theorem ofSymbol?_symbol (op : BinaryOp) : ofSymbol? op.symbol = some op := by
  cases op <;> decide

end BinaryOp

namespace UnaryOp

/-- How the operator is written. -/
def symbol : UnaryOp → String
  | neg => "-"
  | not => "!"

/-- The operator with the given symbol. -/
def ofSymbol? (s : String) : Option UnaryOp := [neg, not].find? (·.symbol == s)

@[simp]
theorem ofSymbol?_symbol (op : UnaryOp) : ofSymbol? op.symbol = some op := by
  cases op <;> decide

end UnaryOp

end Scriptlet

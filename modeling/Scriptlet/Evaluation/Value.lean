import Scriptlet.Number.Floating
import Scriptlet.Number.Written
import Scriptlet.Tree.Node

/-!
# Values

What evaluation produces. `void` is the absence of a value: the result of an empty script, of a
branch not taken, of a declaration without initialiser. Integers have 64 bits, floating-point
numbers are doubles, and strings are sequences of code points.

Two notions of equality are kept apart. `==` on values is identity of content: an integer is never
a floating-point number, and a NaN is not even itself. `Value.looselyEqual` is the equality of
scripts, where numbers of either type compare by value, also inside arrays.
-/

namespace Scriptlet

/-- The types of values, as messages name them. -/
inductive ValueType where
  | void | null | bool | int | float | string | array
deriving DecidableEq

/-- The name of a type in messages. -/
def ValueType.name : ValueType → String
  | void => "void"
  | null => "null"
  | bool => "bool"
  | int => "int"
  | float => "float"
  | string => "string"
  | array => "array"

/-- The result of an evaluation. -/
inductive Value where
  | void
  | null
  | bool (value : Bool)
  | int (value : Int64)
  | float (value : Float)
  | str (value : String)
  | array (items : List Value)
deriving Inhabited

namespace Value

/-- The value that a literal denotes. -/
def ofLiteral : Literal → Value
  | .null => null
  | .bool b => bool b
  | .int n => int n
  | .float x => float x.value
  | .str s => str s

/-- The type of a value. -/
def type : Value → ValueType
  | void => .void
  | null => .null
  | bool _ => .bool
  | int _ => .int
  | float _ => .float
  | str _ => .string
  | array _ => .array

/-- Whether there is no value. -/
def isVoid : Value → Bool
  | void => true
  | _ => false

/-- Whether a condition holds: everything does except `void`, `null`, `false`, the zeros, the empty
string and the empty array. -/
def isTruthy : Value → Bool
  | void | null => false
  | bool b => b
  | int n => n != 0
  | float x => x != 0.0
  | str s => !s.isEmpty
  | array items => !items.isEmpty

mutual

/-- The value as text. A string stands for itself, also inside an array, and `void` is empty. -/
def text : Value → String
  | void => ""
  | null => "null"
  | bool true => "true"
  | bool false => "false"
  | int n => Number.integerText n
  | float x => Number.floatText x
  | str s => s
  | array items => "[" ++ String.intercalate ", " (texts items) ++ "]"

/-- The texts of several values. -/
def texts : List Value → List String
  | [] => []
  | v :: vs => v.text :: texts vs

end

mutual

/-- Identity of type and content; numbers are compared as numbers of their type. -/
def identical : Value → Value → Bool
  | void, void => true
  | null, null => true
  | bool a, bool b => a == b
  | int a, int b => a == b
  | float a, float b => a == b
  | str a, str b => a == b
  | array as, array bs => identicalAll as bs
  | _, _ => false

/-- Identity of two lists, element by element. -/
def identicalAll : List Value → List Value → Bool
  | [], [] => true
  | a :: as, b :: bs => a.identical b && identicalAll as bs
  | _, _ => false

end

instance : BEq Value := ⟨identical⟩

mutual

/-- The equality of scripts: an integer equals a floating-point number if it rounds to it, arrays
are equal element by element under the same rule, and all else by identity. -/
def looselyEqual : Value → Value → Bool
  | int a, float b => Number.ofInteger a == b
  | float a, int b => Number.ofInteger b == a
  | array as, array bs => looselyEqualAll as bs
  | a, b => a == b

/-- Loose equality of two lists, element by element. -/
def looselyEqualAll : List Value → List Value → Bool
  | [], [] => true
  | a :: as, b :: bs => a.looselyEqual b && looselyEqualAll as bs
  | _, _ => false

end

/-- How two values are ordered, if they are: numbers by value, strings by code points. -/
def order? : Value → Value → Option Ordering
  | int a, int b => some (compare a b)
  | float a, float b => Number.order a b
  | int a, float b => Number.order (Number.ofInteger a) b
  | float a, int b => Number.order a (Number.ofInteger b)
  | str a, str b => some (compare a b)
  | _, _ => none

end Value

end Scriptlet

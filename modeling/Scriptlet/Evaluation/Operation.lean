import Scriptlet.Evaluation.Fault
import Scriptlet.Number.Integer

/-!
# Operators on values

What the operators make of values that are already there. Two integers give an integer or overflow;
if either operand is a floating-point number, the other is rounded to one. `+` joins strings, and
makes a string of anything but `void` that stands next to one. Equality is defined for all values,
the order for two numbers or two strings. The logical operators combine truth; that they may leave
their right operand unevaluated is the evaluator's business.

Beside the operators stand the two operations on containers, `Value.element` and `Value.size`.
-/

namespace Scriptlet

/-! ### Arithmetic -/

/-- A checked integer result, or the overflow of the named operation. -/
def checked (operation : String) : Option Int64 → Except Fault Value
  | some n => .ok (.int n)
  | none => .error (.overflow operation)

/-- The arithmetic operators. -/
inductive ArithmeticOp where
  | add | sub | mul | div | mod

namespace ArithmeticOp

/-- The same operator among all binary ones. -/
def toBinary : ArithmeticOp → BinaryOp
  | add => .add
  | sub => .sub
  | mul => .mul
  | div => .div
  | mod => .mod

/-- On integers: a zero divisor is refused first, then a result that does not fit. -/
def onIntegers (a b : Int64) : ArithmeticOp → Except Fault Value
  | add => checked "addition" (Number.add? a b)
  | sub => checked "subtraction" (Number.sub? a b)
  | mul => checked "multiplication" (Number.mul? a b)
  | div => if b = 0 then .error .divisionByZero else checked "division" (Number.quot? a b)
  | mod => if b = 0 then .error .moduloByZero else checked "remainder" (Number.rem? a b)

/-- On floating-point numbers, where nothing is refused. -/
def onFloats (x y : Float) : ArithmeticOp → Float
  | add => x + y
  | sub => x - y
  | mul => x * y
  | div => x / y
  | mod => Number.remainder x y

/-- On any two values; only numbers are accepted. -/
def apply (op : ArithmeticOp) (left right : Value) : Except Fault Value :=
  match left, right with
  | .int a, .int b => op.onIntegers a b
  | .float x, .float y => .ok (.float (op.onFloats x y))
  | .int a, .float y => .ok (.float (op.onFloats (Number.ofInteger a) y))
  | .float x, .int b => .ok (.float (op.onFloats x (Number.ofInteger b)))
  | _, _ => .error (.badOperands op.toBinary left.type right.type)

end ArithmeticOp

/-- Joins two values as text if one of them is a string and neither is `void`, and adds them as
numbers otherwise. -/
def Value.plus (left right : Value) : Except Fault Value :=
  match left, right with
  | .str a, .str b => .ok (.str (a ++ b))
  | .str a, other =>
    if other.isVoid then ArithmeticOp.add.apply left right else .ok (.str (a ++ other.text))
  | other, .str b =>
    if other.isVoid then ArithmeticOp.add.apply left right else .ok (.str (other.text ++ b))
  | _, _ => ArithmeticOp.add.apply left right

/-! ### Comparison -/

/-- The truth of a comparison of ordered values; without an order it is refused. -/
def Value.compareBy (op : BinaryOp) (holds : Ordering → Bool) (left right : Value) :
    Except Fault Value :=
  match left.order? right with
  | some o => .ok (.bool (holds o))
  | none => .error (.badOperands op left.type right.type)

/-! ### The operators -/

/-- A binary operator on two values. -/
def BinaryOp.apply (op : BinaryOp) (left right : Value) : Except Fault Value :=
  match op with
  | add => left.plus right
  | sub => ArithmeticOp.sub.apply left right
  | mul => ArithmeticOp.mul.apply left right
  | div => ArithmeticOp.div.apply left right
  | mod => ArithmeticOp.mod.apply left right
  | eq => .ok (.bool (left.looselyEqual right))
  | ne => .ok (.bool (!left.looselyEqual right))
  | lt => Value.compareBy .lt (· == .lt) left right
  | le => Value.compareBy .le (· != .gt) left right
  | gt => Value.compareBy .gt (· == .gt) left right
  | ge => Value.compareBy .ge (· != .lt) left right
  | and => .ok (.bool (left.isTruthy && right.isTruthy))
  | or => .ok (.bool (left.isTruthy || right.isTruthy))

/-- A unary operator on a value. -/
def UnaryOp.apply (op : UnaryOp) (operand : Value) : Except Fault Value :=
  match op, operand with
  | neg, .int n => checked "negation" (Number.neg? n)
  | neg, .float x => .ok (.float (-x))
  | neg, other => .error (.badOperand .neg other.type)
  | not, v => .ok (.bool (!v.isTruthy))

/-! ### Containers -/

/-- The position that `index` names in a container of the given length. -/
def position (index : Int64) (length : Nat) : Except Fault Nat :=
  if 0 ≤ index ∧ index.toInt.toNat < length then .ok index.toInt.toNat
  else .error (.outOfBounds index length)

namespace Value

/-- The element of an array, or the code point of a string, at an index. -/
def element (container index : Value) : Except Fault Value :=
  match container, index with
  | array items, int i => do
    let p ← position i items.length
    return items.getD p null
  | str s, int i => do
    let p ← position i s.toList.length
    return ((s.toList[p]?).map fun c => str c.toString).getD null
  | _, _ => .error (.notIndexable container.type index.type)

/-- The array with the element at an index replaced; a string cannot be changed. -/
def replaceElement (container index value : Value) : Except Fault Value :=
  match container, index with
  | array items, int i => do
    let p ← position i items.length
    return array (items.set p value)
  | _, _ => .error (.notIndexable container.type index.type)

/-- A length as an integer; one beyond all integers is cut to the greatest. -/
def ofLength (n : Nat) : Value := int ((Number.fit? n).getD Int64.maxValue)

/-- The number of elements of an array or of code points of a string. -/
def size : Value → Except Fault Value
  | str s => .ok (ofLength s.toList.length)
  | array items => .ok (ofLength items.length)
  | other => .error (.notSizeable other.type)

end Value

end Scriptlet

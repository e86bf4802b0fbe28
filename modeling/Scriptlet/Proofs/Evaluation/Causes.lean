import Scriptlet.Evaluation.Operation

/-!
# Which faults operations cause

The operators and the operations on containers see values only. So whatever they fail with speaks of
values: never of a variable, a register, a limit, or the shape of a tree. Which of these faults it
can be depends on the operation alone.

* `Raises` — a result that is a value or a fault of a given sort;
* `BinaryOp.mayRaise`, `UnaryOp.mayRaise` — the faults of an operator;
* `BinaryOp.raises_apply`, `UnaryOp.raises_apply`, `Value.raises_element`, … — an operation fails
  with no other;
* `Fault.isOperational` — the faults that speak of values.
-/

namespace Scriptlet

/-- A result that is a value or a fault of which `p` holds. -/
def Raises {α : Type} (p : Fault → Prop) (result : Except Fault α) : Prop :=
  ∀ fault, result = .error fault → p fault

namespace Raises

variable {α β : Type} {p q : Fault → Prop}

/-- A value is no fault. -/
@[simp]
theorem ok (value : α) : Raises p (.ok value) := by
  intro fault h
  cases h

/-- A fault is of the sort that the result may raise. -/
@[simp]
theorem error {fault : Fault} : Raises p (.error fault : Except Fault α) ↔ p fault := by
  constructor
  · intro h
    exact h fault rfl
  · intro h other hother
    cases hother
    exact h

/-- A sequence raises what its parts may raise. -/
theorem bind {result : Except Fault α} {next : α → Except Fault β} (hresult : Raises p result)
    (hnext : ∀ value, Raises p (next value)) : Raises p (result >>= next) := by
  cases result with
  | ok value => exact hnext value
  | error fault => exact error.2 (error.1 hresult)

/-- What is raised is also of every larger sort. -/
theorem mono {result : Except Fault α} (h : Raises p result) (hpq : ∀ fault, p fault → q fault) :
    Raises q result := fun fault hfault => hpq fault (h fault hfault)

end Raises

/-- Whether a fault speaks of values only. -/
def Fault.isOperational : Fault → Bool
  | divisionByZero | moduloByZero | overflow _ | badOperands .. | badOperand .. | notIndexable ..
  | outOfBounds .. | notSizeable _ => true
  | undefinedVariable _ | unknownRegister _ | notAssignable _ | tooDeep _ | tooManyRounds _
  | malformed .. => false

/-! ### The operators -/

/-- The faults of a binary operator. A zero divisor has a fault of its own in each of the two
divisions. -/
def BinaryOp.mayRaise (op : BinaryOp) : Fault → Bool
  | .overflow _ | .badOperands .. => true
  | .divisionByZero => op = .div
  | .moduloByZero => op = .mod
  | _ => false

/-- The faults of a unary operator. -/
def UnaryOp.mayRaise : UnaryOp → Fault → Bool
  | neg, .overflow _ | neg, .badOperand .. => true
  | _, _ => false

/-- A binary operator only speaks of values. -/
theorem BinaryOp.isOperational_of_mayRaise {op : BinaryOp} {fault : Fault}
    (h : op.mayRaise fault) : fault.isOperational := by
  cases fault with
  | overflow | badOperands | divisionByZero | moduloByZero => rfl
  | _ => cases h

/-- A unary operator only speaks of values. -/
theorem UnaryOp.isOperational_of_mayRaise {op : UnaryOp} {fault : Fault}
    (h : op.mayRaise fault) : fault.isOperational := by
  cases op with
  | not => cases h
  | neg =>
    cases fault with
    | overflow | badOperand => rfl
    | _ => cases h

/-- A checked result fails with nothing but its overflow. -/
private theorem raises_checked {p : Fault → Prop} {operation : String} (h : p (.overflow operation))
    (result : Option Int64) : Raises p (checked operation result) := by
  cases result with
  | none => exact Raises.error.2 h
  | some n => exact Raises.ok _

private theorem ArithmeticOp.raises_onIntegers (op : ArithmeticOp) (a b : Int64) :
    Raises (op.toBinary.mayRaise ·) (op.onIntegers a b) := by
  cases op with
  | add | sub | mul =>
    apply raises_checked
    rfl
  | div | mod =>
    -- a zero divisor is refused before the checked division
    rw [onIntegers]
    split
    · exact Raises.error.2 rfl
    · apply raises_checked
      rfl

/-- **The faults of an arithmetic operator**: an overflow, its zero divisor, or operands that are no
numbers. -/
theorem ArithmeticOp.raises_apply (op : ArithmeticOp) (left right : Value) :
    Raises (op.toBinary.mayRaise ·) (op.apply left right) := by
  -- two integers, three ways for a floating-point number to take part, and all other pairs
  rw [apply.eq_def]
  split
  · exact op.raises_onIntegers _ _
  · exact Raises.ok _
  · exact Raises.ok _
  · exact Raises.ok _
  · exact Raises.error.2 rfl

/-- Addition also joins strings, which never fails. -/
private theorem Value.raises_plus (left right : Value) :
    Raises (BinaryOp.add.mayRaise ·) (left.plus right) := by
  -- two strings, a string on one side only, and operands without strings
  rw [plus.eq_def]
  split
  · exact Raises.ok _
  · split
    · exact ArithmeticOp.raises_apply .add _ _
    · exact Raises.ok _
  · split
    · exact ArithmeticOp.raises_apply .add _ _
    · exact Raises.ok _
  · exact ArithmeticOp.raises_apply .add _ _

/-- A comparison fails only on operands that have no order. -/
private theorem Value.raises_compareBy (op : BinaryOp) (holds : Ordering → Bool)
    (left right : Value) : Raises (op.mayRaise ·) (Value.compareBy op holds left right) := by
  rw [compareBy]
  cases left.order? right with
  | none => exact Raises.error.2 rfl
  | some o => exact Raises.ok _

/-- **A binary operator raises only its own faults.** -/
theorem BinaryOp.raises_apply (op : BinaryOp) (left right : Value) :
    Raises (op.mayRaise ·) (op.apply left right) := by
  cases op with
  | add => exact left.raises_plus right
  | sub => exact ArithmeticOp.raises_apply .sub _ _
  | mul => exact ArithmeticOp.raises_apply .mul _ _
  | div => exact ArithmeticOp.raises_apply .div _ _
  | mod => exact ArithmeticOp.raises_apply .mod _ _
  | lt | le | gt | ge => exact Value.raises_compareBy _ _ _ _
  | eq | ne | and | or => exact Raises.ok _

/-- **A unary operator raises only its own faults.** -/
theorem UnaryOp.raises_apply (op : UnaryOp) (operand : Value) :
    Raises (op.mayRaise ·) (op.apply operand) := by
  -- integers, floating-point numbers, everything else that is negated, and the logical not
  rw [apply.eq_def]
  split
  · apply raises_checked
    rfl
  · exact Raises.ok _
  · exact Raises.error.2 rfl
  · exact Raises.ok _

/-! ### Containers -/

private theorem raises_position (index : Int64) (length : Nat) :
    Raises (·.isOperational) (position index length) := by
  rw [position]
  split
  · exact Raises.ok _
  · exact Raises.error.2 rfl

namespace Value

/-- Reading an element fails because of the container or of the index. -/
theorem raises_element (container index : Value) :
    Raises (·.isOperational) (container.element index) := by
  rw [element.eq_def]
  split
  · exact (raises_position _ _).bind fun _ => Raises.ok _
  · exact (raises_position _ _).bind fun _ => Raises.ok _
  · exact Raises.error.2 rfl

/-- So does replacing one. -/
theorem raises_replaceElement (container index value : Value) :
    Raises (·.isOperational) (container.replaceElement index value) := by
  rw [replaceElement.eq_def]
  split
  · exact (raises_position _ _).bind fun _ => Raises.ok _
  · exact Raises.error.2 rfl

/-- Only strings and arrays have a size. -/
theorem raises_size (value : Value) : Raises (·.isOperational) value.size := by
  cases value with
  | str | array => exact Raises.ok _
  | _ => exact Raises.error.2 rfl

end Value

end Scriptlet

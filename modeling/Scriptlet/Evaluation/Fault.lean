import Scriptlet.Evaluation.Value

/-!
# Faults

Why an evaluation fails. A `Fault` is the cause, a `Failure` the cause together with the place in
the source, if one is known. As a failure passes outwards through the enclosing nodes, the first
place it was given stays.
-/

namespace Scriptlet

/-- The causes of failure. -/
inductive Fault where
  | undefinedVariable (name : String)
  | divisionByZero
  | moduloByZero
  | overflow (operation : String)
  | badOperands (op : BinaryOp) (left right : ValueType)
  | badOperand (op : UnaryOp) (operand : ValueType)
  | notIndexable (container index : ValueType)
  | outOfBounds (index : Int64) (length : Nat)
  | unknownRegister (index : Nat)
  | notAssignable (target : String)
  | notSizeable (type : ValueType)
  | tooDeep (depth : Nat)
  | tooManyRounds (limit : Nat)
  | malformed (kind expected : String) (found : Nat)
deriving DecidableEq

/-- The wording of each cause. -/
def Fault.message : Fault → String
  | undefinedVariable name => s!"undefined variable: {name}"
  | divisionByZero => "division by zero"
  | moduloByZero => "modulo by zero"
  | overflow operation => s!"integer overflow in {operation}"
  | badOperands op left right =>
    s!"invalid operands for `{op.symbol}`: {left.name} and {right.name}"
  | badOperand op operand => s!"invalid operand for unary `{op.symbol}`: {operand.name}"
  | notIndexable container index => s!"cannot index into {container.name} with {index.name}"
  | outOfBounds index length =>
    s!"index {Number.integerText index} out of bounds for length {length}"
  | unknownRegister index => s!"register {index} does not exist"
  | notAssignable target => s!"cannot assign to {target}"
  | notSizeable type => s!"size() is not defined for {type.name}"
  | tooDeep depth => s!"maximum nesting depth of {depth} exceeded"
  | tooManyRounds limit => s!"loop exceeded {limit} iterations"
  | malformed kind expected found =>
    s!"malformed {kind} node: expected {expected} children, found {found}"

/-- A cause of failure with its place in the source, if known. -/
structure Failure where
  fault : Fault
  span : Option Span
deriving DecidableEq

namespace Failure

/-- A failure without a place. -/
def of (fault : Fault) : Failure := ⟨fault, none⟩

/-- Adds a place, unless the failure has one. -/
def locate (f : Failure) (span : Option Span) : Failure :=
  { f with span := f.span.or span }

/-- The wording of the cause, followed by the place. -/
def message (f : Failure) : String :=
  match f.span with
  | some span => s!"{f.fault.message} at {span.text}"
  | none => f.fault.message

@[simp]
theorem fault_locate (f : Failure) (span : Option Span) : (f.locate span).fault = f.fault := rfl

@[simp]
theorem span_locate (f : Failure) (span : Option Span) :
    (f.locate span).span = f.span.or span := rfl

end Failure

end Scriptlet

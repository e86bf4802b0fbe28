import Scriptlet.Evaluation.Operation
import Scriptlet.Evaluation.Outcome

/-!
# Running trees

Evaluation walks the tree. Every node counts one level of depth for the nodes inside it, and a
failure is given the place of the innermost node around it that has one.

A variable that is resolved to a register reads the slot; an unresolved slot is looked up in the
context under the register's name. A free variable is looked up under its own name. Declarations and
assignments to registers write the slot, other assignments the context.

A loop is bounded by the limit of the policy. Where there is none, it is bounded by `rounds`, and a
loop that would take more leaves the run unfinished.

* `Kind.evalRule`, `Kind.assignRule` — what a node does with its children, for each kind;
* `Node.eval` — a node at a given depth;
* `Node.interpret` — a node by itself;
* `interpretEach` — several nodes in turn, over one frame.
-/

namespace Scriptlet

/-- Fails if the policy allows no node below `depth` others. -/
def checkDepth {γ : Type} (policy : Policy) (depth : Nat) : Run γ Unit :=
  match policy.depthLimit with
  | some limit => if limit ≤ depth then .raise (.tooDeep limit) else pure ()
  | none => pure ()

/-- A loop under the limit of the policy, or under `rounds` if it sets none. -/
def boundedLoop {γ : Type} (policy : Policy) (rounds : Nat) (condition body : Run γ Value) :
    Run γ Value :=
  match policy.roundLimit with
  | some limit => Run.iterate condition body (.raise (.tooManyRounds limit)) limit .void
  | none => Run.iterate condition body .giveUp rounds .void

variable {γ : Type} [Context γ]

/-- The name under which a variable is looked up in the context: that of its register, if there is
such a register, and its own otherwise. -/
def lookupName (registers : Registers) (name : String) (register : Option Nat) : String :=
  (register.bind registers.name?).getD name

/-- Reads a variable. -/
def resolve (policy : Policy) (name : String) (register : Option Nat) : Run γ Value := do
  let frame ← Run.getFrame
  match register.bind frame.registers.get? with
  | some value => return value
  | none =>
    let name := lookupName frame.registers name register
    match Context.get frame.context name with
    | some value => return value
    | none => if policy.strict then Run.raise (.undefinedVariable name) else return .null

/-- Writes a variable. -/
def assignVariable (name : String) (register : Option Nat) (value : Value) : Run γ Unit :=
  match register with
  | some register => Run.store register value
  | none => Run.define name value

/-! ### The rules

What a node does with its children depends on its kind alone, and not on where in the tree the node
stands or how the tree is walked. -/

/-- A child as the rule for its parent sees it: its kind, and what it is to evaluate the child or to
assign to it. -/
structure Child (γ : Type) where
  kind : Kind
  eval : Run γ Value
  assign : Value → Run γ Unit

namespace Child

/-- Evaluates children in turn; the value is that of the last one, or `last` if there is none. -/
def evalSequence (last : Value) : List (Child γ) → Run γ Value
  | [] => return last
  | c :: cs => do
    let value ← c.eval
    evalSequence value cs

/-- Evaluates children from left to right, for the values of all. -/
def evalAll : List (Child γ) → Run γ (List Value)
  | [] => return []
  | c :: cs => do
    let value ← c.eval
    let values ← evalAll cs
    return value :: values

end Child

namespace Kind

/-- What evaluating a node of the kind does with its children. -/
def evalRule (policy : Policy) (rounds : Nat) (kind : Kind) (children : List (Child γ)) :
    Run γ Value :=
  match kind, children with
  | .script, statements => Child.evalSequence .void statements
  | .block, statements => Child.evalSequence .void statements
  | .literal value, _ => return .ofLiteral value
  | .identifier name register, _ => resolve policy name register
  -- a declaration without initialiser leaves its slot as it is
  | .var _ _, [] => return .void
  | .var _ register, [init] => do
    let value ← init.eval
    Run.store register value
    return value
  | .assign, [target, expression] => do
    let value ← expression.eval
    target.assign value
    return value
  | .binary op, [left, right] => do
    let l ← left.eval
    -- the left operand may settle a logical operator
    match op, l.isTruthy with
    | .and, false => return .bool false
    | .or, true => return .bool true
    | _, _ =>
      let r ← right.eval
      Run.ofExcept (op.apply l r)
  | .unary op, [operand] => do
    let value ← operand.eval
    Run.ofExcept (op.apply value)
  | .ternary, [condition, positive, negative] => do
    let value ← condition.eval
    if value.isTruthy then positive.eval else negative.eval
  | .branch, [condition, positive] => do
    let value ← condition.eval
    if value.isTruthy then positive.eval else return .void
  | .branch, [condition, positive, negative] => do
    let value ← condition.eval
    if value.isTruthy then positive.eval else negative.eval
  -- condition and body are run as often as the loop asks for them
  | .loop, [condition, body] => boundedLoop policy rounds condition.eval body.eval
  | .array, elements => do
    let items ← Child.evalAll elements
    return .array items
  | .index, [container, position] => do
    let c ← container.eval
    let i ← position.eval
    Run.ofExcept (c.element i)
  | .size, [operand] => do
    let value ← operand.eval
    Run.ofExcept value.size
  | kind, children => Run.raise (.malformed kind.name kind.arity children.length)

/-- What assigning to a node of the kind does with its children. A target is a variable, or an
element of the array in a variable. It is not evaluated itself, only the index in it. -/
def assignRule (policy : Policy) (value : Value) (kind : Kind) (children : List (Child γ)) :
    Run γ Unit :=
  match kind, children with
  | .identifier name register, _ => assignVariable name register value
  | .index, [container, position] =>
    match container.kind with
    | .identifier name register => do
      -- the index is evaluated before the container is read
      let i ← position.eval
      let current ← resolve policy name register
      let updated ← Run.ofExcept (current.replaceElement i value)
      assignVariable name register updated
    | other => Run.raise (.notAssignable other.name)
  | .index, children =>
    Run.raise (.malformed Kind.index.name Kind.index.arity children.length)
  -- any other expression denotes no place to write to
  | other, _ => Run.raise (.notAssignable other.name)

end Kind

/-! ### Nodes -/

namespace Node

mutual

/-- Evaluates a node that stands inside `depth` others. -/
def eval (policy : Policy) (rounds depth : Nat) : Node → Run γ Value
  | ⟨kind, children, span⟩ => Run.locatedAt policy span do
    checkDepth policy depth
    kind.evalRule policy rounds (asChildren policy rounds (depth + 1) children)

/-- Assigns to a node; what is evaluated in it stands inside `depth` others. -/
def assign (policy : Policy) (rounds depth : Nat) (value : Value) : Node → Run γ Unit
  | ⟨kind, children, _⟩ => kind.assignRule policy value (asChildren policy rounds depth children)

/-- Nodes as the children of one that is evaluated. -/
def asChildren (policy : Policy) (rounds depth : Nat) : List Node → List (Child γ)
  | [] => []
  | n :: ns =>
    ⟨n.kind, n.eval policy rounds depth, fun value => n.assign policy rounds depth value⟩ ::
      asChildren policy rounds depth ns

end

/-- Evaluates a node by itself. -/
def interpret (policy : Policy) (rounds : Nat) (n : Node) : Run γ Value :=
  n.eval policy rounds 0

end Node

/-- Evaluates nodes in turn, each over the frame that the one before has left, whether that one
succeeded or failed. The list ends early only at a run that is left unfinished. -/
def interpretEach (policy : Policy) (rounds : Nat) : List Node → Frame γ → List (Outcome γ Value)
  | [], _ => []
  | n :: ns, frame =>
    let outcome := n.interpret policy rounds frame
    match outcome.frame? with
    | some next => outcome :: interpretEach policy rounds ns next
    | none => [outcome]

end Scriptlet

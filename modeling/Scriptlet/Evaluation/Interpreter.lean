import Scriptlet.Evaluation.Run

/-!
# Interpreters

An interpreter is made for one policy, one set of registers and one context, and is then given trees
to evaluate, one after the other. A failure does not end its life: what it has written stays, and
the next tree is evaluated over that.

Where `Node.eval` is told how deep a node stands, an interpreter keeps count of the nodes that it is
inside of. A node is counted when it is entered and counted out when it is left, whether it returns
or fails. A node that is refused for its depth is never entered.

* `Run.entering` — a run inside one more node;
* `Node.evalCounting` — a node at whatever depth the count says;
* `Interpreter.interpret` — the next tree.
-/

namespace Scriptlet

/-- A context, together with the number of nodes that have been entered and not yet left. -/
structure Counting (γ : Type) where
  context : γ
  depth : Nat

instance {γ : Type} [Context γ] : Context (Counting γ) where
  get c := Context.get c.context
  set c name value := { c with context := Context.set c.context name value }

variable {γ : Type}

/-- The frame with another count. -/
def Frame.recount (change : Nat → Nat) (frame : Frame (Counting γ)) : Frame (Counting γ) :=
  { frame with context := { frame.context with depth := change frame.context.depth } }

/-- The outcome with another count. -/
def Outcome.recount {α : Type} (change : Nat → Nat) :
    Outcome (Counting γ) α → Outcome (Counting γ) α
  | returned value frame => returned value (frame.recount change)
  | failed failure frame => failed failure (frame.recount change)
  | unfinished => unfinished

/-- Counts one node in, runs what is inside it, and counts it out again, however that has ended. -/
def Run.inside {α : Type} (run : Run (Counting γ) α) : Run (Counting γ) α := fun frame =>
  (run (frame.recount (· + 1))).recount (· - 1)

/-- A run inside one more node, unless the policy does not allow so many. -/
def Run.entering {α : Type} (policy : Policy) (run : Run (Counting γ) α) : Run (Counting γ) α := do
  let frame ← Run.getFrame
  checkDepth policy frame.context.depth
  run.inside

namespace Node

variable [Context γ]

mutual

/-- Evaluates a node inside as many others as have been counted. -/
def evalCounting (policy : Policy) (rounds : Nat) : Node → Run (Counting γ) Value
  | ⟨kind, children, span⟩ => Run.locatedAt policy span <| Run.entering policy <|
    kind.evalRule policy rounds (asChildrenCounting policy rounds children)

/-- Assigns to a node. It is not entered itself, only what is evaluated in it. -/
def assignCounting (policy : Policy) (rounds : Nat) (value : Value) :
    Node → Run (Counting γ) Unit
  | ⟨kind, children, _⟩ => kind.assignRule policy value (asChildrenCounting policy rounds children)

/-- Nodes as the children of one that is evaluated. -/
def asChildrenCounting (policy : Policy) (rounds : Nat) : List Node → List (Child (Counting γ))
  | [] => []
  | n :: ns =>
    ⟨n.kind, n.evalCounting policy rounds, fun value => n.assignCounting policy rounds value⟩ ::
      asChildrenCounting policy rounds ns

end

end Node

/-- What evaluates trees in turn: a policy, the registers and the context as they stand, and the
number of nodes entered and not yet left. -/
structure Interpreter (γ : Type) where
  policy : Policy
  registers : Registers
  context : γ
  depth : Nat

namespace Interpreter

/-- A new interpreter, which is inside of no node. -/
def build (policy : Policy) (registers : Registers) (context : γ) : Interpreter γ :=
  ⟨policy, registers, context, 0⟩

/-- The frame that the next run starts from. -/
def frame (i : Interpreter γ) : Frame (Counting γ) := ⟨i.registers, i.context, i.depth⟩

/-- The interpreter after a run that has left this frame. -/
def resume (i : Interpreter γ) (frame : Frame (Counting γ)) : Interpreter γ :=
  ⟨i.policy, frame.registers, frame.context.context, frame.context.depth⟩

/-- Evaluates the next tree: the result, and the interpreter as it is then. There is neither if the
run is left unfinished. -/
def interpret [Context γ] (i : Interpreter γ) (rounds : Nat) (n : Node) :
    Option (Except Failure Value × Interpreter γ) :=
  match n.evalCounting i.policy rounds i.frame with
  | .returned value frame => some (.ok value, i.resume frame)
  | .failed failure frame => some (.error failure, i.resume frame)
  | .unfinished => none

end Interpreter

end Scriptlet

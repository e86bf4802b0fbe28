import Scriptlet.Evaluation.Run
import Scriptlet.Proofs.Evaluation.Causes
import Scriptlet.Proofs.Tree.Subtrees

/-!
# The rules of evaluation

A node does with its children what the rule for its kind says, and the rule does not look at how a
child is evaluated. Two runs of one node can therefore be compared kind by kind, once and for all:
whatever way the two treat the children, the rule turns related children into related nodes. Nothing
that is compared later goes through the kinds again.

The relation may change along the run. What it depends on is kept track of in the order of
evaluation, by a pass over the tree that is told what reading and writing a variable means. A
comparison to which the order is indifferent keeps track of nothing.

* `Node.eval_mk`, `Node.assign_mk` — a node by the rule for its kind;
* `Node.flow` — what is known after a node, for a given `Flow`;
* `Run.Respects` — the operations that a relation between runs has to respect;
* `Run.Respects.evalRule`, `Run.Respects.assignRule` — related children make related nodes.
-/

namespace Scriptlet

/-! ### Numbers of children -/

/-- Whether evaluation accepts that many children under a node of the kind. -/
def Kind.takes : Kind → Nat → Bool
  | script, _ | block, _ | literal _, _ | identifier .., _ | array, _ => true
  | unary _, count | size, count => count == 1
  | assign, count | binary _, count | loop, count | index, count => count == 2
  | ternary, count => count == 3
  | var .., count => count ≤ 1
  | branch, count => count == 2 || count == 3

section Malformed

variable {γ : Type} [Context γ] {kind : Kind} {children : List (Child γ)}

/-- Where the children do not fit the kind, none of them is evaluated. -/
theorem Kind.evalRule_malformed (h : kind.takes children.length = false) (policy : Policy)
    (rounds : Nat) :
    kind.evalRule policy rounds children =
      .raise (.malformed kind.name kind.arity children.length) := by
  -- under each kind, numbers up to the greatest that it takes, and all greater ones
  cases kind with
  | script | block | literal | identifier | array => cases h
  | var =>
    match children with
    | [] | [_] => cases h
    | _ :: _ :: _ => rfl
  | unary | size =>
    match children with
    | [_] => cases h
    | [] | _ :: _ :: _ => rfl
  | assign | binary | loop | index =>
    match children with
    | [_, _] => cases h
    | [] | [_] | _ :: _ :: _ :: _ => rfl
  | ternary =>
    match children with
    | [_, _, _] => cases h
    | [] | [_] | [_, _] | _ :: _ :: _ :: _ :: _ => rfl
  | branch =>
    match children with
    | [_, _] | [_, _, _] => cases h
    | [] | [_] | _ :: _ :: _ :: _ :: _ => rfl

theorem Kind.assignRule_malformed (h : Kind.index.takes children.length = false) (policy : Policy)
    (value : Value) :
    Kind.index.assignRule policy value children =
      .raise (.malformed Kind.index.name Kind.index.arity children.length) := by
  match children with
  | [_, _] => cases h
  | [] | [_] | _ :: _ :: _ :: _ => rfl

end Malformed

/-! ### Nodes and their children -/

namespace Node

variable {γ : Type} [Context γ] {policy : Policy} {rounds depth : Nat}

/-- The node as a child of one that is evaluated. -/
def asChild (γ : Type) [Context γ] (policy : Policy) (rounds depth : Nat) (n : Node) : Child γ :=
  ⟨n.kind, n.eval policy rounds depth, fun value => n.assign policy rounds depth value⟩

/-- The children of a node are its children one by one. -/
theorem asChildren_eq_map (ns : List Node) :
    asChildren policy rounds depth ns = ns.map (asChild γ policy rounds depth) := by
  induction ns with
  | nil => rw [asChildren, List.map_nil]
  | cons n ns ih => rw [asChildren, List.map_cons, ih, asChild]

/-- **A node is evaluated by the rule for its kind**, with children that stand one deeper. -/
theorem eval_mk (kind : Kind) (children : List Node) (span : Option Span) :
    (eval policy rounds depth ⟨kind, children, span⟩ : Run γ Value) =
      Run.locatedAt policy span (do
        checkDepth policy depth
        kind.evalRule policy rounds (children.map (asChild γ policy rounds (depth + 1)))) := by
  rw [eval, asChildren_eq_map]

/-- **A node is assigned to by the rule for its kind.** What is in it stands as deep as the node. -/
theorem assign_mk (kind : Kind) (children : List Node) (span : Option Span) (value : Value) :
    (assign policy rounds depth value ⟨kind, children, span⟩ : Run γ Unit) =
      kind.assignRule policy value (children.map (asChild γ policy rounds depth)) := by
  rw [assign, asChildren_eq_map]

/-- Evaluates nodes in turn; the value is that of the last one, or `last` if there is none. -/
def evalSequence (policy : Policy) (rounds depth : Nat) (last : Value) (ns : List Node) :
    Run γ Value :=
  Child.evalSequence last (ns.map (asChild γ policy rounds depth))

/-- Evaluates nodes from left to right, for the values of all. -/
def evalAll (policy : Policy) (rounds depth : Nat) (ns : List Node) : Run γ (List Value) :=
  Child.evalAll (ns.map (asChild γ policy rounds depth))

@[simp]
theorem evalSequence_nil (last : Value) :
    (evalSequence policy rounds depth last [] : Run γ Value) = pure last := rfl

theorem evalSequence_cons (last : Value) (n : Node) (ns : List Node) :
    (evalSequence policy rounds depth last (n :: ns) : Run γ Value) =
      n.eval policy rounds depth >>= fun value => evalSequence policy rounds depth value ns := rfl

@[simp]
theorem evalAll_nil : (evalAll policy rounds depth [] : Run γ (List Value)) = pure [] := rfl

theorem evalAll_cons (n : Node) (ns : List Node) :
    (evalAll policy rounds depth (n :: ns) : Run γ (List Value)) =
      n.eval policy rounds depth >>= fun value =>
        evalAll policy rounds depth ns >>= fun values => pure (value :: values) := rfl

end Node

/-! ### Along the order of evaluation -/

/-- What is kept track of about variables from one step of evaluation to the next. -/
structure Flow (G : Type) where
  /-- Whether a variable may be read. -/
  mayRead : G → Option Nat → Bool
  /-- What is known after a variable has been written. -/
  write : G → Option Nat → G
  /-- What is known after one of two ways has been taken. -/
  join : G → G → G

namespace Node

variable {G : Type}

mutual

/-- What is known after the node has been evaluated, and nothing if it may read what it must not.
What is not always evaluated does not count as written. -/
def flow (d : Flow G) (g : G) : Node → Option G
  | ⟨kind, children, _⟩ =>
    match kind, children with
    | .script, statements => flowAll d g statements
    | .block, statements => flowAll d g statements
    | .identifier _ register, _ => if d.mayRead g register then some g else none
    | .var _ register, [init] => do
      let after ← flow d g init
      return d.write after (some register)
    | .assign, [target, expression] => do
      let after ← flow d g expression
      flowTarget d after target
    | .binary op, [left, right] => do
      let after ← flow d g left
      let afterBoth ← flow d after right
      return if op.isShortCircuit then after else afterBoth
    | .unary _, [operand] => flow d g operand
    | .ternary, [condition, positive, negative] => do
      let after ← flow d g condition
      let afterPositive ← flow d after positive
      let afterNegative ← flow d after negative
      return d.join afterPositive afterNegative
    | .branch, [condition, positive] => do
      let after ← flow d g condition
      let _ ← flow d after positive
      return after
    | .branch, [condition, positive, negative] => do
      let after ← flow d g condition
      let afterPositive ← flow d after positive
      let afterNegative ← flow d after negative
      return d.join afterPositive afterNegative
    | .loop, [condition, body] => do
      let after ← flow d g condition
      let _ ← flow d after body
      return after
    | .array, elements => flowAll d g elements
    | .index, [container, position] => do
      let after ← flow d g container
      flow d after position
    | .size, [operand] => flow d g operand
    -- nothing inside is evaluated
    | _, _ => some g

/-- What is known after nodes in turn. -/
def flowAll (d : Flow G) (g : G) : List Node → Option G
  | [] => some g
  | n :: ns => do
    let after ← flow d g n
    flowAll d after ns

/-- What is known after an assignment to the node. -/
def flowTarget (d : Flow G) (g : G) : Node → Option G
  | ⟨kind, children, _⟩ =>
    match kind, children with
    | .identifier _ register, _ => some (d.write g register)
    | .index, [container, position] =>
      match container.kind with
      | .identifier _ register => do
        let after ← flow d g position
        -- a container is read before it is written
        if d.mayRead after register then some after else none
      | _ => some g
    | _, _ => some g

end

end Node

/-- Nothing is kept track of. -/
def Flow.trivial : Flow Unit where
  mayRead _ _ := true
  write _ _ := ()
  join _ _ := ()

namespace Node

private theorem flowAll_trivial {ns : List Node} (h : ∀ n ∈ ns, n.flow .trivial () = some ()) :
    flowAll .trivial () ns = some () := by
  induction ns with
  | nil => rw [flowAll]
  | cons n ns ih =>
    rw [flowAll, h n List.mem_cons_self]
    exact ih fun m hm => h m (List.mem_cons_of_mem n hm)

/-- A pass that keeps track of nothing never stops. -/
theorem flow_trivial (n : Node) :
    n.flow .trivial () = some () ∧ n.flowTarget .trivial () = some () := by
  induction n with
  | node kind children span ih =>
    have hall : flowAll .trivial () children = some () :=
      flowAll_trivial fun c hc => (ih c hc).1
    rw [flow.eq_def, flowTarget.eq_def]
    constructor
    · dsimp only
      split <;> simp_all [Flow.trivial]
    · dsimp only
      split
      · rfl
      · split <;> simp_all [Flow.trivial]
      · rfl

end Node

/-! ### Places of the tree -/

/-- The node is what an assignment among `nodes` assigns to. -/
def Node.IsTarget (nodes : List Node) (n : Node) : Prop :=
  ∃ a ∈ nodes, a.kind = .assign ∧ ∃ value, a.children = [n, value]

/-- The node is the container in what an assignment among `nodes` assigns to. -/
def Node.IsContainer (nodes : List Node) (n : Node) : Prop :=
  ∃ target : Node, target.IsTarget nodes ∧ target.kind = .index ∧
    ∃ position, target.children = [n, position]

/-- A target among some nodes is one among more. -/
theorem Node.IsTarget.mono {nodes nodes' : List Node} {n : Node} (h : n.IsTarget nodes)
    (hsub : nodes ⊆ nodes') : n.IsTarget nodes' := by
  obtain ⟨a, ha, hkind⟩ := h
  exact ⟨a, hsub ha, hkind⟩

theorem Node.IsContainer.mono {nodes nodes' : List Node} {n : Node} (h : n.IsContainer nodes)
    (hsub : nodes ⊆ nodes') : n.IsContainer nodes' := by
  obtain ⟨target, htarget, hkind⟩ := h
  exact ⟨target, htarget.mono hsub, hkind⟩

/-- The result of an operation on values that a node among `nodes` stands for. An index stands for
reading an element and, in a target, for replacing one. -/
inductive Node.Performs (nodes : List Node) : Except Fault Value → Prop where
  | binary {n : Node} {op : BinaryOp} (mem : n ∈ nodes) (kind_eq : n.kind = .binary op)
      (left right : Value) : Performs nodes (op.apply left right)
  | unary {n : Node} {op : UnaryOp} (mem : n ∈ nodes) (kind_eq : n.kind = .unary op)
      (operand : Value) : Performs nodes (op.apply operand)
  | element {n : Node} (mem : n ∈ nodes) (kind_eq : n.kind = .index) (container index : Value) :
      Performs nodes (container.element index)
  | replaceElement {n : Node} (mem : n ∈ nodes) (kind_eq : n.kind = .index)
      (container index value : Value) : Performs nodes (container.replaceElement index value)
  | size {n : Node} (mem : n ∈ nodes) (kind_eq : n.kind = .size) (operand : Value) :
      Performs nodes operand.size

theorem Node.Performs.mono {nodes nodes' : List Node} {result : Except Fault Value}
    (h : Performs nodes result) (hsub : nodes ⊆ nodes') : Performs nodes' result := by
  cases h with
  | binary hm hkind left right => exact .binary (hsub hm) hkind left right
  | unary hm hkind operand => exact .unary (hsub hm) hkind operand
  | element hm hkind container index => exact .element (hsub hm) hkind container index
  | replaceElement hm hkind container index value =>
    exact .replaceElement (hsub hm) hkind container index value
  | size hm hkind operand => exact .size (hsub hm) hkind operand

/-- An operation fails because of its values. -/
theorem Node.Performs.raises {nodes : List Node} {result : Except Fault Value}
    (h : Performs nodes result) : Raises (·.isOperational) result := by
  cases h with
  | binary _ _ left right =>
    exact (BinaryOp.raises_apply _ left right).mono fun _ => BinaryOp.isOperational_of_mayRaise
  | unary _ _ operand =>
    exact (UnaryOp.raises_apply _ operand).mono fun _ => UnaryOp.isOperational_of_mayRaise
  | element _ _ container index => exact container.raises_element index
  | replaceElement _ _ container index value => exact container.raises_replaceElement index value
  | size _ _ operand => exact operand.raises_size

variable {γ δ : Type} [Context γ] [Context δ]

omit [Context γ] [Context δ] in
/-- A choice between related runs, made in the same way on both sides. -/
theorem Run.ite_rel {α : Type} {rel : Run γ α → Run δ α → Prop} {run other : Run γ α}
    {run' other' : Run δ α} (b : Bool) (hrun : rel run run') (hother : rel other other') :
    rel (if b then run else other) (if b then run' else other') := by
  cases b with
  | true => simpa using hrun
  | false => simpa using hother

/-! ### Related runs -/

/-- **A relation that evaluation respects.** It holds between the operations that evaluation is made
of, and is kept by the ways they are put together. What it says may depend on what is known before
and after the run. What depends on the tree is only asked where it occurs in `nodes`. -/
structure Run.Respects {G : Type} (d : Flow G) (policy policy' : Policy) (rounds rounds' : Nat)
    (nodes : List Node) (rel : G → G → ∀ {α : Type}, Run γ α → Run δ α → Prop) : Prop where
  pure {α : Type} (g : G) (value : α) : rel g g (pure value) (pure value)
  bind {α β : Type} [Inhabited α] {g g' g'' : G} {first : Run γ α} {first' : Run δ α}
    {next : α → Run γ β} {next' : α → Run δ β} :
    rel g g' first first' → (∀ value, rel g' g'' (next value) (next' value)) →
      rel g g'' (first >>= next) (first' >>= next')
  /-- What has been found out may be forgotten. -/
  forget {α : Type} {g g' : G} {run : Run γ α} {run' : Run δ α} :
    rel g g' run run' → rel g g run run'
  /-- Of two ways, both sides take the same. -/
  choice {α : Type} {g g' g'' : G} {run other : Run γ α} {run' other' : Run δ α} (b : Bool) :
    rel g g' run run' → rel g g'' other other' →
      rel g (d.join g' g'') (if b then run else other) (if b then run' else other')
  /-- The condition of a loop is evaluated at least once, its body maybe never. -/
  loop {g g' g'' : G} {n : Node} {condition body : Run γ Value} {condition' body' : Run δ Value} :
    n ∈ nodes → n.kind = .loop → rel g g' condition condition' → rel g' g'' body body' →
      rel g g' (boundedLoop policy rounds condition body)
        (boundedLoop policy' rounds' condition' body')
  operation {result : Except Fault Value} (g : G) :
    Node.Performs nodes result → rel g g (Run.ofExcept result) (Run.ofExcept result)
  malformed {α : Type} {n : Node} (g : G) :
    n ∈ nodes → n.kind.takes n.children.length = false →
      rel g g (Run.raise (.malformed n.kind.name n.kind.arity n.children.length) : Run γ α)
        (Run.raise (.malformed n.kind.name n.kind.arity n.children.length))
  /-- A target is a variable or an element of a container, and a container is a variable. -/
  notAssignable {α : Type} {n : Node} (g : G) :
    n.IsTarget nodes ∧ n.kind ≠ .index ∨ n.IsContainer nodes →
      (∀ name register, n.kind ≠ .identifier name register) →
      rel g g (Run.raise (.notAssignable n.kind.name) : Run γ α)
        (Run.raise (.notAssignable n.kind.name))
  resolve {g : G} {n : Node} {name : String} {register : Option Nat} :
    n ∈ nodes → n.kind = .identifier name register → d.mayRead g register = true →
      rel g g (resolve policy name register) (resolve policy' name register)
  assignVariable {n : Node} {name : String} {register : Option Nat} (g : G) (value : Value) :
    n.IsTarget nodes ∨ n.IsContainer nodes → n ∈ nodes → n.kind = .identifier name register →
      rel g (d.write g register) (assignVariable name register value)
        (assignVariable name register value)
  store {n init : Node} {name : String} {register : Nat} (g : G) (value : Value) :
    n ∈ nodes → n.kind = .var name register → n.children = [init] →
      rel g (d.write g (some register)) (Run.store register value) (Run.store register value)

/-- The two children stand for the node: they are of its kind, and evaluating or assigning to them
is related, from what is known before the node to what is known after it. -/
structure Run.Stands {G : Type} (d : Flow G) (nodes : List Node)
    (rel : G → G → ∀ {α : Type}, Run γ α → Run δ α → Prop) (n : Node) (c : Child γ) (c' : Child δ) :
    Prop where
  kind_left : c.kind = n.kind
  kind_right : c'.kind = n.kind
  eval {g after : G} : n.flow d g = some after → rel g after c.eval c'.eval
  assign {g after : G} (value : Value) : n.IsTarget nodes → n.flowTarget d g = some after →
    rel g after (c.assign value) (c'.assign value)

namespace Run.Respects

variable {G : Type} {d : Flow G} {policy policy' : Policy} {rounds rounds' : Nat}
  {nodes : List Node} {rel : G → G → ∀ {α : Type}, Run γ α → Run δ α → Prop}
  {f : Node → Child γ} {f' : Node → Child δ} {g after : G}

/-- Nodes in turn are related, from what is known before the first to what is known after the
last. -/
theorem evalSequence (h : Respects d policy policy' rounds rounds' nodes rel) {ns : List Node}
    (hns : ∀ n ∈ ns, Stands d nodes rel n (f n) (f' n)) (hflow : Node.flowAll d g ns = some after)
    (last : Value) :
    rel g after (Child.evalSequence last (ns.map f)) (Child.evalSequence last (ns.map f')) := by
  induction ns generalizing g last with
  | nil =>
    rw [Node.flowAll, Option.some.injEq] at hflow
    subst hflow
    exact h.pure g last
  | cons n ns ih =>
    rw [Node.flowAll] at hflow
    obtain ⟨between, hn, hrest⟩ := Option.bind_eq_some_iff.1 hflow
    refine h.bind ((hns n List.mem_cons_self).eval hn) fun value => ?_
    exact ih (fun m hm => hns m (List.mem_cons_of_mem n hm)) hrest value

/-- The same if the values are collected. -/
theorem evalAll (h : Respects d policy policy' rounds rounds' nodes rel) {ns : List Node}
    (hns : ∀ n ∈ ns, Stands d nodes rel n (f n) (f' n))
    (hflow : Node.flowAll d g ns = some after) :
    rel g after (Child.evalAll (ns.map f)) (Child.evalAll (ns.map f')) := by
  induction ns generalizing g with
  | nil =>
    rw [Node.flowAll, Option.some.injEq] at hflow
    subst hflow
    exact h.pure g []
  | cons n ns ih =>
    rw [Node.flowAll] at hflow
    obtain ⟨between, hn, hrest⟩ := Option.bind_eq_some_iff.1 hflow
    refine h.bind ((hns n List.mem_cons_self).eval hn) fun value => ?_
    refine h.bind (ih (fun m hm => hns m (List.mem_cons_of_mem n hm)) hrest) fun values => ?_
    exact h.pure after (value :: values)

/-- Where the children do not fit the kind, both sides fail alike, and nothing new is known. -/
private theorem raise_malformed {α : Type} (h : Respects d policy policy' rounds rounds' nodes rel)
    {kind : Kind} {children : List Node} {span : Option Span}
    (hself : ⟨kind, children, span⟩ ∈ nodes) (hcount : kind.takes children.length = false)
    (hafter : some g = some after) :
    rel g after
      (Run.raise (.malformed kind.name kind.arity (children.map f).length) : Run γ α)
      (Run.raise (.malformed kind.name kind.arity (children.map f').length)) := by
  cases hafter
  rw [List.length_map, List.length_map]
  exact h.malformed g hself hcount

/-- A binary operator over related operands. -/
private theorem binaryRule (h : Respects d policy policy' rounds rounds' nodes rel) {op : BinaryOp}
    {left right : Node} {span : Option Span} (hself : ⟨.binary op, [left, right], span⟩ ∈ nodes)
    (hleft : Stands d nodes rel left (f left) (f' left))
    (hright : Stands d nodes rel right (f right) (f' right))
    (hflow : (do
      let between ← Node.flow d g left
      let later ← Node.flow d between right
      return if op.isShortCircuit then between else later) = some after) :
    rel g after (Kind.evalRule policy rounds (.binary op) [f left, f right])
      (Kind.evalRule policy' rounds' (.binary op) [f' left, f' right]) := by
  obtain ⟨between, hfirst, hflow⟩ := Option.bind_eq_some_iff.1 hflow
  obtain ⟨later, hsecond, hafter⟩ := Option.bind_eq_some_iff.1 hflow
  cases hafter
  refine h.bind (hleft.eval hfirst) fun l => ?_
  have hboth : rel between later (do
        let r ← (f right).eval
        Run.ofExcept (op.apply l r)) (do
        let r ← (f' right).eval
        Run.ofExcept (op.apply l r)) :=
    h.bind (hright.eval hsecond) fun r => h.operation later (.binary hself rfl l r)
  -- only two operators may leave the right operand alone, and after these it does not count
  cases op with
  | and =>
    cases l.isTruthy with
    | false => exact h.pure _ _
    | true => exact h.forget hboth
  | or =>
    cases l.isTruthy with
    | false => exact h.forget hboth
    | true => exact h.pure _ _
  | _ => exact hboth

/-- A condition, and then one of two related ways. -/
private theorem choiceRule (h : Respects d policy policy' rounds rounds' nodes rel)
    {condition positive negative : Node}
    (hcondition : Stands d nodes rel condition (f condition) (f' condition))
    (hpositive : Stands d nodes rel positive (f positive) (f' positive))
    (hnegative : Stands d nodes rel negative (f negative) (f' negative))
    (hflow : (do
      let between ← Node.flow d g condition
      let afterPositive ← Node.flow d between positive
      let afterNegative ← Node.flow d between negative
      return d.join afterPositive afterNegative) = some after) :
    rel g after (do
        let value ← (f condition).eval
        if value.isTruthy then (f positive).eval else (f negative).eval) (do
        let value ← (f' condition).eval
        if value.isTruthy then (f' positive).eval else (f' negative).eval) := by
  obtain ⟨between, hbetween, hflow⟩ := Option.bind_eq_some_iff.1 hflow
  obtain ⟨afterPositive, hafterPositive, hflow⟩ := Option.bind_eq_some_iff.1 hflow
  obtain ⟨afterNegative, hafterNegative, hafter⟩ := Option.bind_eq_some_iff.1 hflow
  cases hafter
  refine h.bind (hcondition.eval hbetween) fun value => ?_
  exact h.choice value.isTruthy (hpositive.eval hafterPositive) (hnegative.eval hafterNegative)

/-- **Related children make related nodes.** This is the one place where evaluation is gone through
kind by kind. -/
theorem evalRule (h : Respects d policy policy' rounds rounds' nodes rel)
    {kind : Kind} {children : List Node} {span : Option Span}
    (hself : ⟨kind, children, span⟩ ∈ nodes)
    (hchild : ∀ c ∈ children, Stands d nodes rel c (f c) (f' c))
    (hflow : Node.flow d g ⟨kind, children, span⟩ = some after) :
    rel g after (kind.evalRule policy rounds (children.map f))
      (kind.evalRule policy' rounds' (children.map f')) := by
  -- the pass goes through the node as the rule does, so that what is known before a child is what
  -- the pass has found out by then
  rw [Node.flow.eq_def] at hflow
  cases kind with
  | script => exact h.evalSequence hchild hflow .void
  | block => exact h.evalSequence hchild hflow .void
  | literal value =>
    cases hflow
    exact h.pure g _
  | identifier name register =>
    obtain ⟨hread, hafter⟩ := Option.ite_none_right_eq_some.1 hflow
    cases hafter
    exact h.resolve hself rfl hread
  | var name register =>
    match children with
    | [] =>
      cases hflow
      exact h.pure g _
    | [init] =>
      obtain ⟨between, hinit, hafter⟩ := Option.bind_eq_some_iff.1 hflow
      cases hafter
      refine h.bind ((hchild init (by simp)).eval hinit) fun value => ?_
      exact h.bind (h.store between value hself rfl rfl) fun _ => h.pure _ value
    | _ :: _ :: _ => exact h.raise_malformed hself (by simp [Kind.takes]) hflow
  | assign =>
    match children with
    | [target, expression] =>
      obtain ⟨between, hexpression, htarget⟩ := Option.bind_eq_some_iff.1 hflow
      refine h.bind ((hchild expression (by simp)).eval hexpression) fun value => ?_
      -- the value comes first, and then the target that it is assigned to
      have hplace : target.IsTarget nodes := ⟨_, hself, rfl, expression, rfl⟩
      exact h.bind ((hchild target (by simp)).assign value hplace htarget) fun _ => h.pure _ value
    | [] | [_] | _ :: _ :: _ :: _ => exact h.raise_malformed hself (by simp [Kind.takes]) hflow
  | binary op =>
    match children with
    | [left, right] =>
      exact h.binaryRule hself (hchild left (by simp)) (hchild right (by simp)) hflow
    | [] | [_] | _ :: _ :: _ :: _ => exact h.raise_malformed hself (by simp [Kind.takes]) hflow
  | unary op =>
    match children with
    | [operand] =>
      exact h.bind ((hchild operand (by simp)).eval hflow) fun value =>
        h.operation after (.unary hself rfl value)
    | [] | _ :: _ :: _ => exact h.raise_malformed hself (by simp [Kind.takes]) hflow
  | ternary =>
    match children with
    | [condition, positive, negative] =>
      exact h.choiceRule (hchild condition (by simp)) (hchild positive (by simp))
        (hchild negative (by simp)) hflow
    | [] | [_] | [_, _] | _ :: _ :: _ :: _ :: _ =>
      exact h.raise_malformed hself (by simp [Kind.takes]) hflow
  | branch =>
    match children with
    | [condition, positive] =>
      obtain ⟨between, hcondition, hflow⟩ := Option.bind_eq_some_iff.1 hflow
      obtain ⟨later, hpositive, hafter⟩ := Option.bind_eq_some_iff.1 hflow
      cases hafter
      refine h.bind ((hchild condition (by simp)).eval hcondition) fun value => ?_
      -- what is skipped does not count
      exact Run.ite_rel value.isTruthy (h.forget ((hchild positive (by simp)).eval hpositive))
        (h.pure _ Value.void)
    | [condition, positive, negative] =>
      exact h.choiceRule (hchild condition (by simp)) (hchild positive (by simp))
        (hchild negative (by simp)) hflow
    | [] | [_] | _ :: _ :: _ :: _ :: _ =>
      exact h.raise_malformed hself (by simp [Kind.takes]) hflow
  | loop =>
    match children with
    | [condition, body] =>
      obtain ⟨between, hcondition, hflow⟩ := Option.bind_eq_some_iff.1 hflow
      obtain ⟨later, hbody, hafter⟩ := Option.bind_eq_some_iff.1 hflow
      cases hafter
      exact h.loop hself rfl ((hchild condition (by simp)).eval hcondition)
        ((hchild body (by simp)).eval hbody)
    | [] | [_] | _ :: _ :: _ :: _ => exact h.raise_malformed hself (by simp [Kind.takes]) hflow
  | array => exact h.bind (h.evalAll hchild hflow) fun items => h.pure after _
  | index =>
    match children with
    | [container, position] =>
      obtain ⟨between, hcontainer, hposition⟩ := Option.bind_eq_some_iff.1 hflow
      refine h.bind ((hchild container (by simp)).eval hcontainer) fun c => ?_
      exact h.bind ((hchild position (by simp)).eval hposition) fun i =>
        h.operation after (.element hself rfl c i)
    | [] | [_] | _ :: _ :: _ :: _ => exact h.raise_malformed hself (by simp [Kind.takes]) hflow
  | size =>
    match children with
    | [operand] =>
      exact h.bind ((hchild operand (by simp)).eval hflow) fun value =>
        h.operation after (.size hself rfl value)
    | [] | _ :: _ :: _ => exact h.raise_malformed hself (by simp [Kind.takes]) hflow

/-- **Related children make related targets.** Of a target only the index in it is evaluated. -/
theorem assignRule (h : Respects d policy policy' rounds rounds' nodes rel)
    {kind : Kind} {children : List Node} {span : Option Span}
    (hnodes : Node.preorder ⟨kind, children, span⟩ ⊆ nodes)
    (htarget : Node.IsTarget nodes ⟨kind, children, span⟩)
    (hchild : ∀ c ∈ children, Stands d nodes rel c (f c) (f' c))
    (hflow : Node.flowTarget d g ⟨kind, children, span⟩ = some after) (value : Value) :
    rel g after (kind.assignRule policy value (children.map f))
      (kind.assignRule policy' value (children.map f')) := by
  have hself : ⟨kind, children, span⟩ ∈ nodes := hnodes (Node.mem_preorder_self _)
  rw [Node.flowTarget.eq_def] at hflow
  cases kind with
  | identifier name register =>
    cases hflow
    exact h.assignVariable g value (.inl htarget) hself rfl
  | index =>
    match children with
    | [container, position] =>
      have hcontainer : container ∈ nodes :=
        hnodes (Node.preorder_subset (by simp) (Node.mem_preorder_self container))
      have hplace : container.IsContainer nodes := ⟨_, htarget, rfl, position, rfl⟩
      have hstands := hchild container (by simp)
      -- both sides see the same kind of container
      simp only [List.map_cons, List.map_nil, Kind.assignRule, hstands.kind_left,
        hstands.kind_right]
      cases hkind : container.kind with
      | identifier name register =>
        simp only [hkind] at hflow
        obtain ⟨between, hposition, hflow⟩ := Option.bind_eq_some_iff.1 hflow
        obtain ⟨hread, hafter⟩ := Option.ite_none_right_eq_some.1 hflow
        cases hafter
        refine h.bind ((hchild position (by simp)).eval hposition) fun i => ?_
        refine h.bind (h.resolve hcontainer hkind hread) fun current => ?_
        have hreplace := Node.Performs.replaceElement hself rfl
        refine h.bind (h.operation _ (hreplace current i value)) fun updated => ?_
        -- the container has been read, so nothing new is known of it
        exact h.forget (h.assignVariable _ updated (.inr hplace) hcontainer hkind)
      | _ =>
        simp only [hkind] at hflow
        cases hflow
        have hfails := h.notAssignable (α := Unit) g (.inr hplace) (by simp [hkind])
        rwa [hkind] at hfails
    | [] | [_] | _ :: _ :: _ :: _ => exact h.raise_malformed hself (by simp [Kind.takes]) hflow
  | _ =>
    cases hflow
    exact h.notAssignable g (.inl ⟨htarget, by simp⟩) (by simp)

end Run.Respects

end Scriptlet

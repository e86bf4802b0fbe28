import Scriptlet.Proofs.Evaluation.Rules

/-!
# Congruences of runs

Most of what is said about evaluation compares two runs of one tree: under two policies, over two
contexts, with other spans. Such a comparison never depends on the tree as a whole. It is enough
that the relation between the two runs is respected by the few operations that evaluation is made
of, and that the variables of the tree are read and written in related ways.

* `Run.Congruence` — the operations that a relation between runs has to respect;
* `Run.Congruence.interpret` — the two runs of a tree are then related.

A congruence is indifferent to the order of evaluation, so that nothing is kept track of in the
rules. What it asks for besides concerns the node around them: its depth and its place. The trees
compared may differ in their spans, by a function on spans. The policies and the bounds on unlimited
loops are those of either side.
-/

namespace Scriptlet

/-! ### Loops -/

variable {γ δ : Type} [Context γ] [Context δ]

omit [Context γ] in
/-- A loop without rounds left checks its condition once more. -/
theorem Run.iterate_zero (condition body exhausted : Run γ Value) (last : Value) :
    Run.iterate condition body exhausted 0 last =
      condition >>= fun value => if value.isTruthy then exhausted else pure last := by
  funext frame
  rw [iterate.eq_def, bind_apply]
  cases condition frame with
  | returned value frame => cases h : value.isTruthy <;> simp [h]
  | failed | unfinished => rfl

omit [Context γ] in
/-- A loop with a round left runs its body and goes on with the rest. -/
theorem Run.iterate_succ (condition body exhausted : Run γ Value) (rounds : Nat) (last : Value) :
    Run.iterate condition body exhausted (rounds + 1) last =
      condition >>= fun value =>
        if value.isTruthy then body >>= Run.iterate condition body exhausted rounds
        else pure last := by
  funext frame
  rw [iterate.eq_def, bind_apply]
  cases condition frame with
  | returned value frame =>
    cases h : value.isTruthy with
    | false => simp [h]
    | true =>
      simp only [h, if_true]
      rw [bind_apply]
      cases body frame <;> rfl
  | failed | unfinished => rfl

omit [Context γ] [Context δ] in
/-- Loops under the same bound are related if their parts are: a loop is made of its condition, its
body and its way to give up by sequence and choice alone. -/
theorem Run.iterate_rel {rel : Run γ Value → Run δ Value → Prop}
    (hpure : ∀ value : Value, rel (pure value) (pure value))
    (hbind : ∀ {first : Run γ Value} {first' : Run δ Value} {next : Value → Run γ Value}
      {next' : Value → Run δ Value}, rel first first' → (∀ value, rel (next value) (next' value)) →
        rel (first >>= next) (first' >>= next'))
    {condition body exhausted : Run γ Value} {condition' body' exhausted' : Run δ Value}
    (hcondition : rel condition condition') (hbody : rel body body')
    (hexhausted : rel exhausted exhausted') (rounds : Nat) (last : Value) :
    rel (Run.iterate condition body exhausted rounds last)
      (Run.iterate condition' body' exhausted' rounds last) := by
  induction rounds generalizing last with
  | zero =>
    rw [iterate_zero, iterate_zero]
    exact hbind hcondition fun value => ite_rel value.isTruthy hexhausted (hpure last)
  | succ rounds ih =>
    rw [iterate_succ, iterate_succ]
    exact hbind hcondition fun value => ite_rel value.isTruthy (hbind hbody ih) (hpure last)

/-- **A congruence of runs.** The relation holds between the operations that evaluation is made of,
and is kept by the ways they are put together. What depends on the tree is only asked where it
occurs in `nodes`. On the second side the span of a node is what `respan` makes of it. -/
structure Run.Congruence (policy policy' : Policy) (rounds rounds' : Nat)
    (respan : Option Span → Option Span) (nodes : List Node)
    (rel : ∀ {α : Type}, Run γ α → Run δ α → Prop) : Prop where
  pure {α : Type} (value : α) : rel (pure value) (pure value)
  bind {α β : Type} {first : Run γ α} {first' : Run δ α} {next : α → Run γ β}
    {next' : α → Run δ β} :
    rel first first' → (∀ value, rel (next value) (next' value)) →
      rel (first >>= next) (first' >>= next')
  locatedAt {α : Type} {run : Run γ α} {run' : Run δ α} (span : Option Span) :
    rel run run' → rel (run.locatedAt policy span) (run'.locatedAt policy' (respan span))
  checkDepth (depth : Nat) : rel (checkDepth policy depth) (checkDepth policy' depth)
  /-- Loops are related as soon as their conditions and their bodies are. -/
  loop {n : Node} {condition body : Run γ Value} {condition' body' : Run δ Value} :
    n ∈ nodes → n.kind = .loop → rel condition condition' → rel body body' →
      rel (boundedLoop policy rounds condition body) (boundedLoop policy' rounds' condition' body')
  operation {result : Except Fault Value} :
    Node.Performs nodes result → rel (Run.ofExcept result) (Run.ofExcept result)
  malformed {α : Type} {n : Node} :
    n ∈ nodes → n.kind.takes n.children.length = false →
      rel (Run.raise (.malformed n.kind.name n.kind.arity n.children.length) : Run γ α)
        (Run.raise (.malformed n.kind.name n.kind.arity n.children.length))
  /-- A target is a variable or an element of a container, and a container is a variable. -/
  notAssignable {α : Type} {n : Node} :
    n.IsTarget nodes ∧ n.kind ≠ .index ∨ n.IsContainer nodes →
      (∀ name register, n.kind ≠ .identifier name register) →
      rel (Run.raise (.notAssignable n.kind.name) : Run γ α)
        (Run.raise (.notAssignable n.kind.name))
  resolve {n : Node} {name : String} {register : Option Nat} :
    n ∈ nodes → n.kind = .identifier name register →
      rel (resolve policy name register) (resolve policy' name register)
  assignVariable {n : Node} {name : String} {register : Option Nat} (value : Value) :
    n.IsTarget nodes ∨ n.IsContainer nodes → n ∈ nodes → n.kind = .identifier name register →
      rel (assignVariable name register value) (assignVariable name register value)
  store {n init : Node} {name : String} {register : Nat} (value : Value) :
    n ∈ nodes → n.kind = .var name register → n.children = [init] →
      rel (Run.store register value) (Run.store register value)

namespace Run.Congruence

variable {policy policy' : Policy} {rounds rounds' : Nat} {respan : Option Span → Option Span}
  {nodes : List Node} {rel : ∀ {α : Type}, Run γ α → Run δ α → Prop}

/-- The rules respect a congruence, whatever is known of the variables. -/
theorem respects (h : Congruence policy policy' rounds rounds' respan nodes rel) :
    Respects .trivial policy policy' rounds rounds' nodes (fun _ _ {α} => @rel α) where
  pure _ value := h.pure value
  bind hfirst hnext := h.bind hfirst hnext
  forget hrun := hrun
  choice b hrun hother := ite_rel b hrun hother
  loop := h.loop
  operation _ := h.operation
  malformed _ := h.malformed
  notAssignable _ := h.notAssignable
  resolve hmem hkind _ := h.resolve hmem hkind
  assignVariable _ value := h.assignVariable value
  store _ value := h.store value

/-! ### Nodes -/

/-- The two evaluations of one node, at every depth. -/
def Evaluates (policy policy' : Policy) (rounds rounds' : Nat) (respan : Option Span → Option Span)
    (rel : ∀ {α : Type}, Run γ α → Run δ α → Prop) (n : Node) : Prop :=
  ∀ depth, rel (n.eval policy rounds depth) ((n.mapSpans respan).eval policy' rounds' depth)

/-- The two assignments to one node, at every depth, if it is assigned to. -/
def Assigns (policy policy' : Policy) (rounds rounds' : Nat) (respan : Option Span → Option Span)
    (nodes : List Node) (rel : ∀ {α : Type}, Run γ α → Run δ α → Prop) (n : Node) : Prop :=
  n.IsTarget nodes → ∀ depth value, rel (n.assign policy rounds depth value)
    ((n.mapSpans respan).assign policy' rounds' depth value)

/-- **The two evaluations of a tree are related**, and so are the two assignments to it. -/
theorem eval_and_assign (h : Congruence policy policy' rounds rounds' respan nodes rel) (n : Node)
    (hn : n.preorder ⊆ nodes) :
    Evaluates policy policy' rounds rounds' respan rel n ∧
      Assigns policy policy' rounds rounds' respan nodes rel n := by
  induction n with
  | node kind children span ih =>
    -- the two sides of a child stand for it at every depth
    have hchild (depth : Nat) : ∀ c ∈ children, Stands .trivial nodes (fun _ _ {α} => @rel α) c
        (c.asChild γ policy rounds depth)
        ((c.mapSpans respan).asChild δ policy' rounds' depth) := by
      intro c hc
      obtain ⟨heval, hassign⟩ := ih c hc (List.Subset.trans (Node.preorder_subset hc) hn)
      exact ⟨rfl, Node.kind_mapSpans respan c, fun _ => heval depth,
        fun value htarget _ => hassign htarget depth value⟩
    constructor
    · intro depth
      rw [Node.mapSpans_mk, Node.eval_mk, Node.eval_mk, List.map_map]
      refine h.locatedAt span (h.bind (h.checkDepth depth) fun _ => ?_)
      exact h.respects.evalRule (hn (Node.mem_preorder_self _)) (hchild (depth + 1))
        (Node.flow_trivial _).1
    · intro htarget depth value
      rw [Node.mapSpans_mk, Node.assign_mk, Node.assign_mk, List.map_map]
      exact h.respects.assignRule hn htarget (hchild depth) (Node.flow_trivial _).2 value

/-- **Related runs.** What holds between the operations holds between two runs of a tree. -/
theorem interpret {n : Node}
    (h : Congruence policy policy' rounds rounds' respan n.preorder rel) :
    rel (n.interpret policy rounds) ((n.mapSpans respan).interpret policy' rounds') :=
  (h.eval_and_assign n (List.Subset.refl _)).1 0

end Run.Congruence

end Scriptlet

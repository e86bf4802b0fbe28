import Scriptlet.Tree.Node

/-!
# Walking a tree

Trees can be deep, so a walk keeps the subtrees still to be visited in a worklist: it takes the
first one, visits its root, and puts the children in front of the rest. The number of nodes on the
list falls by one with every visit.

The same can be followed round by round, with the worklist on a stack that grows and shrinks at its
end: there the children of a node are put down in reverse, so that the first is taken next.

* `Node.fold` — a walk through a tree;
* `Walk.round?` — one round of it.
-/

namespace Scriptlet

namespace Node

@[simp]
theorem countAll_append (ns ms : List Node) :
    countAll (ns ++ ms) = countAll ns + countAll ms := by
  induction ns with
  | nil => simp [countAll]
  | cons n ns ih => simp [countAll, ih, Nat.add_assoc]

/-- A tree has one node more than its children. -/
theorem count_eq (n : Node) : n.count = countAll n.children + 1 := by
  cases n; simp [count]

/-- Visits every node of the pending trees, the first tree first and each node before its children,
passing on what `visit` makes of the state. -/
def foldPending (visit : α → Node → α) (state : α) (pending : List Node) : α :=
  match pending with
  | [] => state
  | n :: rest => foldPending visit (visit state n) (n.children ++ rest)
termination_by countAll pending
decreasing_by simp [countAll, count_eq n]

/-- Visits every node of the tree, each before its children. -/
def fold (visit : α → Node → α) (state : α) (n : Node) : α :=
  foldPending visit state [n]

end Node

/-- A walk on its way: what the visits have made of the state so far, and a stack with the trees
still to be visited, the next one at its end. -/
structure Walk (α : Type) where
  state : α
  pending : Array Node

namespace Walk

/-- A walk through `n` before its first round. -/
def start (state : α) (n : Node) : Walk α := ⟨state, #[n]⟩

/-- One round: takes the next tree from the stack, visits its root, and puts its children on the
stack, the last one first. There is no round if the stack is empty. -/
def round? (visit : α → Node → α) (w : Walk α) : Option (Walk α) :=
  w.pending.back?.map fun n => ⟨visit w.state n, w.pending.pop ++ n.children.reverse⟩

/-- The walk some rounds later, if there are as many. -/
def after? (visit : α → Node → α) (w : Walk α) : Nat → Option (Walk α)
  | 0 => some w
  | rounds + 1 => (w.round? visit).bind fun later => later.after? visit rounds

end Walk

end Scriptlet

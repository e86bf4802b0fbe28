import Scriptlet.Tree.Node

/-!
# Induction over trees

Trees are nested through lists of children, so the induction that comes with the type speaks of
nodes and of lists of nodes side by side. For most purposes one hypothesis about all children is
enough, and this is the induction principle that `induction` uses from here on.

* `Node.induction` — a property of a node from the same property of its children;
* `Node.preorder_subset` — a child brings no nodes of its own;
* `Node.descendantInduction` — a property of a node from the same property of all nodes below it;
* `Kind.fits` — the number of children that a kind is meant to have;
* `Node.mapSpans` — the tree with other spans, in particular with none (`Node.unlocated`).
-/

namespace Scriptlet

/-- Whether a node of the kind is complete with that many children, and has none too many. -/
def Kind.fits : Kind → Nat → Bool
  | script, _ | block, _ | array, _ => true
  | literal _, count | identifier .., count => count == 0
  | unary _, count | size, count => count == 1
  | assign, count | binary _, count | loop, count | index, count => count == 2
  | ternary, count => count == 3
  | var .., count => count ≤ 1
  | branch, count => count == 2 || count == 3

namespace Node

/-- **Induction over trees**, with one hypothesis for all children. -/
@[induction_eliminator]
theorem induction {motive : Node → Prop}
    (node : ∀ kind children span, (∀ c ∈ children, motive c) → motive ⟨kind, children, span⟩)
    (n : Node) : motive n := by
  -- for lists, the property of every node in them
  refine @Node.rec motive (fun ns => ∀ c ∈ ns, motive c) ?_ ?_ ?_ n
  · intro kind children span ih
    exact node kind children span ih
  · intro c hc
    cases hc
  · intro head tail hhead htail c hc
    rcases List.mem_cons.1 hc with rfl | hc
    · exact hhead
    · exact htail c hc

/-! ### The nodes of a tree -/

/-- The root comes first. -/
@[simp]
theorem preorder_mk (kind : Kind) (children : List Node) (span : Option Span) :
    preorder ⟨kind, children, span⟩ = ⟨kind, children, span⟩ :: preorderAll children := by
  rw [preorder]

/-- Trees in a row are walked one after the other. -/
@[simp]
theorem preorderAll_eq_flatMap (ns : List Node) : preorderAll ns = ns.flatMap preorder := by
  induction ns with
  | nil => rw [preorderAll, List.flatMap_nil]
  | cons n ns ih => rw [preorderAll, ih, List.flatMap_cons]

/-- A tree has its root. -/
theorem mem_preorder_self (n : Node) : n ∈ n.preorder := by
  obtain ⟨kind, children, span⟩ := n
  rw [preorder_mk]
  exact List.mem_cons_self

/-- **A child brings no nodes of its own.** -/
theorem preorder_subset {kind : Kind} {children : List Node} {span : Option Span} {c : Node}
    (hc : c ∈ children) : c.preorder ⊆ preorder ⟨kind, children, span⟩ := by
  intro m hm
  rw [preorder_mk, preorderAll_eq_flatMap]
  exact List.mem_cons_of_mem _ (List.mem_flatMap.2 ⟨c, hc, hm⟩)

/-- The same for a child that is known as one. -/
theorem preorder_subset_of_mem_children {n c : Node} (hc : c ∈ n.children) :
    c.preorder ⊆ n.preorder := by
  obtain ⟨kind, children, span⟩ := n
  exact preorder_subset hc

/-- The nodes of a tree are its root and those of its children. -/
theorem forall_mem_preorder_mk {P : Node → Prop} {kind : Kind} {children : List Node}
    {span : Option Span} :
    (∀ m ∈ preorder ⟨kind, children, span⟩, P m) ↔
      P ⟨kind, children, span⟩ ∧ ∀ c ∈ children, ∀ m ∈ c.preorder, P m := by
  rw [preorder_mk, preorderAll_eq_flatMap, List.forall_mem_cons, List.forall_mem_flatMap]

/-- The nodes below a node of a tree are nodes of the tree. -/
theorem preorder_subset_of_mem {n m : Node} (hm : m ∈ n.preorder) : m.preorder ⊆ n.preorder := by
  induction n with
  | node kind children span ih =>
    rw [preorder_mk, preorderAll_eq_flatMap, List.mem_cons, List.mem_flatMap] at hm
    rcases hm with rfl | ⟨c, hc, hm⟩
    · exact List.Subset.refl _
    · exact List.Subset.trans (ih c hc hm) (preorder_subset hc)

/-- **Induction over trees**, with a hypothesis for all nodes below. -/
theorem descendantInduction {motive : Node → Prop}
    (node : ∀ n : Node, (∀ c ∈ n.children, ∀ m ∈ c.preorder, motive m) → motive n) (n : Node) :
    motive n := by
  -- proved for all nodes of the tree at once, so that a child brings its own nodes along
  suffices h : ∀ m ∈ n.preorder, motive m from h n n.mem_preorder_self
  induction n with
  | node kind children span ih =>
    exact forall_mem_preorder_mk.2 ⟨node ⟨kind, children, span⟩ ih, ih⟩

/-! ### Other spans -/

mutual

/-- The tree with every span replaced by what `f` makes of it. -/
def mapSpans (f : Option Span → Option Span) : Node → Node
  | ⟨kind, children, span⟩ => ⟨kind, mapSpansAll f children, f span⟩

/-- The trees of a sequence with every span replaced. -/
def mapSpansAll (f : Option Span → Option Span) : List Node → List Node
  | [] => []
  | n :: ns => n.mapSpans f :: mapSpansAll f ns

end

/-- The tree without its spans. -/
def unlocated (n : Node) : Node := n.mapSpans fun _ => none

@[simp]
theorem mapSpansAll_eq_map (f : Option Span → Option Span) (ns : List Node) :
    mapSpansAll f ns = ns.map (mapSpans f) := by
  induction ns with
  | nil => rw [mapSpansAll, List.map_nil]
  | cons n ns ih => rw [mapSpansAll, ih, List.map_cons]

@[simp]
theorem mapSpans_mk (f : Option Span → Option Span) (kind : Kind) (children : List Node)
    (span : Option Span) :
    mapSpans f ⟨kind, children, span⟩ = ⟨kind, children.map (mapSpans f), f span⟩ := by
  rw [mapSpans, mapSpansAll_eq_map]

/-- Spans do not show in kinds. -/
@[simp]
theorem kind_mapSpans (f : Option Span → Option Span) (n : Node) :
    (n.mapSpans f).kind = n.kind := by
  cases n
  rw [mapSpans_mk]

/-- A tree whose spans are left alone is left alone. -/
@[simp]
theorem mapSpans_id (n : Node) : n.mapSpans id = n := by
  induction n with
  | node kind children span ih =>
    have hchildren : children.map (mapSpans id) = children :=
      (List.map_congr_left ih).trans (List.map_id' children)
    rw [mapSpans_mk, hchildren, id_eq]

@[simp]
theorem unlocated_mk (kind : Kind) (children : List Node) (span : Option Span) :
    unlocated ⟨kind, children, span⟩ = ⟨kind, children.map unlocated, none⟩ := by
  rw [unlocated, mapSpans_mk]
  rfl

end Node

end Scriptlet

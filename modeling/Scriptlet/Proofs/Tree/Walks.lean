import Mathlib.Data.List.Basic
import Scriptlet.Proofs.Tree.Subtrees
import Scriptlet.Tree.Walk

/-!
# What a walk visits

A walk visits the nodes of a tree in preorder. Its worklist knows nothing of the tree as a whole,
but at any time the nodes still to come are those of the trees on the stack, from its end to its
start and each tree in preorder. A round takes the first of them and leaves the others, so that the
walk is over when as many rounds have passed as the tree has nodes.

Equal subtrees may stand at several places. That none of them is forgotten or visited twice is said
of the places: those of a tree, in the order in which their nodes are visited, increase strictly in
the lexicographic order, and they are all places that there are.

* `Walk.upcoming` — the nodes still to come; `Walk.round?_cases` — what a round does to them;
* `Walk.map_state_after?` — how far a walk is after some rounds;
* `Node.at?`, `Node.paths` — the node at a place, and the places of a tree in preorder;
* `Node.fold_visits_preorder` — a walk visits every node once, in preorder, and ends.
-/

namespace Scriptlet

variable {α : Type}

namespace Node

/-! ### The worklist -/

/-- **The worklist holds the trees whose nodes are still to come**, in their order. -/
private theorem foldPending_eq_foldl (visit : α → Node → α) (state : α) (pending : List Node) :
    foldPending visit state pending = (preorderAll pending).foldl visit state := by
  -- a node is followed by its children, and these by what was to come before
  induction state, pending using foldPending.induct visit with
  | case1 state => rw [foldPending, preorderAll, List.foldl_nil]
  | case2 state n rest ih =>
    obtain ⟨kind, children, span⟩ := n
    rw [foldPending, ih]
    simp

/-- **A walk visits the nodes in preorder.** -/
theorem fold_eq_foldl (visit : α → Node → α) (state : α) (n : Node) :
    n.fold visit state = n.preorder.foldl visit state := by
  rw [fold, foldPending_eq_foldl]
  simp

mutual

private theorem length_preorder : ∀ n : Node, n.preorder.length = n.count
  | ⟨kind, children, span⟩ => by
    rw [preorder, count, List.length_cons, length_preorderAll children]

private theorem length_preorderAll : ∀ ns : List Node, (preorderAll ns).length = countAll ns
  | [] => by rw [preorderAll, countAll, List.length_nil]
  | n :: ns => by
    rw [preorderAll, countAll, List.length_append, length_preorder n, length_preorderAll ns]

end

end Node

/-! ### Rounds -/

namespace Walk

/-- The nodes still to come. The stack is read from its end. -/
def upcoming (w : Walk α) : List Node := w.pending.toList.reverse.flatMap Node.preorder

/-- At the start the whole tree is to come. -/
private theorem upcoming_start (state : α) (n : Node) : (start state n).upcoming = n.preorder := by
  simp [start, upcoming]

/-- **What a round does.** Either nothing is to come and there is no round, or the round visits the
first of the nodes to come and leaves the others. -/
theorem round?_cases (visit : α → Node → α) (w : Walk α) :
    (w.upcoming = [] ∧ w.round? visit = none) ∨
      ∃ n later, w.round? visit = some later ∧ later.state = visit w.state n ∧
        w.upcoming = n :: later.upcoming := by
  obtain ⟨state, ⟨stack⟩⟩ := w
  rcases List.eq_nil_or_concat stack with rfl | ⟨below, n, rfl⟩
  · exact .inl ⟨rfl, rfl⟩
  · obtain ⟨kind, children, span⟩ := n
    refine .inr ⟨⟨kind, children, span⟩, ⟨_, ⟨below ++ children.reverse⟩⟩, ?_, rfl, ?_⟩
    · simp [round?]
    · -- the children were put down in reverse, and are read from the end
      simp [upcoming]

/-- **How far a walk is after some rounds.** As many nodes have been visited as rounds have passed,
the first of those that were to come, and there are as many rounds as nodes to come. -/
theorem map_state_after? (visit : α → Node → α) (w : Walk α) (rounds : Nat) :
    (w.after? visit rounds).map state =
      if rounds ≤ w.upcoming.length then some ((w.upcoming.take rounds).foldl visit w.state)
      else none := by
  induction rounds generalizing w with
  | zero => simp [after?]
  | succ rounds ih =>
    rw [after?]
    rcases round?_cases visit w with ⟨hnone, hround⟩ | ⟨n, later, hround, hstate, hupcoming⟩
    · rw [hround, hnone]
      rfl
    · -- the round has visited `n`, and the others are left to `later`
      rw [hround, Option.bind_some, ih, hstate, hupcoming, List.length_cons,
        List.take_succ_cons, List.foldl_cons]
      simp only [Nat.add_le_add_iff_right]

end Walk

/-! ### Places -/

namespace Node

/-- The node at a place: the path to it gives the index of the child to go to, at every node from
the root on. -/
def at? (n : Node) : List Nat → Option Node
  | [] => some n
  | i :: path => n.children[i]?.bind fun c => c.at? path

mutual

/-- The places of all nodes of the tree, in preorder. -/
def paths : Node → List (List Nat)
  | ⟨_, children, _⟩ => [] :: pathsFrom 0 children

/-- The places below a node, in the children from index `i` on. -/
def pathsFrom (i : Nat) : List Node → List (List Nat)
  | [] => []
  | n :: ns => n.paths.map (i :: ·) ++ pathsFrom (i + 1) ns

end

private theorem pathsFrom_eq_flatMap (i : Nat) (ns : List Node) :
    pathsFrom i ns = (ns.zipIdx i).flatMap fun c => c.1.paths.map (c.2 :: ·) := by
  induction ns generalizing i with
  | nil => rw [pathsFrom, List.zipIdx_nil, List.flatMap_nil]
  | cons n ns ih => rw [pathsFrom, ih, List.zipIdx_cons, List.flatMap_cons]

/-- The places of a tree are its root and those of its children, each behind its index. -/
private theorem paths_mk (kind : Kind) (children : List Node) (span : Option Span) :
    paths ⟨kind, children, span⟩ =
      [] :: children.zipIdx.flatMap fun c => c.1.paths.map (c.2 :: ·) := by
  rw [paths, pathsFrom_eq_flatMap]

/-- **The listed places are all places of the tree.** -/
private theorem mem_paths_iff {n : Node} {path : List Nat} :
    path ∈ n.paths ↔ (n.at? path).isSome := by
  induction n generalizing path with
  | node kind children span ih =>
    rw [paths_mk]
    -- the root is always there; any other place is in the child that its first index names
    cases path with
    | nil => simp [at?]
    | cons i path =>
      simp only [List.mem_cons, reduceCtorEq, false_or, List.mem_flatMap, List.mem_map,
        List.cons.injEq, Prod.exists, List.mem_zipIdx_iff_getElem?, at?]
      constructor
      · rintro ⟨c, j, hc, path', hpath, rfl, rfl⟩
        rw [hc, Option.bind_some]
        exact (ih c (List.mem_of_getElem? hc)).1 hpath
      · intro h
        cases hc : children[i]? with
        | none => simp [hc] at h
        | some c =>
          rw [hc, Option.bind_some] at h
          exact ⟨c, i, hc, path, (ih c (List.mem_of_getElem? hc)).2 h, rfl, rfl⟩

/-- **The places are listed in lexicographic order**, and so each of them once. -/
private theorem pairwise_paths (n : Node) : n.paths.Pairwise (List.Lex (· < ·)) := by
  induction n with
  | node kind children span ih =>
    rw [paths_mk, List.pairwise_cons]
    constructor
    · -- a node comes before all below it
      intro path hpath
      obtain ⟨c, -, hpath⟩ := List.mem_flatMap.1 hpath
      obtain ⟨below, -, rfl⟩ := List.mem_map.1 hpath
      exact .nil
    · rw [List.pairwise_flatMap]
      constructor
      · rintro ⟨c, i⟩ hc
        have hmem : c ∈ children := List.mem_of_getElem? (List.mem_zipIdx_iff_getElem?.1 hc)
        exact List.pairwise_map.2 ((ih c hmem).imp fun h => .cons h)
      · -- what is below one child comes before what is below a later one
        have hindices : (children.zipIdx.map Prod.snd).Pairwise (· < ·) := by
          rw [List.zipIdx_map_snd]
          exact List.pairwise_lt_range'
        refine (List.pairwise_map.1 hindices).imp fun hlt path hpath path' hpath' => ?_
        obtain ⟨below, -, rfl⟩ := List.mem_map.1 hpath
        obtain ⟨below', -, rfl⟩ := List.mem_map.1 hpath'
        exact .rel hlt

/-- **The nodes in preorder are those at the listed places.** -/
private theorem map_at?_paths (n : Node) : n.paths.map n.at? = n.preorder.map some := by
  induction n with
  | node kind children span ih =>
    rw [paths_mk, preorder_mk, preorderAll_eq_flatMap, List.map_cons, List.map_cons,
      List.map_flatMap, List.map_flatMap]
    congr 1
    -- a place in a child is reached through the child
    have hchildren : ∀ c ∈ children.zipIdx,
        (c.1.paths.map (c.2 :: ·)).map (at? ⟨kind, children, span⟩) = c.1.preorder.map some := by
      rintro ⟨c, i⟩ hc
      have hget : children[i]? = some c := List.mem_zipIdx_iff_getElem?.1 hc
      rw [← ih c (List.mem_of_getElem? hget), List.map_map]
      refine List.map_congr_left fun path _ => ?_
      simp [at?, hget]
    calc children.zipIdx.flatMap
          (fun c => (c.1.paths.map (c.2 :: ·)).map (at? ⟨kind, children, span⟩))
      _ = children.zipIdx.flatMap (fun c => c.1.preorder.map some) :=
        List.flatMap_congr hchildren
      _ = (children.zipIdx.map Prod.fst).flatMap (fun c => c.preorder.map some) := by
        rw [List.flatMap_map]
      _ = children.flatMap (fun c => c.preorder.map some) := by rw [List.zipIdx_map_fst]

/-! ### Every tree -/

/-- **A walk visits every node once, in preorder, and ends.** Whatever is done at the visits, the
walk does it at the nodes of the preorder, one after the other: after some rounds it has done so for
as many nodes, and there are exactly as many rounds as nodes. The nodes of the preorder are those at
the places of the tree, from the first place to the last; no place is listed twice and none is
missing. -/
theorem fold_visits_preorder (n : Node) :
    (∀ {α : Type} (visit : α → Node → α) (state : α),
      n.fold visit state = n.preorder.foldl visit state ∧
      ∀ rounds, ((Walk.start state n).after? visit rounds).map Walk.state =
        if rounds ≤ n.count then some ((n.preorder.take rounds).foldl visit state) else none) ∧
    n.preorder.map some = n.paths.map n.at? ∧
    n.paths.Pairwise (List.Lex (· < ·)) ∧
    ∀ path, path ∈ n.paths ↔ (n.at? path).isSome := by
  refine ⟨fun visit state => ⟨n.fold_eq_foldl visit state, fun rounds => ?_⟩, n.map_at?_paths.symm,
    n.pairwise_paths, fun path => mem_paths_iff⟩
  rw [Walk.map_state_after?, Walk.upcoming_start, length_preorder]
  rfl

end Node

end Scriptlet

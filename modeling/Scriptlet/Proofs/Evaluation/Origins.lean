import Mathlib.Data.List.Chain
import Scriptlet.Proofs.Evaluation.Parts

/-!
# Where failures come from

A failure is raised by one node, in a step of its own, and passes through the nodes that were being
evaluated when it was raised. Each of them may add its span, but only the first span stays. So the
place of a failure is the span of the innermost of these nodes that has one.

* `Node.parts` — the nodes that a node may evaluate;
* `Node.FailsItself` — a node fails without one of its parts failing;
* `Node.BreaksAlong` — nodes being evaluated inside one another, down to one that raises a fault;
* `Node.BreaksAlong.eval`, `Node.exists_breaksAlong` — a node fails exactly along such a chain;
* `Node.interpret_broken_along` — a tree by itself, with the place of the failure.
-/

namespace Scriptlet

namespace Node

/-! ### Chains of nodes -/

/-- What is evaluated of the target of an assignment: the index, if the container is a variable. -/
def targetIndex? : Node → Option Node
  | ⟨.index, [container, position], _⟩ => container.kind.reference?.map fun _ => position
  | _ => none

/-- The nodes that a node may evaluate. -/
def parts : Node → List Node
  | ⟨.assign, [target, expression], _⟩ => expression :: target.targetIndex?.toList
  | n => n.children

/-- The span of the last node that has one. -/
def innermostSpan (chain : List Node) : Option Span := (chain.filterMap span).getLast?

@[simp]
theorem innermostSpan_nil : innermostSpan [] = none := rfl

@[simp]
theorem innermostSpan_cons (n : Node) (chain : List Node) :
    innermostSpan (n :: chain) = (innermostSpan chain).or n.span := by
  rw [innermostSpan, innermostSpan]
  cases h : n.span with
  | none => rw [List.filterMap_cons_none h, Option.or_none]
  | some span =>
    rw [List.filterMap_cons_some h, List.getLast?_cons]
    cases (chain.filterMap Node.span).getLast? <;> rfl

/-- There is no innermost span exactly if no node of the chain has one. -/
private theorem innermostSpan_eq_none_iff {chain : List Node} :
    innermostSpan chain = none ↔ ∀ m ∈ chain, m.span = none := by
  rw [innermostSpan, List.getLast?_eq_none_iff, List.filterMap_eq_nil_iff]

variable {γ : Type} [Context γ]

section Chains

variable (policy : Policy) (rounds : Nat)

/-- The node, inside `depth` others, fails over the second frame though no part of it does: it is
refused for its depth, or a step of its own fails. -/
inductive FailsItself (depth : Nat) (n : Node) (frame : Frame γ) : Fault → Frame γ → Prop where
  | refused {limit : Nat} (limit_eq : policy.depthLimit = some limit) (deep : limit ≤ depth) :
      FailsItself depth n frame (.tooDeep limit) frame
  | own {fault : Fault} {final : Frame γ} (admitted : policy.Admits depth)
      (breaks : n.Breaks policy rounds (depth + 1) frame fault final) :
      FailsItself depth n frame fault final

/-- **A chain of nodes being evaluated**, each by the one before it, of which the last raises the
fault. -/
inductive BreaksAlong : Nat → Node → Frame γ → List Node → Fault → Frame γ → Prop where
  | here {depth : Nat} {n : Node} {frame final : Frame γ} {fault : Fault}
      (itself : n.FailsItself policy rounds depth frame fault final) :
      BreaksAlong depth n frame [n] fault final
  | inside {depth : Nat} {n part : Node} {frame mid final : Frame γ} {chain : List Node}
      {fault : Fault} (admitted : policy.Admits depth)
      (evaluates : n.Evaluates policy rounds (depth + 1) frame part mid)
      (rest : BreaksAlong (depth + 1) part mid chain fault final) :
      BreaksAlong depth n frame (n :: chain) fault final

end Chains

variable {policy : Policy} {rounds depth : Nat} {n part : Node} {frame mid final : Frame γ}
  {chain : List Node} {fault : Fault}

/-- A node evaluates nothing but its parts. -/
theorem Evaluates.mem_parts (h : n.Evaluates policy rounds depth frame part mid) :
    part ∈ n.parts := by
  cases h with
  | inTurn hkind _ => rcases hkind with rfl | rfl | rfl <;> simp [parts]
  | targetIndex hkind _ => simp [parts, targetIndex?, hkind, Kind.reference?]
  | condition hchooses | positive hchooses _ _ | negative hchooses _ _ =>
    cases hchooses <;> simp [parts]
  | _ => simp [parts]

private theorem mem_children_of_targetIndex? (h : n.targetIndex? = some part) :
    part ∈ n.children := by
  rw [targetIndex?.eq_def] at h
  split at h
  · obtain ⟨_, _, rfl⟩ := Option.map_eq_some_iff.1 h
    simp
  · cases h

/-- The parts of a node stand below it. -/
theorem exists_child_of_mem_parts (h : part ∈ n.parts) : ∃ c ∈ n.children, part ∈ c.preorder := by
  rw [parts.eq_def] at h
  split at h
  · next target expression span =>
    rcases List.mem_cons.1 h with rfl | hindex
    · exact ⟨part, by simp, part.mem_preorder_self⟩
    · -- the index is a child of the target
      have hchild := mem_children_of_targetIndex? (Option.mem_toList.1 hindex)
      exact ⟨target, by simp, preorder_subset_of_mem_children hchild part.mem_preorder_self⟩
  · exact ⟨part, h, part.mem_preorder_self⟩

/-! ### Failing along a chain -/

/-- A node that stands too deep does nothing else than to fail. -/
private theorem eval_refused {limit : Nat} (hlimit : policy.depthLimit = some limit)
    (hdeep : limit ≤ depth) :
    n.eval policy rounds depth frame =
      .failed ((Failure.of (.tooDeep limit)).placed policy n.span) frame := by
  have hcheck : (checkDepth policy depth : Run γ Unit) = .raise (.tooDeep limit) := by
    rw [checkDepth, hlimit]
    exact if_pos hdeep
  obtain ⟨kind, children, span⟩ := n
  rw [eval_mk, hcheck]
  rfl

/-- **What raises a fault fails with it**, at its own place. -/
theorem FailsItself.eval (h : n.FailsItself policy rounds depth frame fault final) :
    n.eval policy rounds depth frame = .failed ((Failure.of fault).placed policy n.span) final := by
  cases h with
  | refused hlimit hdeep => exact eval_refused hlimit hdeep
  | own hadmits hbreaks => exact hbreaks.eval hadmits

/-- The span that a failure has after it has passed through a chain of nodes. -/
def placeAlong (policy : Policy) (chain : List Node) : Option Span :=
  if policy.located then innermostSpan chain else none

/-- What raises a fault gives it its own place. -/
private theorem placed_singleton (policy : Policy) (n : Node) (fault : Fault) :
    (Failure.of fault).placed policy n.span = ⟨fault, placeAlong policy [n]⟩ := by
  unfold Failure.placed placeAlong
  cases policy.located <;> simp [Failure.of, Failure.locate]

/-- A node adds its place only where the chain below it has none. -/
private theorem placed_cons (policy : Policy) (n : Node) (chain : List Node) (fault : Fault) :
    Failure.placed policy n.span ⟨fault, placeAlong policy chain⟩ =
      ⟨fault, placeAlong policy (n :: chain)⟩ := by
  unfold Failure.placed placeAlong
  cases policy.located <;> simp [Failure.locate]

/-- **Nodes fail along the chain** of what they evaluate. -/
theorem BreaksAlong.eval (h : n.BreaksAlong policy rounds depth frame chain fault final) :
    n.eval policy rounds depth frame = .failed ⟨fault, placeAlong policy chain⟩ final := by
  induction h with
  | here hitself => rw [hitself.eval, placed_singleton]
  | inside hadmits hevaluates _ ih => rw [hevaluates.eval hadmits ih, placed_cons]

/-- **A failure has been raised at the end of a chain.** -/
theorem exists_breaksAlong {failure : Failure}
    (h : n.eval policy rounds depth frame = .failed failure final) :
    ∃ chain, n.BreaksAlong policy rounds depth frame chain failure.fault final ∧
      failure.span = placeAlong policy chain := by
  -- a part need not be a child, so that the hypothesis has to be about all nodes below
  induction n using descendantInduction generalizing depth frame failure with
  | node n ih =>
    rcases checkDepth_cases (γ := γ) policy depth with ⟨hadmits, -⟩ | ⟨limit, hlimit, hdeep, -⟩
    · obtain ⟨inner, rfl, ⟨fault, rfl, hbreaks⟩ | ⟨part, mid, hevaluates, hfail⟩⟩ :=
        eval_failed_cases hadmits h
      · rw [placed_singleton]
        exact ⟨[n], .here (.own hadmits hbreaks), rfl⟩
      · obtain ⟨c, hc, hpart⟩ := exists_child_of_mem_parts hevaluates.mem_parts
        obtain ⟨chain, hchain, hspan⟩ := ih c hc part hpart hfail
        obtain ⟨fault, span⟩ := inner
        obtain rfl : span = placeAlong policy chain := hspan
        rw [placed_cons]
        exact ⟨n :: chain, .inside hadmits hevaluates hchain, rfl⟩
    · cases (eval_refused hlimit hdeep).symm.trans h
      rw [placed_singleton]
      exact ⟨[n], .here (.refused hlimit hdeep), rfl⟩

/-- A chain starts with the node that is evaluated, and goes from each node to one of its parts. -/
private theorem BreaksAlong.isChain
    (h : n.BreaksAlong policy rounds depth frame chain fault final) :
    chain.head? = some n ∧ chain.IsChain fun m part => part ∈ m.parts := by
  induction h with
  | here => exact ⟨rfl, .singleton _⟩
  | inside _ hevaluates _ ih =>
    refine ⟨rfl, List.isChain_cons.2 ⟨?_, ih.2⟩⟩
    intro m hm
    rw [ih.1] at hm
    cases hm
    exact hevaluates.mem_parts

/-- **A failure is placed at the innermost node with a span.** If the run of a tree fails, then
along a chain of nodes, from the tree itself through what each node evaluates down to the node that
raises the fault. If places are asked for, the failure has the last span in the chain, and none
exactly if the chain has none; so it has one if the tree has. If places are not asked for, it has
none. Every such chain comes from a run that fails. -/
theorem interpret_broken_along (policy : Policy) (n : Node) (start : Frame γ) :
    (∀ failure final, n.Ends policy start (.failed failure final) →
      ∃ rounds chain, n.BreaksAlong policy rounds 0 start chain failure.fault final ∧
        (chain.head? = some n ∧ chain.IsChain fun m part => part ∈ m.parts) ∧
        (policy.located → failure.span = innermostSpan chain ∧
          (failure.span = none ↔ ∀ m ∈ chain, m.span = none) ∧
          (n.span.isSome → failure.span.isSome)) ∧
        (policy.located = false → failure.span = none)) ∧
    ∀ rounds chain fault final, n.BreaksAlong policy rounds 0 start chain fault final →
      ∃ failure, failure.fault = fault ∧ n.Ends policy start (.failed failure final) := by
  constructor
  -- a failure comes from the end of a chain, and its place from the nodes of that chain
  · rintro failure final ⟨-, rounds, hrun⟩
    obtain ⟨chain, hchain, hspan⟩ := exists_breaksAlong hrun
    have hlinked := hchain.isChain
    refine ⟨rounds, chain, hchain, hlinked, fun hlocated => ?_, fun hlocated => ?_⟩
    · have hinnermost : failure.span = innermostSpan chain := by
        rw [hspan, placeAlong, if_pos hlocated]
      have hnone : failure.span = none ↔ ∀ m ∈ chain, m.span = none := by
        rw [hinnermost, innermostSpan_eq_none_iff]
      refine ⟨hinnermost, hnone, fun hsome => ?_⟩
      rw [← Option.ne_none_iff_isSome] at hsome ⊢
      exact fun h => hsome (hnone.1 h n (List.mem_of_head? hlinked.1))
    · rw [hspan, placeAlong, hlocated]
      rfl
  -- and whatever chain breaks makes the run fail
  · intro rounds chain fault final hchain
    exact ⟨_, rfl, by simp, rounds, hchain.eval⟩

/-- An index without a span of its own. -/
def plainIndex : Node := ⟨.identifier "i" none, [], none⟩

/-- The tree of `a[i] = 1`, in which the target and the assignment have spans. -/
def assignAtPlainIndex : Node :=
  ⟨.assign, [⟨.index, [⟨.identifier "a" none, [], some ⟨0, 1⟩⟩, plainIndex], some ⟨0, 4⟩⟩,
    ⟨.literal (.int 1), [], some ⟨7, 8⟩⟩], some ⟨0, 8⟩⟩

/-- An index that is not defined fails directly below the assignment, so that the failure gets the
span of the assignment, and not that of the target. -/
theorem interpret_broken_along_assignAtPlainIndex :
    BreaksAlong {} 0 0 assignAtPlainIndex ⟨.empty, Variables.empty⟩
        [assignAtPlainIndex, plainIndex] (.undefinedVariable "i") ⟨.empty, Variables.empty⟩ ∧
      ∃ rounds chain,
        BreaksAlong {} rounds 0 assignAtPlainIndex ⟨.empty, Variables.empty⟩ chain
          (.undefinedVariable "i") ⟨.empty, Variables.empty⟩ ∧
        innermostSpan chain = some ⟨0, 8⟩ := by
  have hends : assignAtPlainIndex.Ends {} ⟨.empty, Variables.empty⟩
      (.failed ⟨.undefinedVariable "i", some ⟨0, 8⟩⟩ ⟨.empty, Variables.empty⟩) :=
    ⟨by simp, 0, rfl⟩
  constructor
  · have hevaluates : assignAtPlainIndex.Evaluates {} 0 1 ⟨.empty, Variables.empty⟩ plainIndex
        ⟨.empty, Variables.empty⟩ := .targetIndex rfl rfl
    exact .inside nofun hevaluates (.here (.own nofun (.undefined rfl rfl)))
  · obtain ⟨rounds, chain, hchain, -, hplace, -⟩ :=
      (interpret_broken_along {} assignAtPlainIndex ⟨.empty, Variables.empty⟩).1 _ _ hends
    exact ⟨rounds, chain, hchain, (hplace rfl).1.symm⟩

end Node

end Scriptlet

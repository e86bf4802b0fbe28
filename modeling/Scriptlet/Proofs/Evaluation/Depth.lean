import Scriptlet.Evaluation.Interpreter
import Scriptlet.Proofs.Evaluation.Loosening
import Scriptlet.Proofs.Evaluation.Rules
import Scriptlet.Proofs.Evaluation.Simulation

/-!
# The depth of nodes

An interpreter counts the nodes that it is inside of, and a policy may limit their number. Failures
cut evaluation short at any point, and the count has to be right all the same, or the next tree
would start at a depth that is not its own.

Counting is compared with being told: `Node.eval` has the depth as an argument and cannot get it
wrong. The two do the same from the same frame, and the count at the end is the count at the start.

* `InStep` — a frame with its count, and the frame alone;
* `Node.evalCounting_simulates` — counting a node does what evaluating it at that depth does;
* `Interpreter.Reaches` — what an interpreter can become by evaluating trees;
* `Interpreter.interpret_as_new` — it evaluates every tree as a new one would.

A tree of some height is never deeper than that. Its run is not refused by a limit that is at least
its height, since the two policies, with and without the limit, refuse the same nodes of it: none.
-/

namespace Scriptlet

/-! ### Height -/

namespace Node

mutual

/-- The number of nodes on the longest way from the root to a leaf. -/
def height : Node → Nat
  | ⟨_, children, _⟩ => heightAll children + 1

/-- The greatest height in a sequence of trees. -/
def heightAll : List Node → Nat
  | [] => 0
  | n :: ns => max n.height (heightAll ns)

end

private theorem height_mk (kind : Kind) (children : List Node) (span : Option Span) :
    height ⟨kind, children, span⟩ = heightAll children + 1 := by
  rw [height]

private theorem height_le_heightAll {c : Node} {children : List Node} (hc : c ∈ children) :
    c.height ≤ heightAll children := by
  induction children with
  | nil => cases hc
  | cons n ns ih =>
    rw [heightAll]
    rcases List.mem_cons.1 hc with rfl | hc
    · exact Nat.le_max_left ..
    · exact Nat.le_trans (ih hc) (Nat.le_max_right ..)

end Node

/-! ### Refusals -/

namespace Policy

/-- The limit by which a node below `depth` others is refused, if it is. -/
def refusal? (policy : Policy) (depth : Nat) : Option Nat :=
  policy.depthLimit.filter (· ≤ depth)

/-- The policy with another limit on the depth. -/
def relimit (policy : Policy) (limit : Option Nat) : Policy := { policy with depthLimit := limit }

/-- With the other limit the policy refuses the same at `count` depths from `depth` on. -/
def RefusesAlike (policy : Policy) (limit : Option Nat) (depth count : Nat) : Prop :=
  ∀ d, depth ≤ d → d < depth + count → policy.refusal? d = (policy.relimit limit).refusal? d

variable {policy : Policy} {limit : Option Nat} {depth : Nat}

/-- The children of a node stand one deeper, and are not as high. -/
theorem RefusesAlike.child {kind : Kind} {children : List Node} {span : Option Span} {c : Node}
    (h : policy.RefusesAlike limit depth (Node.height ⟨kind, children, span⟩))
    (hc : c ∈ children) : policy.RefusesAlike limit (depth + 1) c.height := by
  intro d hle hlt
  have hheight := Node.height_le_heightAll hc
  rw [Node.height_mk] at h
  exact h d (by omega) (by omega)

/-- What is evaluated in a target stands no deeper than the target, and is not as high. -/
theorem RefusesAlike.part {kind : Kind} {children : List Node} {span : Option Span} {c : Node}
    (h : policy.RefusesAlike limit depth (Node.height ⟨kind, children, span⟩))
    (hc : c ∈ children) : policy.RefusesAlike limit depth c.height := by
  intro d hle hlt
  have hheight := Node.height_le_heightAll hc
  rw [Node.height_mk] at h
  exact h d hle (by omega)

end Policy

/-- A node is refused with the limit that refuses it. -/
private theorem checkDepth_eq {γ : Type} (policy : Policy) (depth : Nat) :
    (checkDepth policy depth : Run γ Unit) =
      match policy.refusal? depth with
      | some limit => .raise (.tooDeep limit)
      | none => pure () := by
  rw [checkDepth, Policy.refusal?]
  cases policy.depthLimit with
  | none => rfl
  | some limit =>
    rw [Option.filter_some]
    by_cases h : limit ≤ depth
    · simp only [h, decide_true, if_true]
    · simp only [h, decide_false, if_false, Bool.false_eq_true]

/-! ### Counting and being told -/

variable {γ : Type}

/-- **The invariant of the two runs**: the same registers and context, and a count of `depth`. -/
def InStep (depth : Nat) (f : Frame (Counting γ)) (g : Frame γ) : Prop :=
  f = ⟨g.registers, g.context, depth⟩

namespace InStep

variable {α : Type} {policy : Policy} {depth : Nat}

/-- What is counted in is counted out, so that a run inside one more node leaves the count as it
was. -/
theorem inside {run : Run (Counting γ) α} {run' : Run γ α}
    (h : Run.Simulates (InStep (depth + 1)) run run') :
    Run.Simulates (InStep depth) run.inside run' := by
  rintro f g rfl
  have hout := h ⟨g.registers, g.context, depth + 1⟩ g rfl
  rw [Run.inside, Frame.recount]
  dsimp only
  generalize run ⟨g.registers, g.context, depth + 1⟩ = outcome at hout
  generalize run' g = outcome' at hout
  cases hout with
  | returned value hstep =>
    cases hstep
    exact .returned value rfl
  | failed failure hstep =>
    -- the count is put right on the way out of a failure too
    cases hstep
    exact .failed failure rfl
  | unfinished => exact .unfinished

/-- A node is entered exactly where one at that depth is not refused. -/
theorem entering {limit : Option Nat} {run : Run (Counting γ) α} {run' : Run γ α}
    (hrefusal : policy.refusal? depth = (policy.relimit limit).refusal? depth)
    (h : Run.Simulates (InStep (depth + 1)) run run') :
    Run.Simulates (InStep depth) (Run.entering policy run)
      (do checkDepth (policy.relimit limit) depth; run') := by
  have hcheck : Run.Simulates (InStep depth) (checkDepth policy depth : Run (Counting γ) Unit)
      (checkDepth (policy.relimit limit) depth : Run γ Unit) := by
    rw [checkDepth_eq, checkDepth_eq, hrefusal]
    cases (policy.relimit limit).refusal? depth with
    | none => exact Run.simulates_pure ()
    | some limit => exact Run.simulates_raise _
  rintro f g rfl
  exact hcheck.bind (fun _ => inside h) _ g rfl

variable [Context γ]

/-- Reading a variable does not look at the count. -/
theorem resolve (policy : Policy) (name : String) (register : Option Nat) :
    Run.Simulates (InStep depth) (resolve policy name register : Run (Counting γ) Value)
      (resolve policy name register : Run γ Value) := by
  rintro f g rfl
  have hread : Frame.read? ⟨g.registers, (⟨g.context, depth⟩ : Counting γ)⟩ name register =
      g.read? name register := rfl
  rw [resolve_apply, resolve_apply, hread]
  cases g.read? name register with
  | some value => exact .returned value rfl
  | none =>
    cases policy.strict with
    | true => exact .failed _ rfl
    | false => exact .returned _ rfl

omit [Context γ] in
/-- Writing a register does not touch the count. -/
theorem store (register : Nat) (value : Value) :
    Run.Simulates (InStep depth) (Run.store register value : Run (Counting γ) Unit)
      (Run.store register value : Run γ Unit) := by
  rintro f g rfl
  rw [Run.store, Run.store]
  cases g.registers.store? register value with
  | some registers => exact .returned () rfl
  | none => exact .failed _ rfl

/-- Writing a variable leaves the count as it is, also in the context. -/
theorem assignVariable (name : String) (register : Option Nat) (value : Value) :
    Run.Simulates (InStep depth) (assignVariable name register value : Run (Counting γ) Unit)
      (assignVariable name register value : Run γ Unit) := by
  cases register with
  | some i => exact store i value
  | none =>
    rintro f g rfl
    exact .returned () rfl

/-- Counted or told, the rules do the same. They do not look at the depth. -/
theorem respects (policy : Policy) (limit : Option Nat) (rounds depth : Nat) (nodes : List Node) :
    Run.Respects .trivial policy (policy.relimit limit) rounds rounds nodes
      (fun _ _ {α} (run : Run (Counting γ) α) (run' : Run γ α) =>
        Run.Simulates (InStep depth) run run') where
  pure _ := Run.simulates_pure
  bind hfirst hnext := hfirst.bind hnext
  forget hrun := hrun
  choice b hrun hother := Run.ite_rel b hrun hother
  loop _ _ hcondition hbody := hcondition.boundedLoop hbody policy rounds
  operation _ _ := Run.simulates_ofExcept _
  malformed _ _ _ := Run.simulates_raise _
  notAssignable _ _ _ := Run.simulates_raise _
  resolve _ _ _ := resolve policy _ _
  assignVariable _ value _ _ _ := assignVariable _ _ value
  store _ value _ _ _ := store _ value

end InStep

namespace Node

variable [Context γ] {policy : Policy} {limit : Option Nat} {rounds : Nat} {nodes : List Node}

/-- The node as a child of one that is evaluated by counting. -/
def asChildCounting (γ : Type) [Context γ] (policy : Policy) (rounds : Nat) (n : Node) :
    Child (Counting γ) :=
  ⟨n.kind, n.evalCounting policy rounds, fun value => n.assignCounting policy rounds value⟩

private theorem asChildrenCounting_eq_map (ns : List Node) :
    asChildrenCounting policy rounds ns = ns.map (asChildCounting γ policy rounds) := by
  induction ns with
  | nil => rw [asChildrenCounting, List.map_nil]
  | cons n ns ih => rw [asChildrenCounting, List.map_cons, ih, asChildCounting]

/-- Counting and being told do the same at every depth where the two policies refuse alike. -/
def CountsRight (γ : Type) [Context γ] (policy : Policy) (limit : Option Nat) (rounds : Nat)
    (n : Node) : Prop :=
  ∀ depth, policy.RefusesAlike limit depth n.height →
    Run.Simulates (InStep depth) (n.evalCounting policy rounds : Run (Counting γ) Value)
      (n.eval (policy.relimit limit) rounds depth)

/-- The same for assignments to a node, if it is assigned to. -/
def AssignsRight (γ : Type) [Context γ] (policy : Policy) (limit : Option Nat) (rounds : Nat)
    (nodes : List Node) (n : Node) : Prop :=
  n.IsTarget nodes → ∀ depth value, policy.RefusesAlike limit depth n.height →
    Run.Simulates (InStep depth) (n.assignCounting policy rounds value : Run (Counting γ) Unit)
      (n.assign (policy.relimit limit) rounds depth value)

/-- Counted and told, a child stands for the node where the two policies refuse alike. -/
private theorem stands_counting {n : Node} {depth : Nat}
    (heval : CountsRight γ policy limit rounds n)
    (hassign : AssignsRight γ policy limit rounds nodes n)
    (halike : policy.RefusesAlike limit depth n.height) :
    Run.Stands .trivial nodes
      (fun _ _ {α} (run : Run (Counting γ) α) (run' : Run γ α) =>
        Run.Simulates (InStep depth) run run') n
      (n.asChildCounting γ policy rounds) (n.asChild γ (policy.relimit limit) rounds depth) where
  kind_left := rfl
  kind_right := rfl
  eval _ := heval depth halike
  assign value htarget _ := hassign htarget depth value halike

/-- **Counting a node does what evaluating it at that depth does**, under any policy that refuses
the same at the depths of the tree. -/
theorem evalCounting_simulates (policy : Policy) (limit : Option Nat) (rounds : Nat) (n : Node)
    (hn : n.preorder ⊆ nodes) :
    CountsRight γ policy limit rounds n ∧ AssignsRight γ policy limit rounds nodes n := by
  -- by induction on the tree, for all depths at once: the children stand one deeper
  induction n with
  | node kind children span ih =>
    have hparts (c : Node) (hc : c ∈ children) :=
      ih c hc (List.Subset.trans (preorder_subset hc) hn)
    constructor
    · intro depth halike
      rw [evalCounting, asChildrenCounting_eq_map, eval_mk]
      have hrefusal : policy.refusal? depth = (policy.relimit limit).refusal? depth :=
        halike depth (Nat.le_refl depth) (by rw [height_mk]; omega)
      refine (InStep.entering hrefusal ?_).locatedAt policy span
      -- what is evaluated in the node is evaluated one deeper
      have hchild (c : Node) (hc : c ∈ children) :=
        stands_counting (hparts c hc).1 (hparts c hc).2 (halike.child hc)
      exact (InStep.respects policy limit rounds (depth + 1) nodes).evalRule
        (hn (mem_preorder_self _)) hchild (flow_trivial _).1
    · intro htarget depth value halike
      rw [assignCounting, asChildrenCounting_eq_map, assign_mk]
      -- the target is not entered, and what is evaluated in it stands no deeper
      have hchild (c : Node) (hc : c ∈ children) :=
        stands_counting (hparts c hc).1 (hparts c hc).2 (halike.part hc)
      exact (InStep.respects policy limit rounds depth nodes).assignRule hn htarget hchild
        (flow_trivial _).2 value

end Node

/-! ### Interpreters -/

namespace Interpreter

variable [Context γ] {policy : Policy} {registers : Registers} {context : γ}

/-- What an interpreter makes of the outcome of a run that was told the depth, if its count is
`depth` at the end. -/
def conclude (policy : Policy) (depth : Nat) :
    Outcome γ Value → Option (Except Failure Value × Interpreter γ)
  | .returned value frame => some (.ok value, ⟨policy, frame.registers, frame.context, depth⟩)
  | .failed failure frame => some (.error failure, ⟨policy, frame.registers, frame.context, depth⟩)
  | .unfinished => none

/-- **A call is an evaluation at the depth of the interpreter**, and leaves that depth as it was,
even if it fails. -/
theorem interpret_eq (i : Interpreter γ) (limit : Option Nat) (rounds : Nat) {n : Node}
    (halike : i.policy.RefusesAlike limit i.depth n.height) :
    i.interpret rounds n = conclude i.policy i.depth
      (n.eval (i.policy.relimit limit) rounds i.depth ⟨i.registers, i.context⟩) := by
  have hout :=
    (n.evalCounting_simulates i.policy limit rounds (List.Subset.refl _)).1 i.depth halike
    i.frame ⟨i.registers, i.context⟩ rfl
  rw [interpret]
  generalize n.evalCounting i.policy rounds i.frame = outcome at hout
  generalize n.eval (i.policy.relimit limit) rounds i.depth ⟨i.registers, i.context⟩ = outcome'
    at hout
  -- the count of a frame that is in step is the depth
  cases hout with
  | returned value hstep =>
    cases hstep
    rfl
  | failed failure hstep =>
    cases hstep
    rfl
  | unfinished => rfl

/-- What an interpreter can become by evaluating trees, whether it succeeds or fails with them. -/
inductive Reaches (i : Interpreter γ) : Interpreter γ → Prop where
  | start : Reaches i i
  | call {j k : Interpreter γ} {rounds : Nat} {n : Node} {result : Except Failure Value}
      (before : Reaches i j) (run : j.interpret rounds n = some (result, k)) : Reaches i k

/-- **The step**: a call changes neither the policy nor the count. -/
theorem depth_of_interpret {i j : Interpreter γ} {rounds : Nat} {n : Node}
    {result : Except Failure Value} (h : i.interpret rounds n = some (result, j)) :
    j.policy = i.policy ∧ j.depth = i.depth := by
  rw [interpret_eq i i.policy.depthLimit rounds fun _ _ _ => rfl] at h
  generalize n.eval (i.policy.relimit i.policy.depthLimit) rounds i.depth
    ⟨i.registers, i.context⟩ = outcome at h
  cases outcome with
  | returned value frame =>
    cases h
    exact ⟨rfl, rfl⟩
  | failed failure frame =>
    cases h
    exact ⟨rfl, rfl⟩
  | unfinished => cases h

/-- **The run**: an interpreter is new again after any number of calls, but for the registers and
the context. -/
theorem Reaches.eq_build {i : Interpreter γ} (h : (build policy registers context).Reaches i) :
    i = build policy i.registers i.context := by
  have hsteps : i.policy = policy ∧ i.depth = 0 := by
    induction h with
    | start => exact ⟨rfl, rfl⟩
    | call _ hrun ih =>
      obtain ⟨hpolicy, hdepth⟩ := depth_of_interpret hrun
      exact ⟨hpolicy.trans ih.1, hdepth.trans ih.2⟩
  obtain ⟨rfl, hdepth⟩ := hsteps
  rw [build, ← hdepth]

/-- **A tree is refused for its depth only if it is higher than the limit.** -/
private theorem limit_lt_height {rounds : Nat} {n : Node} {failure : Failure} {i : Interpreter γ}
    {depth : Nat}
    (h : (build policy registers context).interpret rounds n = some (.error failure, i))
    (hfault : failure.fault = .tooDeep depth) :
    ∃ limit, policy.depthLimit = some limit ∧ limit < n.height := by
  -- without a limit no tree is refused
  have hnever (rounds : Nat) : Run.Avoids (· = .tooDeep depth)
      (n.interpret (policy.relimit none) rounds : Run γ Value) := by
    apply Run.Avoids.interpret <;> simp [Policy.relimit, Fault.isRefusal]
  -- and where no node is refused, the limit makes no difference
  have hcontra (halike : policy.RefusesAlike none 0 n.height) : False := by
    rw [interpret_eq _ none rounds halike] at h
    have hfine := hnever rounds ⟨registers, context⟩
    rw [Node.interpret] at hfine
    change conclude policy 0 (n.eval (policy.relimit none) rounds 0 ⟨registers, context⟩) = _ at h
    generalize n.eval (policy.relimit none) rounds 0 ⟨registers, context⟩ = outcome at h hfine
    cases outcome with
    | returned value frame => cases h
    | failed failure' frame =>
      cases h
      exact hfine (.tooDeep depth) (congrArg some hfault) rfl
    | unfinished => cases h
  cases hlimit : policy.depthLimit with
  | none =>
    refine (hcontra fun d _ _ => ?_).elim
    rw [Policy.refusal?, Policy.refusal?, hlimit, Policy.relimit]
  | some limit =>
    refine ⟨limit, rfl, Nat.lt_of_not_le fun hle => hcontra fun d _ hd => ?_⟩
    rw [Policy.refusal?, Policy.refusal?, hlimit, Policy.relimit, Option.filter_some, if_neg]
    · rfl
    · simp only [decide_eq_true_eq]
      omega

/-- **Depth accounting survives failures.** Whatever trees an interpreter has evaluated, and however
it has failed with them, its count is zero again. It evaluates the next tree as a new interpreter
would with the registers and the context as they are, and that is what the tree does by itself. It
refuses the tree for its depth only if the tree is higher than the limit. -/
theorem interpret_as_new {i : Interpreter γ} (h : (build policy registers context).Reaches i)
    (rounds : Nat) (n : Node) :
    i.depth = 0 ∧
    i.interpret rounds n = (build policy i.registers i.context).interpret rounds n ∧
    i.interpret rounds n =
      conclude policy 0 (n.interpret policy rounds ⟨i.registers, i.context⟩) ∧
    ∀ failure j depth, i.interpret rounds n = some (.error failure, j) →
      failure.fault = .tooDeep depth →
        ∃ limit, policy.depthLimit = some limit ∧ limit < n.height := by
  rw [h.eq_build]
  refine ⟨rfl, rfl, ?_, fun failure j depth hrun => limit_lt_height hrun⟩
  exact interpret_eq _ policy.depthLimit rounds fun _ _ _ => rfl

/-- Assigns one to `x`, below as many signs as given. -/
def signedAssignment : Nat → Node
  | 0 => ⟨.assign, [⟨.identifier "x" none, [], none⟩, ⟨.literal (.int 1), [], none⟩], none⟩
  | signs + 1 => ⟨.unary .neg, [signedAssignment signs], none⟩

/-- Three nodes deep, the number is refused by a limit of two. The assignment alone is within the
limit, and the interpreter that has just failed evaluates it. -/
theorem interpret_as_new_signedAssignment :
    let start := build { depthLimit := some 2 } .empty Variables.empty
    ∃ i, start.interpret 0 (signedAssignment 1) = some (.error (.of (.tooDeep 2)), i) ∧
      2 < (signedAssignment 1).height ∧ i.depth = 0 ∧
      i.interpret 0 (signedAssignment 0) =
        (build { depthLimit := some 2 } i.registers i.context).interpret 0 (signedAssignment 0) ∧
      (i.interpret 0 (signedAssignment 0)).map (·.1.toOption.isSome) = some true := by
  intro start
  have hfails : start.interpret 0 (signedAssignment 1) =
      some (.error (.of (.tooDeep 2)), start) := rfl
  obtain ⟨limit, hlimit, hheight⟩ := (interpret_as_new (Reaches.start (i := start)) 0
    (signedAssignment 1)).2.2.2 _ _ _ hfails rfl
  cases hlimit
  obtain ⟨hdepth, hnew, -⟩ := interpret_as_new ((Reaches.start (i := start)).call hfails) 0
    (signedAssignment 0)
  exact ⟨start, hfails, hheight, hdepth, hnew, rfl⟩

end Interpreter

end Scriptlet

import Scriptlet.Proofs.Evaluation.Endings
import Scriptlet.Proofs.Evaluation.Frames

/-!
# Contracts of runs

What can be said about a single run, wherever it starts: which invariant its frame keeps, by which
faults it may fail, and whether it ends. A contract says all three at once, because they depend on
each other. Whether a register that is written exists, for instance, is a question about the frame.

* `Contract` — an invariant, the faults allowed, and whether a run may be left unfinished;
* `Run.Keeps` — from a frame with the invariant, the run ends within the contract;
* `Contract.Covers` — the contract allows what the nodes of a tree can run into;
* `Contract.Covers.eval`, `Contract.Covers.interpret` — the run of such a tree keeps the contract.

A contract is a congruence of which the second run plays no part.
-/

namespace Scriptlet

/-- What a run is held to. -/
structure Contract (γ : Type) where
  /-- What holds of the frame at the start, and still holds at the end. -/
  invariant : Frame γ → Prop
  /-- The causes by which the run may fail. -/
  allowed : Fault → Prop
  /-- Whether the run may be left unfinished. -/
  mayGiveUp : Prop

variable {γ : Type} {α β : Type} {c : Contract γ}

/-- The outcome is within the contract. -/
def Outcome.Meets (c : Contract γ) : Outcome γ α → Prop
  | returned _ frame => c.invariant frame
  | failed failure frame => c.allowed failure.fault ∧ c.invariant frame
  | unfinished => c.mayGiveUp

namespace Outcome.Meets

variable {outcome : Outcome γ α}

/-- Whatever frame is left, the invariant holds of it. -/
theorem invariant (h : outcome.Meets c) {frame : Frame γ} (hframe : outcome.frame? = some frame) :
    c.invariant frame := by
  cases outcome with
  | returned value final =>
    cases hframe
    exact h
  | failed failure final =>
    cases hframe
    exact h.2
  | unfinished => cases hframe

/-- Whatever fault is raised is allowed. -/
theorem allowed (h : outcome.Meets c) {fault : Fault} (hfault : outcome.fault? = some fault) :
    c.allowed fault := by
  cases outcome with
  | failed failure final =>
    cases hfault
    exact h.1
  | returned | unfinished => cases hfault

/-- Where giving up is not allowed, the run ends. -/
theorem ne_unfinished (h : outcome.Meets c) (hends : ¬ c.mayGiveUp) : outcome ≠ .unfinished := by
  rintro rfl
  exact hends h

end Outcome.Meets

namespace Run

/-- **Keeping a contract.** From every frame with the invariant, the run ends within the
contract. -/
def Keeps (c : Contract γ) (run : Run γ α) : Prop :=
  ∀ frame, c.invariant frame → (run frame).Meets c

/-! ### The operations of runs -/

theorem keeps_pure (value : α) : Keeps c (pure value : Run γ α) := fun _ h => h

private theorem keeps_raise {fault : Fault} (h : c.allowed fault) :
    Keeps c (raise fault : Run γ α) :=
  fun _ hframe => ⟨h, hframe⟩

private theorem keeps_giveUp (h : c.mayGiveUp) : Keeps c (giveUp : Run γ α) := fun _ _ => h

private theorem keeps_ofExcept {result : Except Fault α} (h : Raises c.allowed result) :
    Keeps c (ofExcept result : Run γ α) := by
  cases result with
  | ok value => exact keeps_pure value
  | error fault => exact keeps_raise (Raises.error.1 h)

/-- What has kept the contract so far leaves the invariant to what comes next. -/
theorem Keeps.bind {first : Run γ α} {next : α → Run γ β} (hfirst : Keeps c first)
    (hnext : ∀ value, Keeps c (next value)) : Keeps c (first >>= next) := by
  intro frame hframe
  have hmeets := hfirst frame hframe
  rw [bind_apply]
  cases hout : first frame with
  | returned value final =>
    rw [hout] at hmeets
    exact hnext value final hmeets
  | failed failure final =>
    rw [hout] at hmeets
    exact hmeets
  | unfinished =>
    rw [hout] at hmeets
    exact hmeets

/-- A contract does not speak of places. -/
theorem Keeps.locatedAt {run : Run γ α} (hrun : Keeps c run) (policy : Policy)
    (span : Option Span) : Keeps c (run.locatedAt policy span) := by
  intro frame hframe
  have hmeets := hrun frame hframe
  rw [Run.locatedAt]
  cases hout : run frame with
  | returned value final =>
    rw [hout] at hmeets
    exact hmeets
  | failed failure final =>
    rw [hout] at hmeets
    -- a place changes neither the cause nor the frame
    cases hlocated : policy.located with
    | true => simpa [hlocated, Outcome.Meets] using hmeets
    | false => simpa [hlocated, Outcome.Meets] using hmeets
  | unfinished =>
    rw [hout] at hmeets
    exact hmeets

private theorem keeps_checkDepth {policy : Policy}
    (h : ∀ limit, policy.depthLimit = some limit → c.allowed (.tooDeep limit)) (depth : Nat) :
    Keeps c (checkDepth policy depth : Run γ Unit) := by
  rw [checkDepth]
  cases hdepth : policy.depthLimit with
  | none => exact keeps_pure ()
  | some limit =>
    dsimp only
    split
    · exact keeps_raise (h limit hdepth)
    · exact keeps_pure ()

/-- A loop keeps a contract if its parts do. It may raise its limit, or give up if there is none. -/
theorem Keeps.boundedLoop {policy : Policy} {condition body : Run γ Value}
    (hlimit : ∀ limit, policy.roundLimit = some limit → c.allowed (.tooManyRounds limit))
    (hgiveUp : policy.roundLimit = none → c.mayGiveUp) (hcondition : Keeps c condition)
    (hbody : Keeps c body) (rounds : Nat) : Keeps c (boundedLoop policy rounds condition body) := by
  have hiterate {exhausted : Run γ Value} (hexhausted : Keeps c exhausted) (rounds : Nat) :
      Keeps c (iterate condition body exhausted rounds .void) :=
    @iterate_rel γ γ (fun run _ => Keeps c run) keeps_pure Keeps.bind condition body exhausted
      condition body exhausted hcondition hbody hexhausted rounds .void
  rw [Scriptlet.boundedLoop]
  cases hround : policy.roundLimit with
  | some limit => exact hiterate (keeps_raise (hlimit limit hround)) limit
  | none => exact hiterate (keeps_giveUp (hgiveUp hround)) rounds

/-- Reading a variable changes nothing, and raises at most that the variable is undefined. -/
private theorem keeps_resolve [Context γ] {policy : Policy}
    (h : ∀ name, policy.strict → c.allowed (.undefinedVariable name)) (name : String)
    (register : Option Nat) : Keeps c (resolve policy name register : Run γ Value) := by
  intro frame hframe
  rw [resolve_apply]
  cases frame.read? name register with
  | some value => exact hframe
  | none =>
    cases hstrict : policy.strict with
    | false => exact hframe
    | true => exact ⟨h _ hstrict, hframe⟩

/-- A register that is not refused may be written, if the invariant survives it. -/
theorem keeps_store {register : Nat} {value : Value}
    (hwritten : ∀ frame registers, c.invariant frame →
      frame.registers.store? register value = some registers →
        c.invariant { frame with registers := registers })
    (hunknown : ∀ frame, c.invariant frame → frame.registers.length ≤ register →
      c.allowed (.unknownRegister register)) : Keeps c (store register value : Run γ Unit) := by
  intro frame hframe
  rcases store_cases register value frame with ⟨registers, hstore, hrun⟩ | ⟨hle, hrun⟩
  · rw [hrun]
    exact hwritten frame registers hframe hstore
  · rw [hrun]
    exact ⟨hunknown frame hframe hle, hframe⟩

end Run

/-! ### Trees -/

variable [Context γ]

/-- **Covering a tree.** The contract allows whatever the policy may refuse and whatever the nodes
may run into, and the writes of the nodes keep it. -/
structure Contract.Covers (c : Contract γ) (policy : Policy) (nodes : List Node) : Prop where
  depth : ∀ limit, policy.depthLimit = some limit → c.allowed (.tooDeep limit)
  undefined : ∀ name, policy.strict → c.allowed (.undefinedVariable name)
  rounds : ∀ n ∈ nodes, n.kind = .loop → ∀ limit, policy.roundLimit = some limit →
    c.allowed (.tooManyRounds limit)
  giveUp : ∀ n ∈ nodes, n.kind = .loop → policy.roundLimit = none → c.mayGiveUp
  operation : ∀ result, Node.Performs nodes result → Raises c.allowed result
  malformed : ∀ n ∈ nodes, n.kind.takes n.children.length = false →
    c.allowed (.malformed n.kind.name n.kind.arity n.children.length)
  notAssignable : ∀ n : Node, n.IsTarget nodes ∧ n.kind ≠ .index ∨ n.IsContainer nodes →
    (∀ name register, n.kind ≠ .identifier name register) → c.allowed (.notAssignable n.kind.name)
  assign : ∀ n ∈ nodes, n.IsTarget nodes ∨ n.IsContainer nodes → ∀ name register,
    n.kind = .identifier name register → ∀ value,
      Run.Keeps c (assignVariable name register value : Run γ Unit)
  store : ∀ n ∈ nodes, ∀ name register init, n.kind = .var name register →
    n.children = [init] → ∀ value, Run.Keeps c (Run.store register value : Run γ Unit)

/-- What covers a tree covers every part of it. -/
theorem Contract.Covers.mono {policy : Policy} {nodes nodes' : List Node}
    (h : c.Covers policy nodes) (hsub : nodes' ⊆ nodes) : c.Covers policy nodes' where
  depth := h.depth
  undefined := h.undefined
  rounds n hn := h.rounds n (hsub hn)
  giveUp n hn := h.giveUp n (hsub hn)
  operation result hperforms := h.operation result (hperforms.mono hsub)
  malformed n hn := h.malformed n (hsub hn)
  notAssignable n hplace :=
    h.notAssignable n (hplace.imp (fun h => ⟨h.1.mono hsub, h.2⟩) fun h => h.mono hsub)
  assign n hn hplace :=
    h.assign n (hsub hn) (hplace.imp (fun h => h.mono hsub) fun h => h.mono hsub)
  store n hn := h.store n (hsub hn)

/-- What a contract asks of a run is a congruence, and what it covers respects it. -/
theorem Contract.Covers.congruence {policy : Policy} {nodes : List Node}
    (h : c.Covers policy nodes) (rounds : Nat) :
    Run.Congruence policy policy rounds rounds id nodes (fun (run _ : Run γ _) => run.Keeps c) where
  pure := Run.keeps_pure
  bind := Run.Keeps.bind
  locatedAt span hrun := hrun.locatedAt policy span
  checkDepth := Run.keeps_checkDepth h.depth
  loop hm hkind hcondition hbody :=
    hcondition.boundedLoop (h.rounds _ hm hkind) (h.giveUp _ hm hkind) hbody rounds
  operation hperforms := Run.keeps_ofExcept (h.operation _ hperforms)
  malformed hm hcount := Run.keeps_raise (h.malformed _ hm hcount)
  notAssignable hplace hkind := Run.keeps_raise (h.notAssignable _ hplace hkind)
  resolve _ _ := Run.keeps_resolve h.undefined _ _
  assignVariable value hplace hm hkind := h.assign _ hm hplace _ _ hkind value
  store value hm hkind hchildren := h.store _ hm _ _ _ hkind hchildren value

/-- **The run of a tree keeps every contract that covers the tree**, at every depth. -/
theorem Contract.Covers.eval {policy : Policy} {n : Node} (h : c.Covers policy n.preorder)
    (rounds depth : Nat) : Run.Keeps c (n.eval policy rounds depth : Run γ Value) :=
  ((h.congruence rounds).eval_and_assign n (List.Subset.refl _)).1 depth

/-- **A tree run by itself keeps every contract that covers it.** -/
theorem Contract.Covers.interpret {policy : Policy} {n : Node} (h : c.Covers policy n.preorder)
    (rounds : Nat) : Run.Keeps c (n.interpret policy rounds : Run γ Value) :=
  h.eval rounds 0

end Scriptlet

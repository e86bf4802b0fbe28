import Mathlib.Data.List.Basic
import Scriptlet.Proofs.Evaluation.Elements
import Scriptlet.Proofs.Evaluation.Failures
import Scriptlet.Proofs.Evaluation.Footprint

/-!
# The steps of a node

What evaluation does, one node at a time. A node either evaluates a part, from the frame that has
been reached by then, or does a step of its own once its parts have returned. A target of an
assignment, and a container in it, are no parts: of a target only the index is evaluated.

* `Node.Evaluates` — the parts that a node evaluates, each with the frame it is evaluated from;
* `Node.Breaks` — the steps of its own that a node can fail in, each with the frame it leaves;
* `Node.eval_failed_cases` — a node fails in a step of its own or together with a part;
* `Node.Breaks.eval`, `Node.Evaluates.eval` — and it does fail then.
-/

namespace Scriptlet

variable {γ : Type}

/-! ### What a node evaluates -/

/-- Whether the left operand settles the operator, so that the right one is not evaluated. -/
def BinaryOp.isSettled : BinaryOp → Value → Bool
  | and, left => !left.isTruthy
  | or, left => left.isTruthy
  | _, _ => false

/-- The node is a choice: by the condition, what to evaluate if it holds, and what otherwise. -/
inductive Node.Chooses : Node → Node → Node → Option Node → Prop where
  | ternary (condition positive negative : Node) (span : Option Span) :
    Chooses ⟨.ternary, [condition, positive, negative], span⟩ condition positive (some negative)
  | branch (condition positive : Node) (span : Option Span) :
    Chooses ⟨.branch, [condition, positive], span⟩ condition positive none
  | branchElse (condition positive negative : Node) (span : Option Span) :
    Chooses ⟨.branch, [condition, positive, negative], span⟩ condition positive (some negative)

variable [Context γ]

section Parts

variable (policy : Policy) (rounds depth : Nat)

/-- The nodes return, one after the other, from the first frame to the second. -/
inductive Node.Pass : List Node → Frame γ → Frame γ → Prop where
  | nil (frame : Frame γ) : Pass [] frame frame
  | cons {n : Node} {ns : List Node} {frame mid final : Frame γ} {value : Value}
      (first : n.eval policy rounds depth frame = .returned value mid) (rest : Pass ns mid final) :
      Pass (n :: ns) frame final

/-- The loop of two nodes. -/
def Node.loopOf (condition body : Node) : Loop γ :=
  ⟨condition.eval policy rounds depth, body.eval policy rounds depth⟩

/-- **What a node evaluates.** Evaluation of the node from the first frame comes to evaluate the
part from the second. Parts are at the given depth. -/
inductive Node.Evaluates : Node → Frame γ → Node → Frame γ → Prop where
  -- statements and elements, once those before them have returned
  | inTurn {kind : Kind} {before after : List Node} {part : Node} {span : Option Span}
      {frame mid : Frame γ} (kind_eq : kind = .script ∨ kind = .block ∨ kind = .array)
      (passed : Pass policy rounds depth before frame mid) :
      Evaluates ⟨kind, before ++ part :: after, span⟩ frame part mid
  | initialiser {name : String} {register : Nat} {init : Node} {span : Option Span}
      {frame : Frame γ} : Evaluates ⟨.var name register, [init], span⟩ frame init frame
  | assigned {target expression : Node} {span : Option Span} {frame : Frame γ} :
      Evaluates ⟨.assign, [target, expression], span⟩ frame expression frame
  -- of a target only the index is evaluated, and only if the container is a variable
  | targetIndex {container position expression : Node} {name : String} {register : Option Nat}
      {span span' : Option Span} {frame mid : Frame γ} {value : Value}
      (kind_eq : container.kind = .identifier name register)
      (assigned : expression.eval policy rounds depth frame = .returned value mid) :
      Evaluates ⟨.assign, [⟨.index, [container, position], span'⟩, expression], span⟩ frame
        position mid
  | left {op : BinaryOp} {left right : Node} {span : Option Span} {frame : Frame γ} :
      Evaluates ⟨.binary op, [left, right], span⟩ frame left frame
  | right {op : BinaryOp} {left right : Node} {span : Option Span} {frame mid : Frame γ}
      {l : Value} (returned : left.eval policy rounds depth frame = .returned l mid)
      (unsettled : op.isSettled l = false) :
      Evaluates ⟨.binary op, [left, right], span⟩ frame right mid
  | operand {op : UnaryOp} {operand : Node} {span : Option Span} {frame : Frame γ} :
      Evaluates ⟨.unary op, [operand], span⟩ frame operand frame
  | condition {n condition positive : Node} {negative : Option Node} {frame : Frame γ}
      (chooses : n.Chooses condition positive negative) : Evaluates n frame condition frame
  | positive {n condition positive : Node} {negative : Option Node} {frame mid : Frame γ}
      {value : Value} (chooses : n.Chooses condition positive negative)
      (returned : condition.eval policy rounds depth frame = .returned value mid)
      (holds : value.isTruthy) : Evaluates n frame positive mid
  | negative {n condition positive negative : Node} {frame mid : Frame γ} {value : Value}
      (chooses : n.Chooses condition positive (some negative))
      (returned : condition.eval policy rounds depth frame = .returned value mid)
      (fails : value.isTruthy = false) : Evaluates n frame negative mid
  -- a loop checks its condition in every state that its turns lead through
  | loopCondition {condition body : Node} {span : Option Span} {frame : Frame γ}
      {s : Loop.State γ}
      (reaches : (loopOf policy rounds depth condition body).Reaches
        (some (policy.roundLimit.getD rounds)) (Loop.start frame) s) :
      Evaluates ⟨.loop, [condition, body], span⟩ frame condition s.frame
  | loopBody {condition body : Node} {span : Option Span} {frame mid : Frame γ}
      {s : Loop.State γ} {value : Value}
      (reaches : (loopOf policy rounds depth condition body).Reaches
        (some (policy.roundLimit.getD rounds)) (Loop.start frame) s)
      (returned : condition.eval policy rounds depth s.frame = .returned value mid)
      (holds : value.isTruthy) (allowed : s.iterations < policy.roundLimit.getD rounds) :
      Evaluates ⟨.loop, [condition, body], span⟩ frame body mid
  | container {container position : Node} {span : Option Span} {frame : Frame γ} :
      Evaluates ⟨.index, [container, position], span⟩ frame container frame
  | index {container position : Node} {span : Option Span} {frame mid : Frame γ} {c : Value}
      (returned : container.eval policy rounds depth frame = .returned c mid) :
      Evaluates ⟨.index, [container, position], span⟩ frame position mid
  | measured {operand : Node} {span : Option Span} {frame : Frame γ} :
      Evaluates ⟨.size, [operand], span⟩ frame operand frame

/-! ### What a node does itself -/

/-- **Why an element of a variable is not replaced.** -/
inductive Unreplaced (name : String) (register : Option Nat) (i value : Value) (frame : Frame γ) :
    Fault → Prop where
  | undefined (strict : policy.strict) (missing : frame.read? name register = none) :
      Unreplaced name register i value frame
        (.undefinedVariable (lookupName frame.registers name register))
  | element {current : Value} {fault : Fault}
      (found : resolve policy name register frame = .returned current frame)
      (error : current.replaceElement i value = .error fault) :
      Unreplaced name register i value frame fault
  -- under a register that does not exist a variable can be read, from the context, but not written
  | register {current updated : Value} {r : Nat}
      (found : resolve policy name register frame = .returned current frame)
      (replaced : current.replaceElement i value = .ok updated)
      (register_eq : register = some r) (unknown : frame.registers.length ≤ r) :
      Unreplaced name register i value frame (.unknownRegister r)

/-- **How an assignment breaks** once the value to assign is there. The target is no variable and no
element of one, or it cannot be written; the fault is raised over the second frame. -/
inductive Node.Rejects (value : Value) : Node → Frame γ → Fault → Frame γ → Prop where
  | register {name : String} {i : Nat} {children : List Node} {span : Option Span}
      {frame : Frame γ} (unknown : frame.registers.length ≤ i) :
      Rejects value ⟨.identifier name (some i), children, span⟩ frame (.unknownRegister i) frame
  | target {kind : Kind} {children : List Node} {span : Option Span} {frame : Frame γ}
      (ne_index : kind ≠ .index) (ne_variable : kind.reference? = none) :
      Rejects value ⟨kind, children, span⟩ frame (.notAssignable kind.name) frame
  | malformed {children : List Node} {span : Option Span} {frame : Frame γ}
      (count : Kind.index.takes children.length = false) :
      Rejects value ⟨.index, children, span⟩ frame
        (.malformed Kind.index.name Kind.index.arity children.length) frame
  | container {container position : Node} {span : Option Span} {frame : Frame γ}
      (ne_variable : container.kind.reference? = none) :
      Rejects value ⟨.index, [container, position], span⟩ frame
        (.notAssignable container.kind.name) frame
  | element {container position : Node} {name : String} {register : Option Nat}
      {span : Option Span} {frame mid : Frame γ} {i : Value} {fault : Fault}
      (kind_eq : container.kind = .identifier name register)
      (index : position.eval policy rounds depth frame = .returned i mid)
      (unreplaced : Unreplaced policy name register i value mid fault) :
      Rejects value ⟨.index, [container, position], span⟩ frame fault mid

/-- **How a node breaks**: the faults of its own steps, each raised over the second frame after the
parts before it have returned. -/
inductive Node.Breaks : Node → Frame γ → Fault → Frame γ → Prop where
  | malformed {n : Node} {frame : Frame γ} (count : n.kind.takes n.children.length = false) :
      Breaks n frame (.malformed n.kind.name n.kind.arity n.children.length) frame
  | undefined {name : String} {register : Option Nat} {children : List Node} {span : Option Span}
      {frame : Frame γ} (strict : policy.strict) (missing : frame.read? name register = none) :
      Breaks ⟨.identifier name register, children, span⟩ frame
        (.undefinedVariable (lookupName frame.registers name register)) frame
  | declared {name : String} {register : Nat} {init : Node} {span : Option Span}
      {frame mid : Frame γ} {value : Value}
      (returned : init.eval policy rounds depth frame = .returned value mid)
      (unknown : mid.registers.length ≤ register) :
      Breaks ⟨.var name register, [init], span⟩ frame (.unknownRegister register) mid
  | assigned {target expression : Node} {span : Option Span} {frame mid final : Frame γ}
      {value : Value} {fault : Fault}
      (returned : expression.eval policy rounds depth frame = .returned value mid)
      (rejects : target.Rejects policy rounds depth value mid fault final) :
      Breaks ⟨.assign, [target, expression], span⟩ frame fault final
  | binary {op : BinaryOp} {left right : Node} {span : Option Span} {frame mid final : Frame γ}
      {l r : Value} {fault : Fault}
      (left_returned : left.eval policy rounds depth frame = .returned l mid)
      (unsettled : op.isSettled l = false)
      (right_returned : right.eval policy rounds depth mid = .returned r final)
      (error : op.apply l r = .error fault) :
      Breaks ⟨.binary op, [left, right], span⟩ frame fault final
  | unary {op : UnaryOp} {operand : Node} {span : Option Span} {frame final : Frame γ}
      {value : Value} {fault : Fault}
      (returned : operand.eval policy rounds depth frame = .returned value final)
      (error : op.apply value = .error fault) :
      Breaks ⟨.unary op, [operand], span⟩ frame fault final
  -- the condition holds once more when all rounds have been taken
  | rounds {condition body : Node} {span : Option Span} {frame final : Frame γ}
      {s : Loop.State γ} {value : Value} {limit : Nat} (limit_eq : policy.roundLimit = some limit)
      (reaches : (loopOf policy rounds depth condition body).Reaches (some limit)
        (Loop.start frame) s)
      (spent : s.iterations = limit)
      (returned : condition.eval policy rounds depth s.frame = .returned value final)
      (holds : value.isTruthy) :
      Breaks ⟨.loop, [condition, body], span⟩ frame (.tooManyRounds limit) final
  | element {container position : Node} {span : Option Span} {frame mid final : Frame γ}
      {c i : Value} {fault : Fault}
      (container_returned : container.eval policy rounds depth frame = .returned c mid)
      (position_returned : position.eval policy rounds depth mid = .returned i final)
      (error : c.element i = .error fault) :
      Breaks ⟨.index, [container, position], span⟩ frame fault final
  | size {operand : Node} {span : Option Span} {frame final : Frame γ} {value : Value}
      {fault : Fault} (returned : operand.eval policy rounds depth frame = .returned value final)
      (error : value.size = .error fault) : Breaks ⟨.size, [operand], span⟩ frame fault final

end Parts

/-! ### One node -/

theorem Kind.eq_of_reference? {kind : Kind} {place : Variable} (h : kind.reference? = some place) :
    kind = .identifier place.1 place.2 := by
  cases kind with
  | identifier name register =>
    cases h
    rfl
  | _ => cases h

/-- **How replacing an element fails**: for one of the reasons of `Unreplaced`, and without touching
the frame. -/
private theorem replaceIn_eq_failed_iff {policy : Policy} {name : String} {register : Option Nat}
    {i value : Value} {failure : Failure} {frame final : Frame γ} :
    replaceIn policy name register i value frame = .failed failure final ↔
      final = frame ∧ ∃ fault, failure = .of fault ∧
        Unreplaced policy name register i value frame fault := by
  rw [replaceIn, Run.bind_eq_failed_iff]
  constructor
  · rintro (hfail | ⟨current, mid, hfound, hrest⟩)
    · obtain ⟨hmissing, hstrict, rfl, rfl⟩ := resolve_eq_failed_iff.1 hfail
      exact ⟨rfl, _, rfl, .undefined hstrict hmissing⟩
    -- the container is there, and reading it has not changed the frame
    obtain rfl := frame_of_resolve hfound
    rcases Run.bind_eq_failed_iff.1 hrest with hfail | ⟨updated, mid', hreplaced, hfail⟩
    · obtain ⟨fault, herror, rfl, rfl⟩ := Run.ofExcept_eq_failed_iff.1 hfail
      exact ⟨rfl, fault, rfl, .element hfound herror⟩
    obtain ⟨hok, rfl⟩ := Run.ofExcept_eq_returned_iff.1 hreplaced
    -- the element is replaced, so that only the register can be missing
    rcases assignVariable_cases name register updated mid' with
      ⟨_, -, hassign⟩ | ⟨r, hregister, hle, hassign⟩
    · cases hassign.symm.trans hfail
    · cases hassign.symm.trans hfail
      exact ⟨rfl, _, rfl, .register hfound hok hregister hle⟩
  · rintro ⟨rfl, fault, rfl, hunreplaced⟩
    cases hunreplaced with
    | undefined hstrict hmissing =>
      exact .inl (resolve_eq_failed_iff.2 ⟨hmissing, hstrict, rfl, rfl⟩)
    | element hfound herror =>
      refine .inr ⟨_, _, hfound, Run.bind_eq_failed_iff.2 (.inl ?_)⟩
      exact Run.ofExcept_eq_failed_iff.2 ⟨fault, herror, rfl, rfl⟩
    | @register current updated r hfound hok hregister hle =>
      subst hregister
      have hreplaced : Run.ofExcept (current.replaceElement i value) final =
          .returned updated final := Run.ofExcept_eq_returned_iff.2 ⟨hok, rfl⟩
      refine .inr ⟨_, _, hfound, Run.bind_eq_failed_iff.2 (.inr ⟨_, _, hreplaced, ?_⟩)⟩
      exact Run.store_eq_failed_iff.2 ⟨hle, rfl, rfl⟩

namespace Node

variable {policy : Policy} {rounds depth : Nat} {failure : Failure} {frame final : Frame γ}

/-- **Nodes in turn fail** with the first of them that does. -/
theorem evalSequence_eq_failed_iff {ns : List Node} {last : Value} :
    evalSequence policy rounds depth last ns frame = .failed failure final ↔
      ∃ before part after mid, ns = before ++ part :: after ∧
        Pass policy rounds depth before frame mid ∧
        part.eval policy rounds depth mid = .failed failure final := by
  induction ns generalizing last frame with
  | nil => simp
  | cons n ns ih =>
    rw [evalSequence_cons, Run.bind_eq_failed_iff]
    constructor
    -- the first node fails, or it returns and the others fail
    · rintro (hfail | ⟨value, mid, hreturned, hfail⟩)
      · exact ⟨[], n, ns, frame, rfl, .nil frame, hfail⟩
      · obtain ⟨before, part, after, mid', rfl, hpass, hfail⟩ := ih.1 hfail
        exact ⟨n :: before, part, after, mid', rfl, .cons hreturned hpass, hfail⟩
    · rintro ⟨before, part, after, mid, hns, hpass, hfail⟩
      cases hpass with
      | nil =>
        cases hns
        exact .inl hfail
      | cons hreturned hpass =>
        cases hns
        exact .inr ⟨_, _, hreturned, ih.2 ⟨_, part, after, mid, rfl, hpass, hfail⟩⟩

/-- Whether the values are collected makes no difference to how nodes in turn fail. -/
private theorem evalAll_eq_failed_iff {ns : List Node} (last : Value) :
    evalAll policy rounds depth ns frame = .failed failure final ↔
      evalSequence policy rounds depth last ns frame = .failed failure final := by
  induction ns generalizing last frame with
  | nil => simp
  | cons n ns ih =>
    rw [evalAll_cons, evalSequence_cons, Run.bind_eq_failed_iff, Run.bind_eq_failed_iff]
    refine or_congr_right (exists_congr fun value => exists_congr fun mid => and_congr_right ?_)
    intro _
    rw [Run.bind_eq_failed_iff, ih value]
    simp

/-- A container that is no variable is refused before the index is evaluated. -/
private theorem assign_of_container {container position : Node} {value : Value}
    (h : container.kind.reference? = none) (span : Option Span) :
    (assign policy rounds depth value ⟨.index, [container, position], span⟩ : Run γ Unit) =
      .raise (.notAssignable container.kind.name) := by
  obtain ⟨kind, children, place⟩ := container
  rw [assign_mk]
  cases kind with
  | identifier => cases h
  | _ => rfl

/-- An element with a wrong number of children is refused before anything is evaluated. -/
private theorem assign_malformed {children : List Node} {value : Value}
    (h : Kind.index.takes children.length = false) (span : Option Span) :
    (assign policy rounds depth value ⟨.index, children, span⟩ : Run γ Unit) =
      .raise (.malformed Kind.index.name Kind.index.arity children.length) := by
  rw [assign_mk, Kind.assignRule_malformed (by rwa [List.length_map]), List.length_map]

/-- **How an assignment fails** once its value is there: the target rejects it, or the index in the
target fails. -/
private theorem assign_failed_cases {target : Node} {value : Value}
    (h : target.assign policy rounds depth value frame = .failed failure final) :
    (∃ fault, failure = .of fault ∧
      target.Rejects policy rounds depth value frame fault final) ∨
    ∃ container position span name register, target = ⟨.index, [container, position], span⟩ ∧
      container.kind = .identifier name register ∧
      position.eval policy rounds depth frame = .failed failure final := by
  obtain ⟨kind, children, span⟩ := target
  cases kind with
  | identifier name register =>
    rw [assign_mk] at h
    cases register with
    | none => cases h
    | some i =>
      obtain ⟨hle, rfl, rfl⟩ := Run.store_eq_failed_iff.1 h
      exact .inl ⟨_, rfl, .register hle⟩
  | index =>
    by_cases hcount : Kind.index.takes children.length = false
    · rw [assign_malformed hcount] at h
      cases h
      exact .inl ⟨_, rfl, .malformed hcount⟩
    -- with two children, it depends on whether the container is a variable
    rw [Bool.not_eq_false] at hcount
    obtain ⟨container, position, rfl⟩ := List.length_eq_two.1 (beq_iff_eq.1 hcount)
    cases hvariable : container.kind.reference? with
    | none =>
      rw [assign_of_container hvariable] at h
      cases h
      exact .inl ⟨_, rfl, .container hvariable⟩
    | some place =>
      have hkind := Kind.eq_of_reference? hvariable
      rw [assign_element hkind, Run.bind_eq_failed_iff] at h
      -- the index is evaluated first, and only then the container is looked at
      rcases h with hfail | ⟨i, mid, hindex, hfail⟩
      · exact .inr ⟨container, position, span, _, _, rfl, hkind, hfail⟩
      · obtain ⟨rfl, fault, rfl, hunreplaced⟩ := replaceIn_eq_failed_iff.1 hfail
        exact .inl ⟨fault, rfl, .element hkind hindex hunreplaced⟩
  | _ =>
    rw [assign_mk] at h
    cases h
    exact .inl ⟨_, rfl, .target (by simp) rfl⟩

/-- A target that rejects its value makes the assignment fail. -/
theorem Rejects.assign {target : Node} {value : Value} {fault : Fault}
    (h : target.Rejects policy rounds depth value frame fault final) :
    target.assign policy rounds depth value frame = .failed (.of fault) final := by
  cases h with
  | register hunknown => exact Run.store_eq_failed_iff.2 ⟨hunknown, rfl, rfl⟩
  | @target kind children span _ hindex hvariable =>
    -- no other kind is looked into
    rw [assign_mk]
    cases kind with
    | identifier => cases hvariable
    | index => exact absurd rfl hindex
    | _ => rfl
  | malformed hcount =>
    rw [assign_malformed hcount]
    rfl
  | container hvariable =>
    rw [assign_of_container hvariable]
    rfl
  | element hkind hindex hunreplaced =>
    rw [assign_element hkind, Run.bind_eq_failed_iff]
    exact .inr ⟨_, _, hindex, replaceIn_eq_failed_iff.2 ⟨rfl, fault, rfl, hunreplaced⟩⟩

omit [Context γ] in
/-- A node that is entered fails where its steps do, and its place is added. -/
theorem entered_eq_failed_iff {span : Option Span} {steps : Run γ Value}
    (hadmits : policy.Admits depth) :
    Run.locatedAt policy span (checkDepth policy depth >>= fun _ => steps) frame =
        .failed failure final ↔
      ∃ inner, steps frame = .failed inner final ∧ failure = inner.placed policy span := by
  rw [checkDepth_of_lt hadmits]
  exact Run.locatedAt_eq_failed_iff

/-- The steps of a choice. -/
theorem Chooses.eval {n condition positive : Node} {negative : Option Node}
    (h : n.Chooses condition positive negative) :
    (n.eval policy rounds depth : Run γ Value) =
      Run.locatedAt policy n.span (checkDepth policy depth >>= fun _ =>
        condition.eval policy rounds (depth + 1) >>= fun value =>
          if value.isTruthy then positive.eval policy rounds (depth + 1)
          else (negative.map (Node.eval policy rounds (depth + 1))).getD (pure .void)) := by
  cases h <;> rw [eval_mk] <;> rfl

/-- **How a choice fails**: with its condition, or with what the condition has chosen. -/
theorem Chooses.eval_failed_cases {n condition positive : Node} {negative : Option Node}
    (h : n.Chooses condition positive negative) {inner : Failure}
    (hfail : (condition.eval policy rounds depth >>= fun value =>
      if value.isTruthy then positive.eval policy rounds depth
      else (negative.map (Node.eval policy rounds depth)).getD (pure .void)) frame =
        .failed inner final) :
    ∃ part mid, n.Evaluates policy rounds depth frame part mid ∧
      part.eval policy rounds depth mid = .failed inner final := by
  rcases Run.bind_eq_failed_iff.1 hfail with hfail | ⟨value, mid, hreturned, hfail⟩
  · exact ⟨condition, frame, .condition h, hfail⟩
  cases htruthy : value.isTruthy with
  | true =>
    rw [if_pos htruthy] at hfail
    exact ⟨positive, mid, .positive h hreturned htruthy, hfail⟩
  | false =>
    rw [if_neg (by simp [htruthy])] at hfail
    cases negative with
    | none => cases hfail
    | some negative => exact ⟨negative, mid, .negative h hreturned htruthy, hfail⟩

omit [Context γ] in
/-- What is left of an operator once its left operand is there. -/
private theorem settle_eq (op : BinaryOp) (l : Value) (rest : Run γ Value) :
    (match op, l.isTruthy with
      | .and, false => pure (.bool false)
      | .or, true => pure (.bool true)
      | _, _ => rest) = if op.isSettled l then pure (.bool l.isTruthy) else rest := by
  cases op with
  | and | or => cases h : l.isTruthy <;> simp [BinaryOp.isSettled, h]
  | _ => rfl

/-- A node with a wrong number of children does nothing else than to fail. -/
private theorem eval_malformed {n : Node} (h : n.kind.takes n.children.length = false) :
    (n.eval policy rounds depth : Run γ Value) =
      Run.locatedAt policy n.span (checkDepth policy depth >>= fun _ =>
        .raise (.malformed n.kind.name n.kind.arity n.children.length)) := by
  obtain ⟨kind, children, span⟩ := n
  rw [eval_mk, Kind.evalRule_malformed (by rwa [List.length_map]), List.length_map]

/-- **How a node fails.** Before its place is added, the failure is the node's own or that of a part
that it evaluates. -/
theorem eval_failed_cases {n : Node} (hadmits : policy.Admits depth)
    (h : n.eval policy rounds depth frame = .failed failure final) :
    ∃ inner, failure = inner.placed policy n.span ∧
      ((∃ fault, inner = .of fault ∧ n.Breaks policy rounds (depth + 1) frame fault final) ∨
        ∃ part mid, n.Evaluates policy rounds (depth + 1) frame part mid ∧
          part.eval policy rounds (depth + 1) mid = .failed inner final) := by
  by_cases hcount : n.kind.takes n.children.length = false
  · rw [eval_malformed hcount] at h
    obtain ⟨_, ⟨⟩, hplaced⟩ := (entered_eq_failed_iff hadmits).1 h
    exact ⟨_, hplaced, .inl ⟨_, rfl, .malformed hcount⟩⟩
  -- from here on there are as many children as the kind takes
  rw [Bool.not_eq_false] at hcount
  obtain ⟨kind, children, span⟩ := n
  rw [eval_mk] at h
  -- the place is added outside, so that only the steps of the node are left to look at
  obtain ⟨inner, hsteps, hplaced⟩ := (entered_eq_failed_iff hadmits).1 h
  refine ⟨inner, hplaced, ?_⟩
  clear h hplaced
  cases kind with
  | script | block =>
    obtain ⟨before, part, after, mid, rfl, hpass, hfail⟩ := evalSequence_eq_failed_iff.1 hsteps
    exact .inr ⟨part, mid, .inTurn (by simp) hpass, hfail⟩
  | literal value => cases hsteps
  | identifier name register =>
    obtain ⟨hmissing, hstrict, rfl, rfl⟩ := resolve_eq_failed_iff.1 hsteps
    exact .inl ⟨_, rfl, .undefined hstrict hmissing⟩
  | var name register =>
    rcases children with _ | ⟨init, _ | ⟨_, _⟩⟩
    · cases hsteps
    · rcases Run.bind_eq_failed_iff.1 hsteps with hfail | ⟨value, mid, hreturned, h⟩
      · exact .inr ⟨init, frame, .initialiser, hfail⟩
      rcases Run.bind_eq_failed_iff.1 h with hfail | ⟨_, _, _, hfail⟩
      · obtain ⟨hle, rfl, rfl⟩ := Run.store_eq_failed_iff.1 hfail
        exact .inl ⟨_, rfl, .declared hreturned hle⟩
      · cases hfail
    · simp [Kind.takes] at hcount
  | assign =>
    obtain ⟨target, expression, rfl⟩ := List.length_eq_two.1 (beq_iff_eq.1 hcount)
    rcases Run.bind_eq_failed_iff.1 hsteps with hfail | ⟨value, mid, hreturned, h⟩
    · exact .inr ⟨expression, frame, .assigned, hfail⟩
    rcases Run.bind_eq_failed_iff.1 h with hfail | ⟨_, _, _, hfail⟩
    -- the value is there, and the target makes the trouble or the index in it
    · rcases assign_failed_cases hfail with ⟨fault, rfl, hrejects⟩ |
        ⟨container, position, span', name, register, rfl, hkind, hfail⟩
      · exact .inl ⟨fault, rfl, .assigned hreturned hrejects⟩
      · exact .inr ⟨position, mid, .targetIndex hkind hreturned, hfail⟩
    · cases hfail
  | binary op =>
    obtain ⟨left, right, rfl⟩ := List.length_eq_two.1 (beq_iff_eq.1 hcount)
    rcases Run.bind_eq_failed_iff.1 hsteps with hfail | ⟨l, mid, hleft, h⟩
    · exact .inr ⟨left, frame, .left, hfail⟩
    -- the right operand is evaluated only if the left one does not settle the operator
    replace h := (congrFun (settle_eq op l _) mid).symm.trans h
    cases hsettled : op.isSettled l with
    | true =>
      rw [if_pos hsettled] at h
      cases h
    | false =>
      rw [if_neg (by simp [hsettled])] at h
      rcases Run.bind_ofExcept_eq_failed_iff.1 h with hfail | ⟨r, fault, hright, herror, rfl⟩
      · exact .inr ⟨right, mid, .right hleft hsettled, hfail⟩
      · exact .inl ⟨fault, rfl, .binary hleft hsettled hright herror⟩
  | unary op =>
    obtain ⟨operand, rfl⟩ := List.length_eq_one_iff.1 (beq_iff_eq.1 hcount)
    rcases Run.bind_ofExcept_eq_failed_iff.1 hsteps with
      hfail | ⟨value, fault, hreturned, herror, rfl⟩
    · exact .inr ⟨operand, frame, .operand, hfail⟩
    · exact .inl ⟨fault, rfl, .unary hreturned herror⟩
  | ternary =>
    obtain ⟨condition, positive, negative, rfl⟩ := List.length_eq_three.1 (beq_iff_eq.1 hcount)
    exact .inr (Chooses.eval_failed_cases (.ternary condition positive negative span) hsteps)
  | branch =>
    rcases Bool.or_eq_true_iff.1 hcount with hcount | hcount
    · obtain ⟨condition, positive, rfl⟩ := List.length_eq_two.1 (beq_iff_eq.1 hcount)
      exact .inr (Chooses.eval_failed_cases (.branch condition positive span) hsteps)
    · obtain ⟨condition, positive, negative, rfl⟩ := List.length_eq_three.1 (beq_iff_eq.1 hcount)
      exact .inr (Chooses.eval_failed_cases (.branchElse condition positive negative span) hsteps)
  | loop =>
    obtain ⟨condition, body, rfl⟩ := List.length_eq_two.1 (beq_iff_eq.1 hcount)
    obtain ⟨s, hreaches, hfail | ⟨value, mid, hreturned, htruthy, hrest⟩⟩ :=
      boundedLoop_eq_failed_iff.1 hsteps
    · exact .inr ⟨condition, s.frame, .loopCondition hreaches, hfail⟩
    -- the condition holds: the body fails, or there are no rounds left for it
    rcases hrest with ⟨hlt, hfail⟩ | ⟨limit, hlimit, hspent, rfl, rfl⟩
    · exact .inr ⟨body, mid, .loopBody hreaches hreturned htruthy hlt, hfail⟩
    · rw [hlimit] at hreaches
      exact .inl ⟨_, rfl, .rounds hlimit hreaches hspent hreturned htruthy⟩
  | array =>
    rcases Run.bind_eq_failed_iff.1 hsteps with hfail | ⟨_, _, _, hfail⟩
    · obtain ⟨before, part, after, mid, rfl, hpass, hfail⟩ :=
        evalSequence_eq_failed_iff.1 ((evalAll_eq_failed_iff .void).1 hfail)
      exact .inr ⟨part, mid, .inTurn (by simp) hpass, hfail⟩
    · cases hfail
  | index =>
    obtain ⟨container, position, rfl⟩ := List.length_eq_two.1 (beq_iff_eq.1 hcount)
    rcases Run.bind_eq_failed_iff.1 hsteps with hfail | ⟨c, mid, hcontainer, h⟩
    · exact .inr ⟨container, frame, .container, hfail⟩
    rcases Run.bind_ofExcept_eq_failed_iff.1 h with hfail | ⟨i, fault, hposition, herror, rfl⟩
    · exact .inr ⟨position, mid, .index hcontainer, hfail⟩
    · exact .inl ⟨fault, rfl, .element hcontainer hposition herror⟩
  | size =>
    obtain ⟨operand, rfl⟩ := List.length_eq_one_iff.1 (beq_iff_eq.1 hcount)
    rcases Run.bind_ofExcept_eq_failed_iff.1 hsteps with
      hfail | ⟨value, fault, hreturned, herror, rfl⟩
    · exact .inr ⟨operand, frame, .measured, hfail⟩
    · exact .inl ⟨fault, rfl, .size hreturned herror⟩

/-- A node fails with the faults of its own steps. -/
theorem Breaks.eval {n : Node} {fault : Fault} (hadmits : policy.Admits depth)
    (h : n.Breaks policy rounds (depth + 1) frame fault final) :
    n.eval policy rounds depth frame = .failed ((Failure.of fault).placed policy n.span) final := by
  cases h with
  | malformed hcount =>
    rw [eval_malformed hcount]
    exact (entered_eq_failed_iff hadmits).2 ⟨_, rfl, rfl⟩
  | undefined hstrict hmissing =>
    rw [eval_mk]
    refine (entered_eq_failed_iff hadmits).2 ⟨_, ?_, rfl⟩
    exact resolve_eq_failed_iff.2 ⟨hmissing, hstrict, rfl, rfl⟩
  | declared hreturned hunknown =>
    rw [eval_mk]
    refine (entered_eq_failed_iff hadmits).2 ⟨_, ?_, rfl⟩
    refine Run.bind_eq_failed_iff.2 (.inr ⟨_, _, hreturned, Run.bind_eq_failed_iff.2 (.inl ?_)⟩)
    exact Run.store_eq_failed_iff.2 ⟨hunknown, rfl, rfl⟩
  | assigned hreturned hrejects =>
    rw [eval_mk]
    refine (entered_eq_failed_iff hadmits).2 ⟨_, ?_, rfl⟩
    refine Run.bind_eq_failed_iff.2 (.inr ⟨_, _, hreturned, ?_⟩)
    exact Run.bind_eq_failed_iff.2 (.inl hrejects.assign)
  | @binary op _ _ _ _ mid _ l _ _ hleft hunsettled hright herror =>
    rw [eval_mk]
    refine (entered_eq_failed_iff hadmits).2 ⟨_, ?_, rfl⟩
    refine Run.bind_eq_failed_iff.2 (.inr ⟨l, mid, hleft, ?_⟩)
    -- the operator is not settled, so that both operands are there and it is applied
    refine (congrFun (settle_eq op l _) mid).trans ?_
    rw [if_neg (by simp [hunsettled])]
    exact Run.bind_ofExcept_eq_failed_iff.2 (.inr ⟨_, fault, hright, herror, rfl⟩)
  | unary hreturned herror | size hreturned herror =>
    rw [eval_mk]
    refine (entered_eq_failed_iff hadmits).2 ⟨_, ?_, rfl⟩
    exact Run.bind_ofExcept_eq_failed_iff.2 (.inr ⟨_, fault, hreturned, herror, rfl⟩)
  | rounds hlimit hreaches hspent hreturned hholds =>
    rw [eval_mk]
    refine (entered_eq_failed_iff hadmits).2 ⟨_, ?_, rfl⟩
    refine boundedLoop_eq_failed_iff.2 ⟨_, ?_, .inr ⟨_, _, hreturned, hholds, .inr ?_⟩⟩
    · rw [hlimit]
      exact hreaches
    · exact ⟨_, hlimit, hspent, rfl, rfl⟩
  | element hcontainer hposition herror =>
    rw [eval_mk]
    refine (entered_eq_failed_iff hadmits).2 ⟨_, ?_, rfl⟩
    refine Run.bind_eq_failed_iff.2 (.inr ⟨_, _, hcontainer, ?_⟩)
    exact Run.bind_ofExcept_eq_failed_iff.2 (.inr ⟨_, fault, hposition, herror, rfl⟩)

/-- A node fails together with a part that it evaluates. -/
theorem Evaluates.eval {n part : Node} {mid : Frame γ} {inner : Failure}
    (hadmits : policy.Admits depth) (h : n.Evaluates policy rounds (depth + 1) frame part mid)
    (hfail : part.eval policy rounds (depth + 1) mid = .failed inner final) :
    n.eval policy rounds depth frame = .failed (inner.placed policy n.span) final := by
  cases h with
  | condition hchooses =>
    rw [hchooses.eval]
    exact (entered_eq_failed_iff hadmits).2 ⟨inner, Run.bind_eq_failed_iff.2 (.inl hfail), rfl⟩
  | positive hchooses hreturned hholds =>
    rw [hchooses.eval]
    refine (entered_eq_failed_iff hadmits).2 ⟨inner, Run.bind_eq_failed_iff.2 (.inr ?_), rfl⟩
    exact ⟨_, _, hreturned, by rwa [if_pos hholds]⟩
  | negative hchooses hreturned hfalse =>
    rw [hchooses.eval]
    refine (entered_eq_failed_iff hadmits).2 ⟨inner, Run.bind_eq_failed_iff.2 (.inr ?_), rfl⟩
    exact ⟨_, _, hreturned, by rwa [if_neg (by simp [hfalse])]⟩
  | @inTurn _ before after _ _ _ _ hkind hpassed =>
    have hsequence : evalSequence policy rounds (depth + 1) .void (before ++ part :: after) frame =
        .failed inner final := evalSequence_eq_failed_iff.2 ⟨_, _, _, _, rfl, hpassed, hfail⟩
    rw [eval_mk]
    refine (entered_eq_failed_iff hadmits).2 ⟨inner, ?_, rfl⟩
    -- whether statements or elements, those before the part have returned
    rcases hkind with rfl | rfl | rfl
    · exact hsequence
    · exact hsequence
    · exact Run.bind_eq_failed_iff.2 (.inl ((evalAll_eq_failed_iff .void).2 hsequence))
  | initialiser | assigned | left | operand | container | measured =>
    rw [eval_mk]
    exact (entered_eq_failed_iff hadmits).2 ⟨inner, Run.bind_eq_failed_iff.2 (.inl hfail), rfl⟩
  | @targetIndex container _ _ _ _ _ span _ _ value hkind hassigned =>
    rw [eval_mk]
    refine (entered_eq_failed_iff hadmits).2 ⟨inner, ?_, rfl⟩
    -- the assignment fails with the index, before it has looked at the container
    have hassign : assign policy rounds (depth + 1) value ⟨.index, [container, part], span⟩ mid =
        .failed inner final := by
      rw [assign_element hkind]
      exact Run.bind_eq_failed_iff.2 (.inl hfail)
    exact Run.bind_eq_failed_iff.2 (.inr ⟨_, _, hassigned, Run.bind_eq_failed_iff.2 (.inl hassign)⟩)
  | @right op _ _ _ _ _ l hreturned hunsettled =>
    rw [eval_mk]
    refine (entered_eq_failed_iff hadmits).2 ⟨inner, ?_, rfl⟩
    refine Run.bind_eq_failed_iff.2 (.inr ⟨l, mid, hreturned, ?_⟩)
    refine (congrFun (settle_eq op l _) mid).trans ?_
    rw [if_neg (by simp [hunsettled])]
    exact Run.bind_eq_failed_iff.2 (.inl hfail)
  | loopCondition hreaches =>
    rw [eval_mk]
    refine (entered_eq_failed_iff hadmits).2 ⟨inner, ?_, rfl⟩
    exact boundedLoop_eq_failed_iff.2 ⟨_, hreaches, .inl hfail⟩
  | loopBody hreaches hreturned hholds hallowed =>
    rw [eval_mk]
    refine (entered_eq_failed_iff hadmits).2 ⟨inner, ?_, rfl⟩
    exact boundedLoop_eq_failed_iff.2
      ⟨_, hreaches, .inr ⟨_, _, hreturned, hholds, .inl ⟨hallowed, hfail⟩⟩⟩
  | index hreturned =>
    rw [eval_mk]
    refine (entered_eq_failed_iff hadmits).2 ⟨inner, ?_, rfl⟩
    exact Run.bind_eq_failed_iff.2 (.inr ⟨_, _, hreturned, Run.bind_eq_failed_iff.2 (.inl hfail)⟩)

end Node

end Scriptlet

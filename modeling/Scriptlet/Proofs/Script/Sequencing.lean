import Scriptlet.Proofs.Evaluation.Depth
import Scriptlet.Proofs.Evaluation.Parts
import Scriptlet.Proofs.Evaluation.Places
import Scriptlet.Script.Execution

/-!
# Statements in sequence

A script runs its statements in turn, each over what the one before has left. It can be cut
anywhere: to run all statements is to run some, and then the others if none of those has failed. An
interpreter that is given the two parts as two scripts does the same as one that is given the whole.

* `Node.eval_depth` — without a limit, a node does the same however deep it stands;
* `Node.eval_append` — a script is its two parts in sequence;
* `Node.exists_of_eval_eq_failed` — the statement at which a script fails;
* `Interpreter.andThen` — two calls, the second only if the first has returned;
* `Interpreter.interpret_append` — the calls compared, and scripts of which only the first statement
  is evaluated.

A statement evaluated by itself stands one node higher than the same statement in a script. Where
the two are compared the depth must not be limited; scripts can be cut under any limit.
-/

namespace Scriptlet

variable {γ : Type} {α β : Type}

/-! ### Runs -/

namespace Run

/-- Three runs in sequence, in either grouping. -/
private theorem bind_assoc {δ : Type} (first : Run γ α) (next : α → Run γ β) (last : β → Run γ δ) :
    first >>= next >>= last = first >>= fun value => next value >>= last := by
  funext frame
  simp only [bind_apply]
  cases first frame <;> rfl

/-- A place is added to the failures of both parts of a sequence. -/
private theorem locatedAt_bind (policy : Policy) (span : Option Span) (first : Run γ α)
    (next : α → Run γ β) :
    (first >>= next).locatedAt policy span =
      first.locatedAt policy span >>= fun value => (next value).locatedAt policy span := by
  funext frame
  simp only [locatedAt, bind_apply]
  cases first frame <;> rfl

end Run

namespace Node

variable [Context γ] {policy : Policy} {rounds : Nat}

/-! ### Without a limit on the depth -/

/-- A node does the same inside any number of others. -/
def Levelled (γ : Type) [Context γ] (policy : Policy) (rounds : Nat) (n : Node) : Prop :=
  ∀ depth depth', (n.eval policy rounds depth : Run γ Value) = n.eval policy rounds depth'

/-- The same for assignments to a node. -/
def AssignsLevelled (γ : Type) [Context γ] (policy : Policy) (rounds : Nat) (n : Node) : Prop :=
  ∀ depth depth' value,
    (n.assign policy rounds depth value : Run γ Unit) = n.assign policy rounds depth' value

/-- **Without a limit the depth does not matter.** It is only handed on to the children, so that a
node has the same children at every depth, and the rule for its kind makes the same of them. -/
theorem eval_depth (hdepth : policy.depthLimit = none) (n : Node) :
    n.Levelled γ policy rounds ∧ n.AssignsLevelled γ policy rounds := by
  induction n with
  | node kind children span ih =>
    have hchildren (depth depth' : Nat) : children.map (asChild γ policy rounds depth) =
        children.map (asChild γ policy rounds depth') := by
      refine List.map_congr_left fun c hc => ?_
      obtain ⟨heval, hassign⟩ := ih c hc
      rw [asChild, asChild, heval depth depth', funext (hassign depth depth')]
    have hcheck (depth : Nat) : (checkDepth policy depth : Run γ Unit) = pure () :=
      checkDepth_of_lt (Policy.admits_of_unlimited hdepth depth)
    -- one node deeper, with the same children
    constructor
    · intro depth depth'
      rw [eval_mk, eval_mk, hcheck, hcheck, hchildren (depth + 1) (depth' + 1)]
    · intro depth depth' value
      rw [assign_mk, assign_mk, hchildren depth depth']

/-! ### Sequences -/

/-- **A sequence can be cut anywhere.** -/
private theorem evalSequence_append (depth : Nat) (last : Value) (xs ys : List Node) :
    (evalSequence policy rounds depth last (xs ++ ys) : Run γ Value) =
      evalSequence policy rounds depth last xs >>= fun value =>
        evalSequence policy rounds depth value ys := by
  induction xs generalizing last with
  | nil => rfl
  | cons n xs ih =>
    rw [List.cons_append, evalSequence_cons, evalSequence_cons, Run.bind_assoc, funext ih]

/-- The value from before a sequence is only seen if there is nothing in it. -/
private theorem evalSequence_last (depth : Nat) (last last' : Value) {ys : List Node}
    (h : ys ≠ []) :
    (evalSequence policy rounds depth last ys : Run γ Value) =
      evalSequence policy rounds depth last' ys := by
  cases ys with
  | nil => exact absurd rfl h
  | cons n ys => rw [evalSequence_cons, evalSequence_cons]

/-- A script is the sequence of its statements. -/
private theorem eval_script (depth : Nat) (ns : List Node) (span : Option Span) :
    (eval policy rounds depth ⟨.script, ns, span⟩ : Run γ Value) =
      (checkDepth policy depth >>= fun _ =>
        evalSequence policy rounds (depth + 1) .void ns).locatedAt policy span :=
  eval_mk .script ns span

/-- **A script is its two parts in sequence**, wherever it is cut. This holds under any policy: if
the depth is refused, then before the first part. -/
theorem eval_append (depth : Nat) (xs : List Node) {ys : List Node} (h : ys ≠ [])
    (span : Option Span) :
    (eval policy rounds depth ⟨.script, xs ++ ys, span⟩ : Run γ Value) =
      eval policy rounds depth ⟨.script, xs, span⟩ >>= fun _ =>
        eval policy rounds depth ⟨.script, ys, span⟩ := by
  have hlast (value : Value) : (evalSequence policy rounds (depth + 1) value ys : Run γ Value) =
      evalSequence policy rounds (depth + 1) .void ys := evalSequence_last _ _ _ h
  simp only [eval_script, evalSequence_append, hlast, Run.locatedAt_bind, Run.bind_assoc]
  -- the second part stands as deep as the first, so that it is never refused after the first
  rcases checkDepth_cases (γ := γ) policy depth with ⟨-, hcheck⟩ | ⟨limit, -, -, hcheck⟩
  · simp only [hcheck]
    rfl
  · simp only [hcheck]
    rfl

/-- The span of a script only shows in the places of failures. -/
private theorem eval_script_sameButPlaces (depth : Nat) (ns : List Node)
    (span span' : Option Span) :
    Run.SameButPlaces (eval policy rounds depth ⟨.script, ns, span⟩ : Run γ Value)
      (eval policy rounds depth ⟨.script, ns, span'⟩) := by
  rw [eval_script, eval_script]
  exact (Run.SameButPlaces.refl _).locatedAt policy policy span span'

/-- **A script of one statement does what the statement does**, if nothing limits the depth. -/
private theorem eval_sameButPlaces_script (hdepth : policy.depthLimit = none) (depth : Nat)
    (n : Node) (span : Option Span) :
    Run.SameButPlaces (n.eval policy rounds depth : Run γ Value)
      (eval policy rounds depth ⟨.script, [n], span⟩) := by
  have hsequence : (evalSequence policy rounds (depth + 1) .void [n] : Run γ Value) =
      n.eval policy rounds depth := by
    funext frame
    rw [evalSequence_cons, (eval_depth hdepth n).1 (depth + 1) depth, Run.bind_apply]
    cases n.eval policy rounds depth frame <;> rfl
  intro frame
  rw [eval_script, hsequence, checkDepth_of_lt (Policy.admits_of_unlimited hdepth depth)]
  exact (Run.locatedAt_sameButPlaces policy span _ frame).symm

/-- A sequence that is passed through returns a value. -/
private theorem Pass.exists_evalSequence {depth : Nat} {ns : List Node} {frame final : Frame γ}
    (h : Pass policy rounds depth ns frame final) (last : Value) :
    ∃ value, evalSequence policy rounds depth last ns frame = .returned value final := by
  induction h generalizing last with
  | nil frame => exact ⟨last, rfl⟩
  | cons hfirst _ ih =>
    obtain ⟨value, hrest⟩ := ih _
    refine ⟨value, ?_⟩
    rw [evalSequence_cons, Run.bind_apply, hfirst]
    exact hrest

/-- **A script fails at its first statement that does**, after those before it have run. -/
theorem exists_of_eval_eq_failed (hdepth : policy.depthLimit = none) {depth : Nat}
    {xs : List Node} {span : Option Span} {failure : Failure} {frame final : Frame γ}
    (h : eval policy rounds depth ⟨.script, xs, span⟩ frame = .failed failure final) :
    ∃ before statement after value mid inner, xs = before ++ statement :: after ∧
      eval policy rounds depth ⟨.script, before, none⟩ frame = .returned value mid ∧
      eval policy rounds depth statement mid = .failed inner final ∧
      inner.fault = failure.fault := by
  have hcheck : (checkDepth policy depth : Run γ Unit) = pure () :=
    checkDepth_of_lt (Policy.admits_of_unlimited hdepth depth)
  rw [eval_script, Run.locatedAt_eq_failed_iff, hcheck] at h
  obtain ⟨inner, hfail, rfl⟩ := h
  -- the statements before the one that fails have passed
  obtain ⟨before, statement, after, mid, rfl, hpass, hfail⟩ := evalSequence_eq_failed_iff.1 hfail
  obtain ⟨value, hreturned⟩ := hpass.exists_evalSequence .void
  refine ⟨before, statement, after, value, mid, inner, rfl, ?_, ?_, ?_⟩
  · rw [eval_script, hcheck, Run.locatedAt, Run.bind_apply, Run.pure_apply]
    dsimp only
    rw [hreturned]
  · rw [(eval_depth hdepth statement).1 depth (depth + 1), hfail]
  · rw [Failure.fault_placed]

end Node

/-! ### Calls -/

namespace Interpreter

variable [Context γ]

/-- Evaluates a tree, and then another one if the first has returned. -/
def andThen (i : Interpreter γ) (rounds : Nat) (first next : Node) :
    Option (Except Failure Value × Interpreter γ) :=
  match i.interpret rounds first with
  | some (.ok _, j) => j.interpret rounds next
  | other => other

/-- What a call has come to, with the cause of a failure but without its place. -/
def causes (call : Option (Except Failure Value × Interpreter γ)) :
    Option (Except Fault Value × Interpreter γ) :=
  call.map fun (result, next) => (result.mapError Failure.fault, next)

/-- A call without a limit of its own is the run of the tree, concluded. -/
private theorem interpret_eq_conclude (i : Interpreter γ) (rounds : Nat) (n : Node) :
    i.interpret rounds n = conclude i.policy i.depth
      (n.eval i.policy rounds i.depth ⟨i.registers, i.context⟩) :=
  interpret_eq i i.policy.depthLimit rounds fun _ _ _ => rfl

/-- Two calls are a run of both trees in sequence. -/
private theorem andThen_eq_conclude (i : Interpreter γ) (rounds : Nat) (first next : Node) :
    i.andThen rounds first next = conclude i.policy i.depth
      ((first.eval i.policy rounds i.depth >>= fun _ => next.eval i.policy rounds i.depth)
        ⟨i.registers, i.context⟩) := by
  rw [andThen, interpret_eq_conclude, Run.bind_apply]
  -- the second call begins with the frame that the first has left
  cases first.eval i.policy rounds i.depth ⟨i.registers, i.context⟩ with
  | returned value frame => exact interpret_eq_conclude _ rounds next
  | failed | unfinished => rfl

/-- After a failure nothing more is evaluated. -/
private theorem causes_andThen_of_error {i j : Interpreter γ} {rounds : Nat} {first : Node}
    {fault : Fault} (h : causes (i.interpret rounds first) = some (.error fault, j))
    (next : Node) : causes (i.andThen rounds first next) = some (.error fault, j) := by
  rw [andThen]
  generalize i.interpret rounds first = call at h
  rcases call with _ | ⟨_ | value, k⟩
  · cases h
  · exact h
  · cases h

omit [Context γ] in
/-- Outcomes that differ in places have the same cause. -/
private theorem causes_conclude {outcome outcome' : Outcome γ Value}
    (h : outcome.SameButPlace outcome') (policy : Policy) (depth : Nat) :
    causes (conclude policy depth outcome) = causes (conclude policy depth outcome') := by
  cases h <;> rfl

omit [Context γ] in
/-- A call that fails is the end of a run that has. -/
private theorem causes_conclude_eq_error {policy : Policy} {depth : Nat} {outcome : Outcome γ Value}
    {fault : Fault} {j : Interpreter γ}
    (h : causes (conclude policy depth outcome) = some (.error fault, j)) :
    ∃ failure final, outcome = .failed failure final ∧ failure.fault = fault ∧
      j = ⟨policy, final.registers, final.context, depth⟩ := by
  cases outcome with
  | returned | unfinished => cases h
  | failed failure final =>
    cases h
    exact ⟨failure, final, rfl, rfl, rfl⟩

end Interpreter

/-! ### Scripts -/

/-- The script with the same registers that ends after its first statement. -/
def Script.cut (script : Script) : Script :=
  { script with
    root := { script.root with children := script.statements.take 1 }
    root_kind := script.root_kind }

/-- The first statement does what the script that ends after it does. -/
private theorem Script.evaluate_sameButPlace [Context γ] {policy : Policy}
    (hdepth : policy.depthLimit = none) (rounds : Nat) (script : Script) (context : γ)
    (h : script.statements ≠ []) :
    (script.evaluate policy rounds context).SameButPlace
      (script.cut.execute policy rounds [] context) := by
  obtain ⟨⟨kind, children, span⟩, registers, count, source, hkind, _, _⟩ := script
  obtain rfl : kind = .script := hkind
  cases children with
  | nil => exact absurd rfl h
  | cons first rest => exact Node.eval_sameButPlaces_script hdepth 0 first span _

/-- **Statements compose.** Under a policy that does not limit the depth, a script whose statements
are those of two lists, the second of them not empty, comes to what two calls of one interpreter
come to, one for each list, the second call made only if the first has returned; the interpreter is
left with the same registers and the same context. The spans of the three scripts only show in the
place of a failure.

A failure among the statements of the first list fails the whole script, with the same cause, and
leaves what has been written up to there: what the statements before the one that fails leave, and
what that one has done until it fails.

To evaluate a script with a statement is to execute the script that ends after the first. -/
theorem Interpreter.interpret_append [Context γ] (i : Interpreter γ)
    (hdepth : i.policy.depthLimit = none) (rounds : Nat) :
    (∀ (xs ys : List Node) (span : Option Span), ys ≠ [] →
      i.interpret rounds ⟨.script, xs ++ ys, span⟩ =
        i.andThen rounds ⟨.script, xs, span⟩ ⟨.script, ys, span⟩) ∧
    (∀ (xs ys : List Node) (span span' span'' : Option Span), ys ≠ [] →
      causes (i.interpret rounds ⟨.script, xs ++ ys, span⟩) =
        causes (i.andThen rounds ⟨.script, xs, span'⟩ ⟨.script, ys, span''⟩)) ∧
    (∀ (xs ys : List Node) (span span' : Option Span) (fault : Fault) (j : Interpreter γ),
      ys ≠ [] → causes (i.interpret rounds ⟨.script, xs, span⟩) = some (.error fault, j) →
      causes (i.interpret rounds ⟨.script, xs ++ ys, span'⟩) = some (.error fault, j) ∧
      ∃ before statement after value k, xs = before ++ statement :: after ∧
        i.interpret rounds ⟨.script, before, none⟩ = some (.ok value, k) ∧
        causes (k.interpret rounds statement) = some (.error fault, j)) ∧
    ∀ (script : Script) (context : γ), script.statements ≠ [] →
      (script.evaluate i.policy rounds context).SameButPlace
        (script.cut.execute i.policy rounds [] context) := by
  have hsame (xs : List Node) {ys : List Node} (h : ys ≠ []) (span span' span'' : Option Span) :
      causes (i.interpret rounds ⟨.script, xs ++ ys, span⟩) =
        causes (i.andThen rounds ⟨.script, xs, span'⟩ ⟨.script, ys, span''⟩) := by
    -- cut with one span throughout, and then change the spans of the two parts
    rw [interpret_eq_conclude, andThen_eq_conclude, Node.eval_append _ _ h]
    refine causes_conclude ?_ _ _
    exact (Node.eval_script_sameButPlaces _ xs span span').bind
      (fun _ => Node.eval_script_sameButPlaces _ ys span span'') _
  refine ⟨fun xs ys span h => ?_, fun xs ys span span' span'' h => hsame xs h span span' span'',
    fun xs ys span span' fault j h hfails => ?_, fun script context h =>
      script.evaluate_sameButPlace hdepth rounds context h⟩
  · rw [interpret_eq_conclude, andThen_eq_conclude, Node.eval_append _ _ h]
  · constructor
    · rw [hsame xs h span' span span']
      exact causes_andThen_of_error hfails _
    -- from the call to its run, where the statement that fails is known, and back
    · rw [interpret_eq_conclude] at hfails
      obtain ⟨failure, final, hfailed, rfl, rfl⟩ := causes_conclude_eq_error hfails
      obtain ⟨before, statement, after, value, mid, inner, rfl, hbefore, hstatement, hfault⟩ :=
        Node.exists_of_eval_eq_failed hdepth hfailed
      refine ⟨before, statement, after, value, ⟨i.policy, mid.registers, mid.context, i.depth⟩, rfl,
        ?_, ?_⟩
      · rw [interpret_eq_conclude, hbefore]
        rfl
      · rw [interpret_eq_conclude, hstatement, ← hfault]
        rfl

/-- Assigns the number to `x`. -/
def assignX (n : Int64) : Node :=
  ⟨.assign, [⟨.identifier "x" none, [], none⟩, ⟨.literal (.int n), [], none⟩], none⟩

/-- Divides one by `x`. -/
def divideByX : Node :=
  ⟨.binary .div, [⟨.literal (.int 1), [], none⟩, ⟨.identifier "x" none, [], none⟩], none⟩

/-- The first of three statements has written when the second fails; the third does not run. -/
theorem Interpreter.interpret_append_divideByX :
    let i := build {} .empty Variables.empty
    let j := build {} .empty (Variables.ofList [("x", .int 0)])
    causes (i.interpret 0 ⟨.script, [assignX 0, divideByX] ++ [assignX 2], some ⟨0, 9⟩⟩) =
      some (.error .divisionByZero, j) ∧
    ∃ before statement after value k, [assignX 0, divideByX] = before ++ statement :: after ∧
      i.interpret 0 ⟨.script, before, none⟩ = some (.ok value, k) ∧
      causes (k.interpret 0 statement) = some (.error .divisionByZero, j) := by
  intro i j
  have hfails : causes (i.interpret 0 ⟨.script, [assignX 0, divideByX], none⟩) =
      some (.error .divisionByZero, j) := rfl
  exact (interpret_append i rfl 0).2.2.1 _ _ none _ _ _ (by simp) hfails

end Scriptlet

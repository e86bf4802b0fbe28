import Scriptlet.Proofs.Evaluation.Contracts

/-!
# Loosening the policy

A policy can only take away: it refuses to read an undefined variable, to nest deeper, to go on with
a loop. A run that was refused nothing is therefore the same under every looser policy, and a policy
that does not set a limit never refuses anything on its account.

* `Policy.Loosens` — one policy allows all that another allows;
* `Fault.isRefusal` — the faults by which a policy refuses;
* `Node.interpret_loosened` — the run of a tree under a looser policy.

Under a limit on loops, `limit` bounds the rounds of every loop, so that this many rounds are enough
for the looser policy even if it sets no limit.
-/

namespace Scriptlet

/-- Whether it is the policy that the run was stopped by. -/
def Fault.isRefusal : Fault → Bool
  | undefinedVariable _ | tooDeep _ | tooManyRounds _ => true
  | divisionByZero | moduloByZero | overflow _ | badOperands .. | badOperand .. | notIndexable ..
  | outOfBounds .. | unknownRegister _ | notAssignable _ | notSizeable _ | malformed .. => false

private theorem Fault.isRefusal_eq_false {fault : Fault} (h : fault.isOperational) :
    fault.isRefusal = false := by
  cases fault with
  | undefinedVariable name => cases h
  | tooDeep depth => cases h
  | tooManyRounds limit => cases h
  | _ => rfl

/-- A limit that is at least as large as another; no limit is larger than all. -/
def LimitLe (limit limit' : Option Nat) : Prop :=
  ∀ bound', limit' = some bound' → ∃ bound, limit = some bound ∧ bound ≤ bound'

/-- **Looser policies.** The second allows all that the first allows, and places failures alike. -/
structure Policy.Loosens (tight loose : Policy) : Prop where
  located : loose.located = tight.located
  strict : loose.strict → tight.strict
  depth : LimitLe tight.depthLimit loose.depthLimit
  rounds : LimitLe tight.roundLimit loose.roundLimit

variable {γ : Type} [Context γ] {α β : Type}

/-! ### What is not refused stays -/

section Loosens

variable {tight loose : Policy}

omit [Context γ] in
/-- A node that the tighter policy lets through is let through by the looser one. -/
theorem Policy.Loosens.checkDepth (h : tight.Loosens loose) (depth : Nat) :
    Run.Refines (·.isRefusal) (checkDepth tight depth : Run γ Unit) (checkDepth loose depth) := by
  intro frame hsettled
  have hdepth := h.depth
  rw [Scriptlet.checkDepth] at hsettled
  rw [Scriptlet.checkDepth, Scriptlet.checkDepth]
  -- a depth that the tighter limit lets through passes the looser one, if there is any
  cases hloose : loose.depthLimit with
  | none =>
    cases htight : tight.depthLimit with
    | none => rfl
    | some limit =>
      simp only [htight] at hsettled ⊢
      split
      · next hle =>
        rw [if_pos hle] at hsettled
        exact (hsettled rfl).elim
      · rfl
  | some limit' =>
    obtain ⟨limit, htight, hle⟩ := hdepth limit' hloose
    simp only [htight] at hsettled ⊢
    split at hsettled
    · exact (hsettled rfl).elim
    · next hlt => rw [if_neg hlt, if_neg (by omega)]

/-- What a strict policy reads is read in the same way without it. -/
theorem Policy.Loosens.resolve (h : tight.Loosens loose) (name : String) (register : Option Nat) :
    Run.Refines (·.isRefusal) (resolve tight name register : Run γ Value)
      (resolve loose name register) := by
  intro frame hsettled
  rw [resolve_apply] at hsettled
  rw [resolve_apply, resolve_apply]
  cases hread : frame.read? name register with
  | some value => rfl
  | none =>
    cases htight : tight.strict with
    | true =>
      -- the tighter policy has refused the variable
      rw [hread] at hsettled
      simp only [htight, if_true] at hsettled
      exact (hsettled rfl).elim
    | false =>
      have hloose : loose.strict = false := by
        cases hloose : loose.strict with
        | true => exact absurd (h.strict hloose) (by simp [htight])
        | false => rfl
      simp only [hloose]

omit [Context γ] in
/-- A loop that is not refused a round takes no more of them than any looser limit allows. -/
theorem Policy.Loosens.boundedLoop (h : tight.Loosens loose) {rounds rounds' : Nat}
    (hrounds : tight.roundLimit.getD rounds ≤ rounds')
    {condition condition' body body' : Run γ Value}
    (hcondition : Run.Refines (·.isRefusal) condition condition')
    (hbody : Run.Refines (·.isRefusal) body body') :
    Run.Refines (·.isRefusal) (boundedLoop tight rounds condition body)
      (boundedLoop loose rounds' condition' body') := by
  have hbound := h.rounds
  rw [Scriptlet.boundedLoop, Scriptlet.boundedLoop]
  -- with a limit or without, running out of rounds is a refusal or no end at all
  cases hloose : loose.roundLimit with
  | none =>
    cases htight : tight.roundLimit with
    | none =>
      rw [htight, Option.getD_none] at hrounds
      exact hcondition.iterate hbody hrounds (.inl Run.not_settled_giveUp) .void
    | some limit =>
      rw [htight, Option.getD_some] at hrounds
      exact hcondition.iterate hbody hrounds (.inl (Run.not_settled_raise rfl)) .void
  | some limit' =>
    obtain ⟨limit, htight, hle⟩ := hbound limit' hloose
    simp only [htight]
    exact hcondition.iterate hbody hle (.inl (Run.not_settled_raise rfl)) .void

/-- **A run that is refused nothing is kept** by every looser policy, given rounds enough. -/
theorem Policy.Loosens.interpret (h : tight.Loosens loose) {rounds rounds' : Nat}
    (hrounds : tight.roundLimit.getD rounds ≤ rounds') (n : Node) :
    Run.Refines (·.isRefusal) (n.interpret tight rounds : Run γ Value)
      (n.interpret loose rounds') := by
  have hrefines := (Run.Refines.congruence (γ := γ) h.located h.checkDepth
    (h.boundedLoop hrounds) h.resolve n.preorder).interpret
  rwa [Node.mapSpans_id] at hrefines

end Loosens

/-! ### What is never refused -/

namespace Run

/-- No failure of the run has such a cause. -/
def Avoids (bad : Fault → Prop) (run : Run γ α) : Prop :=
  ∀ frame fault, (run frame).fault? = some fault → ¬ bad fault

/-- **A refusal is avoided by trees** if the policy does not ask for it. -/
theorem Avoids.interpret {bad : Fault → Prop} {policy : Policy}
    (hbad : ∀ fault, bad fault → fault.isRefusal)
    (hstrict : ∀ name, policy.strict → ¬ bad (.undefinedVariable name))
    (hdepth : ∀ limit, policy.depthLimit = some limit → ¬ bad (.tooDeep limit))
    (hlimit : ∀ limit, policy.roundLimit = some limit → ¬ bad (.tooManyRounds limit))
    (rounds : Nat) (n : Node) : Avoids bad (n.interpret policy rounds : Run γ Value) := by
  have hfine {fault : Fault} (h : fault.isRefusal = false) : ¬ bad fault := by
    intro hfault
    rw [hbad fault hfault] at h
    cases h
  -- a contract that allows every other cause, and asks nothing of the frame
  let c : Contract γ := ⟨fun _ => True, fun fault => ¬ bad fault, True⟩
  have hstore (register : Nat) (value : Value) : Keeps c (store register value : Run γ Unit) :=
    keeps_store (fun _ _ _ _ => trivial) fun _ _ _ => hfine rfl
  have hcovers : c.Covers policy n.preorder :=
    { depth := hdepth
      undefined := hstrict
      rounds := fun _ _ _ => hlimit
      giveUp := fun _ _ _ _ => trivial
      operation := fun _ hperforms =>
        hperforms.raises.mono fun _ h => hfine (Fault.isRefusal_eq_false h)
      malformed := fun _ _ _ => hfine rfl
      notAssignable := fun _ _ _ => hfine rfl
      assign := by
        intro _ _ _ name register _ value
        cases register with
        | some register => exact hstore register value
        | none => exact fun _ _ => trivial
      store := fun _ _ _ register _ _ _ value => hstore register value }
  intro frame fault hfault
  -- the contract holds at the end, so that the cause of a failure is an allowed one
  exact (hcovers.interpret rounds frame trivial).allowed hfault

end Run

namespace Node

/-- **Loosening changes no run that was refused nothing.** A tree that ends under a policy, and not
with a refusal, ends in the same outcome under every looser policy; and what a policy does not ask
for is never the reason of a refusal. -/
theorem interpret_loosened (n : Node) (frame : Frame γ) :
    (∀ tight loose : Policy, tight.Loosens loose → ∀ outcome, n.Ends tight frame outcome →
      (∀ fault, outcome.fault? = some fault → fault.isRefusal = false) →
        n.Ends loose frame outcome) ∧
    (∀ policy outcome, n.Ends policy frame outcome →
      (policy.strict = false → ∀ name, outcome.fault? ≠ some (.undefinedVariable name)) ∧
      (policy.depthLimit = none → ∀ depth, outcome.fault? ≠ some (.tooDeep depth)) ∧
      (policy.roundLimit = none → ∀ limit, outcome.fault? ≠ some (.tooManyRounds limit))) := by
  constructor
  · rintro tight loose hloosens outcome ⟨hends, rounds, rfl⟩ hfault
    -- as many rounds as the tighter limit allows, for there may be no limit now
    refine ⟨hends, tight.roundLimit.getD rounds, ?_⟩
    apply hloosens.interpret (Nat.le_refl _) n frame
    refine Outcome.settled_iff.2 ⟨hends, fun fault h => ?_⟩
    simp [hfault fault h]
  · rintro policy outcome ⟨-, rounds, rfl⟩
    -- each cause in turn, taken as the only bad one
    refine ⟨fun h name hfault => ?_, fun h depth hfault => ?_, fun h limit hfault => ?_⟩
    · have havoids : Run.Avoids (· = .undefinedVariable name)
          (n.interpret policy rounds : Run γ Value) := by
        apply Run.Avoids.interpret <;> simp [h, Fault.isRefusal]
      exact havoids frame _ hfault rfl
    · have havoids : Run.Avoids (· = .tooDeep depth)
          (n.interpret policy rounds : Run γ Value) := by
        apply Run.Avoids.interpret <;> simp [h, Fault.isRefusal]
      exact havoids frame _ hfault rfl
    · have havoids : Run.Avoids (· = .tooManyRounds limit)
          (n.interpret policy rounds : Run γ Value) := by
        apply Run.Avoids.interpret <;> simp [h, Fault.isRefusal]
      exact havoids frame _ hfault rfl

/-- Counts `x` up to two, in two rounds. -/
def countToTwo : Node :=
  let x : Node := ⟨.identifier "x" none, [], some ⟨0, 1⟩⟩
  let literal (n : Int64) : Node := ⟨.literal (.int n), [], none⟩
  ⟨.loop, [⟨.binary .lt, [x, literal 2], none⟩,
    ⟨.assign, [x, ⟨.binary .add, [x, literal 1], none⟩], none⟩], none⟩

/-- A loop that stays within its limit of two rounds does the same without any limit. -/
theorem interpret_loosened_countToTwo :
    countToTwo.Ends { strict := false } ⟨.empty, Variables.ofList [("x", .int 0)]⟩
      (.returned (.int 2) ⟨.empty, Variables.ofList [("x", .int 2)]⟩) := by
  have hloosens : Policy.Loosens { depthLimit := some 4, roundLimit := some 2 }
      { strict := false } :=
    ⟨rfl, by simp, by simp [LimitLe], by simp [LimitLe]⟩
  have htight : countToTwo.Ends { depthLimit := some 4, roundLimit := some 2 }
      ⟨.empty, Variables.ofList [("x", .int 0)]⟩
      (.returned (.int 2) ⟨.empty, Variables.ofList [("x", .int 2)]⟩) :=
    ⟨nofun, 0, rfl⟩
  refine (interpret_loosened countToTwo _).1 _ _ hloosens _ htight ?_
  intro fault hfault
  cases hfault

end Node

end Scriptlet

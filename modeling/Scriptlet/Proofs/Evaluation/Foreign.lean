import Scriptlet.Proofs.Evaluation.Congruence
import Scriptlet.Proofs.Evaluation.Frames

/-!
# Registers that a run does not look at

A register may hold something at the start of a run that is none of the run's business. It makes no
difference as long as the run writes the register before it reads it. Whether it does is a question
about paths, since a branch may be skipped and a loop may take no round. The answer given here is on
the safe side: it follows the tree in the order of evaluation, and counts a register as written only
where every path has written it.

* `Node.foreignAfter` — the registers that may still hold something foreign after a node, if it has
  read none of them;
* `AgreeExcept` — frames that are the same except for the slots of some registers;
* `Run.Clears` — a run that reads none of the foreign registers, and leaves only some of them so;
* `Node.clears` — the analysis is right.
-/

namespace Scriptlet

/-! ### The analysis -/

/-- Whether reading the variable leaves the foreign registers alone. -/
def mayRead (foreign : List Nat) (register : Option Nat) : Bool := register.all (· ∉ foreign)

/-- The registers that are foreign after a variable has been written. -/
def afterWriting (foreign : List Nat) (register : Option Nat) : List Nat :=
  foreign.filter fun i => register ≠ some i

/-- Foreign registers in the order of evaluation. What has been written is the run's own, and of two
ways each may leave registers foreign. -/
def foreignFlow : Flow (List Nat) where
  mayRead := mayRead
  write := afterWriting
  join := (· ++ ·)

/-- The registers that may still be foreign after the node, and nothing if it may read a foreign
one. What is not always evaluated does not count as written. -/
def Node.foreignAfter (foreign : List Nat) (n : Node) : Option (List Nat) :=
  n.flow foreignFlow foreign

/-! ### Frames that agree -/

variable {γ : Type} {α β : Type}

/-- **Agreement**: the frames are the same except for the slots of the foreign registers. -/
structure AgreeExcept (foreign : List Nat) (f g : Frame γ) : Prop where
  names : f.registers.names = g.registers.names
  context : f.context = g.context
  slots : ∀ i, i ∉ foreign → f.registers.get? i = g.registers.get? i

/-- Frames that agree except for some registers agree except for more. -/
theorem AgreeExcept.mono {foreign foreign' : List Nat} {f g : Frame γ}
    (h : AgreeExcept foreign f g) (hsub : foreign ⊆ foreign') : AgreeExcept foreign' f g where
  names := h.names
  context := h.context
  slots i hi := h.slots i fun hmem => hi (hsub hmem)

/-- The same result. A value comes with frames that agree, a failure with the same context. -/
inductive Outcome.Alike (foreign : List Nat) : Outcome γ α → Outcome γ α → Prop where
  | returned (value : α) {f g : Frame γ} (h : AgreeExcept foreign f g) :
    Alike foreign (.returned value f) (.returned value g)
  | failed (failure : Failure) {f g : Frame γ} (h : f.context = g.context) :
    Alike foreign (.failed failure f) (.failed failure g)
  | unfinished : Alike foreign .unfinished .unfinished

/-- **Clearing.** The run reads none of the `foreign` registers: frames that agree except for them
lead to the same result. If it returns, only those in `after` may still be foreign. -/
structure Run.Clears (foreign after : List Nat) (run : Run γ α) : Prop where
  subset : after ⊆ foreign
  alike : ∀ f g, AgreeExcept foreign f g → Outcome.Alike after (run f) (run g)

namespace Run

variable {foreign after after' : List Nat}

/-! ### The operations of runs -/

private theorem clears_pure (value : α) : Clears foreign foreign (pure value : Run γ α) where
  subset := List.Subset.refl foreign
  alike _ _ h := .returned value h

private theorem clears_raise (fault : Fault) : Clears foreign foreign (raise fault : Run γ α) where
  subset := List.Subset.refl foreign
  alike _ _ h := .failed (.of fault) h.context

private theorem clears_giveUp : Clears foreign foreign (giveUp : Run γ α) where
  subset := List.Subset.refl foreign
  alike _ _ _ := .unfinished

private theorem clears_ofExcept (result : Except Fault α) :
    Clears foreign foreign (ofExcept result : Run γ α) := by
  cases result with
  | ok value => exact clears_pure value
  | error fault => exact clears_raise fault

/-- More may be called foreign afterwards, as long as it was foreign before. -/
private theorem Clears.weaken {run : Run γ α} (h : Clears foreign after run) (hsub : after ⊆ after')
    (hsub' : after' ⊆ foreign) : Clears foreign after' run where
  subset := hsub'
  alike f g hagree := by
    have hout := h.alike f g hagree
    generalize run f = outcome at hout
    generalize run g = outcome' at hout
    cases hout with
    | returned value hfinal => exact .returned value (hfinal.mono hsub)
    | failed failure hcontext => exact .failed failure hcontext
    | unfinished => exact .unfinished

/-- What a run clears may be forgotten. -/
theorem Clears.forget {run : Run γ α} (h : Clears foreign after run) : Clears foreign foreign run :=
  h.weaken h.subset (List.Subset.refl foreign)

/-- A run may start with fewer foreign registers than it allows for. -/
private theorem Clears.strengthen {run : Run γ α} (h : Clears foreign after run) {fewer : List Nat}
    (hfewer : fewer ⊆ foreign) (hsub : after ⊆ fewer) : Clears fewer after run where
  subset := hsub
  alike f g hagree := h.alike f g (hagree.mono hfewer)

/-- What the first part has cleared need not be cleared by the second. -/
theorem Clears.bind [Inhabited α] {first : Run γ α} {next : α → Run γ β}
    (hfirst : Clears foreign after first) (hnext : ∀ value, Clears after after' (next value)) :
    Clears foreign after' (first >>= next) where
  subset := List.Subset.trans (hnext default).subset hfirst.subset
  alike f g hagree := by
    have hout := hfirst.alike f g hagree
    rw [bind_apply, bind_apply]
    generalize first f = outcome at hout
    generalize first g = outcome' at hout
    cases hout with
    | returned value hfinal => exact (hnext value).alike _ _ hfinal
    | failed failure hcontext => exact .failed failure hcontext
    | unfinished => exact .unfinished

theorem Clears.locatedAt {run : Run γ α} (h : Clears foreign after run) (policy : Policy)
    (span : Option Span) : Clears foreign after (run.locatedAt policy span) where
  subset := h.subset
  alike f g hagree := by
    have hout := h.alike f g hagree
    rw [Run.locatedAt, Run.locatedAt]
    generalize run f = outcome at hout
    generalize run g = outcome' at hout
    cases hout with
    | returned value hfinal => exact .returned value hfinal
    | failed failure hcontext => exact .failed _ hcontext
    | unfinished => exact .unfinished

private theorem clears_checkDepth (policy : Policy) (depth : Nat) :
    Clears foreign foreign (checkDepth policy depth : Run γ Unit) := by
  rw [checkDepth]
  cases policy.depthLimit with
  | none => exact clears_pure ()
  | some limit =>
    dsimp only
    split
    · exact clears_raise _
    · exact clears_pure ()

/-- Of two ways to go on, either may be taken. -/
private theorem Clears.ite {run other : Run γ α} (b : Bool) (hrun : Clears foreign after run)
    (hother : Clears foreign after' other) :
    Clears foreign (after ++ after') (if b then run else other) := by
  have hsub : after ++ after' ⊆ foreign := List.append_subset.2 ⟨hrun.subset, hother.subset⟩
  cases b with
  | true => exact hrun.weaken (List.subset_append_left after after') hsub
  | false => exact hother.weaken (List.subset_append_right after after') hsub

/-- What may be left out clears nothing for sure. -/
private theorem Clears.optional {run other : Run γ α} (b : Bool) (hrun : Clears foreign after run)
    (hother : Clears foreign foreign other) :
    Clears foreign foreign (if b then run else other) := by
  cases b with
  | true => exact hrun.forget
  | false => exact hother

/-- A loop evaluates its condition at least once, and its body maybe never. Later rounds start with
no more foreign registers than the first. -/
theorem Clears.iterate {condition body exhausted : Run γ Value}
    (hcondition : Clears foreign after condition) (hbody : Clears after after' body)
    (hexhausted : Clears after after exhausted) (rounds : Nat) (last : Value) :
    Clears foreign after (Run.iterate condition body exhausted rounds last) := by
  induction rounds generalizing last with
  | zero =>
    rw [iterate_zero]
    exact hcondition.bind fun value => hexhausted.optional value.isTruthy (clears_pure last)
  | succ rounds ih =>
    rw [iterate_succ]
    have hround : Clears after after (body >>= Run.iterate condition body exhausted rounds) := by
      refine hbody.forget.bind fun value => ?_
      -- later rounds may start with fewer foreign registers, and leave no more
      exact (ih value).strengthen hcondition.subset (List.Subset.refl after)
    exact hcondition.bind fun value => hround.optional value.isTruthy (clears_pure last)

/-- Under either bound a loop clears what its condition does. -/
theorem Clears.boundedLoop {condition body : Run γ Value}
    (hcondition : Clears foreign after condition) (hbody : Clears after after' body)
    (policy : Policy) (rounds : Nat) :
    Clears foreign after (Scriptlet.boundedLoop policy rounds condition body) := by
  rw [Scriptlet.boundedLoop]
  cases policy.roundLimit with
  | some limit => exact hcondition.iterate hbody (clears_raise _) limit .void
  | none => exact hcondition.iterate hbody clears_giveUp rounds .void

/-! ### Variables -/

/-- **Writing a register** makes it the run's own. -/
private theorem clears_store (register : Nat) (value : Value) :
    Clears foreign (afterWriting foreign (some register)) (store register value : Run γ Unit) where
  subset := List.filter_sublist.subset
  alike f g hagree := by
    have hlength : f.registers.length = g.registers.length := by
      rw [Registers.length_eq, Registers.length_eq, hagree.names]
    -- there are as many registers on one side as on the other
    rcases store_cases register value f with ⟨registers, hstore, hrun⟩ | ⟨hle, hrun⟩
    · rcases store_cases register value g with ⟨registers', hstore', hrun'⟩ | ⟨hle', -⟩
      · rw [hrun, hrun']
        refine .returned () ⟨?_, hagree.context, fun i hi => ?_⟩
        · exact (Registers.names_store? hstore).trans
            (hagree.names.trans (Registers.names_store? hstore').symm)
        · rw [Registers.get?_store? hstore, Registers.get?_store? hstore']
          -- the register itself now holds the same on both sides, and every other one holds what it
          -- did
          by_cases heq : i = register
          · rw [if_pos heq, if_pos heq]
          · rw [if_neg heq, if_neg heq]
            refine hagree.slots i fun hmem => hi ?_
            simpa [afterWriting, hmem] using Ne.symm heq
      · exact absurd (Registers.lt_of_store? hstore) (by omega)
    · rcases store_cases register value g with ⟨registers', hstore', -⟩ | ⟨-, hrun'⟩
      · exact absurd (Registers.lt_of_store? hstore') (by omega)
      · rw [hrun, hrun']
        exact .failed _ hagree.context

variable [Context γ]

/-- **Reading a variable** whose register is not foreign. -/
private theorem clears_resolve {register : Option Nat} (hread : mayRead foreign register)
    (policy : Policy) (name : String) :
    Clears foreign foreign (resolve policy name register : Run γ Value) where
  subset := List.Subset.refl foreign
  alike f g hagree := by
    have hlookup := lookupName_congr hagree.names name register
    -- a slot that may be read is the same on both sides
    have hslot : register.bind f.registers.get? = register.bind g.registers.get? := by
      cases register with
      | none => rfl
      | some i => exact hagree.slots i (by simpa [mayRead] using hread)
    have hsame : f.read? name register = g.read? name register := by
      rw [Frame.read?, Frame.read?, hslot, hlookup, hagree.context]
    rw [resolve_apply, resolve_apply, hsame, hlookup]
    cases g.read? name register with
    | some value => exact .returned value hagree
    | none =>
      cases policy.strict with
      | true => exact .failed _ hagree.context
      | false => exact .returned Value.null hagree

/-- A variable without a register is in the context, which is the same on both sides. -/
private theorem clears_assignVariable (name : String) (register : Option Nat) (value : Value) :
    Clears foreign (afterWriting foreign register)
      (assignVariable name register value : Run γ Unit) := by
  cases register with
  | some i => exact clears_store i value
  | none =>
    have hall : afterWriting foreign none = foreign := by simp [afterWriting]
    rw [hall]
    refine ⟨List.Subset.refl foreign, fun f g hagree => ?_⟩
    refine .returned () ⟨hagree.names, ?_, hagree.slots⟩
    rw [hagree.context]

end Run

/-! ### Trees -/

variable [Context γ] {policy : Policy} {rounds : Nat}

/-- The rules clear foreign registers in the order of evaluation. -/
theorem Run.Clears.respects (policy : Policy) (rounds : Nat) (nodes : List Node) :
    Run.Respects foreignFlow policy policy rounds rounds nodes
      (fun foreign after {α} (run _ : Run γ α) => run.Clears foreign after) where
  pure _ := Run.clears_pure
  bind hfirst hnext := hfirst.bind hnext
  forget hrun := hrun.forget
  choice b hrun hother := hrun.ite b hother
  loop _ _ hcondition hbody := hcondition.boundedLoop hbody policy rounds
  operation _ _ := Run.clears_ofExcept _
  malformed _ _ _ := Run.clears_raise _
  notAssignable _ _ _ := Run.clears_raise _
  resolve _ _ hread := Run.clears_resolve hread policy _
  assignVariable _ value _ _ _ := Run.clears_assignVariable _ _ value
  store _ value _ _ _ := Run.clears_store _ value

namespace Node

/-- Evaluating the node clears what the analysis says it clears. -/
def EvalClears (γ : Type) [Context γ] (policy : Policy) (rounds : Nat) (n : Node) : Prop :=
  ∀ foreign after, n.foreignAfter foreign = some after → ∀ depth,
    Run.Clears foreign after (n.eval policy rounds depth : Run γ Value)

/-- Assigning to the node clears what the analysis says it clears. -/
def AssignClears (γ : Type) [Context γ] (policy : Policy) (rounds : Nat) (nodes : List Node)
    (n : Node) : Prop :=
  n.IsTarget nodes → ∀ foreign after, n.flowTarget foreignFlow foreign = some after →
    ∀ depth value, Run.Clears foreign after (n.assign policy rounds depth value : Run γ Unit)

/-- **The analysis is right**: a node leaves foreign registers alone, except for writing those that
it is said to write. -/
theorem clears (policy : Policy) (rounds : Nat) {nodes : List Node} (n : Node)
    (hn : n.preorder ⊆ nodes) :
    EvalClears γ policy rounds n ∧ AssignClears γ policy rounds nodes n := by
  -- by induction on the tree, for all lists of foreign registers at once
  induction n with
  | node kind children span ih =>
    have hrespects := Run.Clears.respects (γ := γ) policy rounds nodes
    have hchild (depth : Nat) : ∀ c ∈ children, Run.Stands foreignFlow nodes
        (fun foreign after {α} (run _ : Run γ α) => run.Clears foreign after) c
        (c.asChild γ policy rounds depth) (c.asChild γ policy rounds depth) := by
      intro c hc
      obtain ⟨heval, hassign⟩ := ih c hc (List.Subset.trans (preorder_subset hc) hn)
      exact ⟨rfl, rfl, fun hflow => heval _ _ hflow depth,
        fun value htarget hflow => hassign htarget _ _ hflow depth value⟩
    constructor
    · intro foreign after hflow depth
      rw [eval_mk]
      refine Run.Clears.locatedAt ?_ policy span
      refine (Run.clears_checkDepth policy depth).bind fun _ => ?_
      exact hrespects.evalRule (hn (mem_preorder_self _)) (hchild (depth + 1)) hflow
    · intro htarget foreign after hflow depth value
      rw [assign_mk]
      exact hrespects.assignRule hn htarget (hchild depth) hflow value

end Node

end Scriptlet

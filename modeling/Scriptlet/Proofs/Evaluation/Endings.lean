import Scriptlet.Proofs.Evaluation.Congruence

/-!
# How runs end

A loop without a limit is run for a given number of rounds, and a run that would take more is left
unfinished. Whether a tree returns at all is a question about all numbers of rounds: it ends in an
outcome if some number lets it finish there, and it diverges if none does.

* `Run.Refines` — one run keeps the outcomes of another, except for given faults;
* `Node.interpret_mono` — more rounds keep every outcome but `unfinished`;
* `Node.Ends`, `Node.Diverges` — what a tree does under all numbers of rounds; it does exactly one
  of the two, and ends in one outcome only.
-/

namespace Scriptlet

variable {γ : Type} {α β : Type} {exempt : Fault → Prop}

/-- The cause of failure, if the run has failed. -/
def Outcome.fault? : Outcome γ α → Option Fault
  | failed failure _ => some failure.fault
  | returned .. | unfinished => none

/-! ### Keeping outcomes -/

/-- The run has ended, and not with an exempt fault. -/
def Outcome.Settled (exempt : Fault → Prop) : Outcome γ α → Prop
  | returned _ _ => True
  | failed failure _ => ¬ exempt failure.fault
  | unfinished => False

/-- An outcome is settled if it is one, and is no failure that is exempt. -/
theorem Outcome.settled_iff {outcome : Outcome γ α} :
    outcome.Settled exempt ↔
      outcome ≠ .unfinished ∧ ∀ fault, outcome.fault? = some fault → ¬ exempt fault := by
  cases outcome <;> simp [Settled, fault?]

namespace Run

/-- **Keeping outcomes.** Wherever the first run has ended, and not with an exempt fault, the second
ends in the same way. -/
def Refines (exempt : Fault → Prop) (run run' : Run γ α) : Prop :=
  ∀ frame, (run frame).Settled exempt → run' frame = run frame

theorem not_settled_raise {fault : Fault} (h : exempt fault) (frame : Frame γ) :
    ¬ (raise fault frame : Outcome γ α).Settled exempt := fun hsettled => hsettled h

theorem not_settled_giveUp (frame : Frame γ) :
    ¬ (giveUp frame : Outcome γ α).Settled exempt := id

theorem Refines.refl (run : Run γ α) : Refines exempt run run := fun _ _ => rfl

/-- A sequence keeps its outcome if both parts do, since a settled sequence has a settled first
part. -/
theorem Refines.bind {first first' : Run γ α} {next next' : α → Run γ β}
    (hfirst : Refines exempt first first')
    (hnext : ∀ value, Refines exempt (next value) (next' value)) :
    Refines exempt (first >>= next) (first' >>= next') := by
  intro frame hsettled
  have hkeep := hfirst frame
  rw [bind_apply] at hsettled
  rw [bind_apply, bind_apply]
  -- the first part is settled in each case in which the sequence is
  cases hrun : first frame with
  | returned value frame' =>
    rw [hrun] at hsettled hkeep
    rw [hkeep trivial]
    exact hnext value frame' hsettled
  | failed failure frame' =>
    rw [hrun] at hsettled hkeep
    rw [hkeep hsettled]
  | unfinished =>
    rw [hrun] at hsettled
    exact hsettled.elim

/-- A place does not change the cause of a failure, and so not whether an outcome is settled. -/
theorem Refines.locatedAt {policy policy' : Policy} (hlocated : policy'.located = policy.located)
    {run run' : Run γ α} (span : Option Span) (hrun : Refines exempt run run') :
    Refines exempt (run.locatedAt policy span) (run'.locatedAt policy' span) := by
  intro frame hsettled
  have hkeep := hrun frame
  simp only [Run.locatedAt] at hsettled ⊢
  rw [hlocated]
  cases hout : run frame with
  | returned value frame' =>
    rw [hout] at hkeep
    rw [hkeep trivial]
  | failed failure frame' =>
    -- a place does not change the fault, so what was exempt before is exempt after
    have hfault : ¬ exempt failure.fault := by
      rw [hout] at hsettled
      cases hl : policy.located <;> simpa [hl, Outcome.Settled] using hsettled
    rw [hout] at hkeep
    rw [hkeep hfault]
  | unfinished =>
    rw [hout] at hsettled
    exact hsettled.elim

/-- A loop keeps its outcomes in one that allows at least as many rounds, if exhaustion does not
count as an outcome; under the same bound it is enough that exhaustion keeps its outcomes too. -/
theorem Refines.iterate {condition condition' body body' exhausted exhausted' : Run γ Value}
    (hcondition : Refines exempt condition condition') (hbody : Refines exempt body body')
    {rounds rounds' : Nat} (hrounds : rounds ≤ rounds')
    (hexhausted : (∀ frame, ¬ (exhausted frame).Settled exempt) ∨
      rounds = rounds' ∧ Refines exempt exhausted exhausted')
    (last : Value) :
    Refines exempt (Run.iterate condition body exhausted rounds last)
      (Run.iterate condition' body' exhausted' rounds' last) := by
  -- by induction on the smaller bound, while the other one may have rounds left
  induction rounds generalizing rounds' last with
  | zero =>
    rw [iterate_zero]
    cases rounds' with
    | zero =>
      rw [iterate_zero]
      refine hcondition.bind fun value => ite_rel value.isTruthy ?_ (Refines.refl _)
      exact hexhausted.elim (fun h frame hsettled => (h frame hsettled).elim) fun h => h.2
    | succ rounds' =>
      rw [iterate_succ]
      refine hcondition.bind fun value => ite_rel value.isTruthy ?_ (Refines.refl _)
      rcases hexhausted with hnever | ⟨hbound, -⟩
      · exact fun frame hsettled => (hnever frame hsettled).elim
      · cases hbound
  | succ rounds ih =>
    obtain ⟨rounds', rfl⟩ : ∃ k, rounds' = k + 1 := ⟨rounds' - 1, by omega⟩
    rw [iterate_succ, iterate_succ]
    refine hcondition.bind fun value => ite_rel value.isTruthy ?_ (Refines.refl _)
    refine hbody.bind fun value' => ih (by omega) ?_ value'
    exact hexhausted.imp_right fun h => ⟨Nat.succ.inj h.1, h.2⟩

variable [Context γ] {policy policy' : Policy} {rounds rounds' : Nat}

/-- **Outcomes of trees are kept** if the operations that depend on the policy keep theirs. -/
theorem Refines.congruence (hlocated : policy'.located = policy.located)
    (hdepth : ∀ depth, Refines exempt (checkDepth policy depth : Run γ Unit)
      (checkDepth policy' depth))
    (hloop : ∀ {condition condition' body body' : Run γ Value},
      Refines exempt condition condition' → Refines exempt body body' →
        Refines exempt (boundedLoop policy rounds condition body)
          (boundedLoop policy' rounds' condition' body'))
    (hresolve : ∀ name register, Refines exempt (resolve policy name register : Run γ Value)
      (resolve policy' name register)) (nodes : List Node) :
    Congruence policy policy' rounds rounds' id nodes
      (fun run run' : Run γ _ => Refines exempt run run') where
  pure _ := .refl _
  bind hfirst hnext := hfirst.bind hnext
  locatedAt span hrun := hrun.locatedAt hlocated span
  checkDepth := hdepth
  loop _ _ := hloop
  operation _ := .refl _
  malformed _ _ := .refl _
  notAssignable _ _ := .refl _
  resolve _ _ := hresolve _ _
  assignVariable _ _ _ _ := .refl _
  store _ _ _ _ := .refl _

end Run

/-! ### More rounds -/

variable [Context γ]

namespace Node

/-- **More rounds keep every outcome** but `unfinished`. -/
theorem interpret_mono (policy : Policy) (n : Node) (frame : Frame γ) {rounds rounds' : Nat}
    (hrounds : rounds ≤ rounds') (hends : n.interpret policy rounds frame ≠ .unfinished) :
    n.interpret policy rounds' frame = n.interpret policy rounds frame := by
  have hrefines : Run.Refines (fun _ => False) (n.interpret policy rounds : Run γ Value)
      ((n.mapSpans id).interpret policy rounds') := by
    refine (Run.Refines.congruence rfl (fun _ => .refl _) ?_ (fun _ _ => .refl _)
      n.preorder).interpret
    intro condition condition' body body' hcondition hbody
    rw [boundedLoop, boundedLoop]
    cases policy.roundLimit with
    | some limit => exact hcondition.iterate hbody (Nat.le_refl limit) (.inr ⟨rfl, .refl _⟩) .void
    | none => exact hcondition.iterate hbody hrounds (.inl Run.not_settled_giveUp) .void
  rw [mapSpans_id] at hrefines
  exact hrefines frame (Outcome.settled_iff.2 ⟨hends, fun _ _ => id⟩)

/-! ### Ending and diverging -/

/-- The run of the tree ends in this outcome. -/
def Ends (policy : Policy) (n : Node) (frame : Frame γ) (outcome : Outcome γ Value) : Prop :=
  outcome ≠ .unfinished ∧ ∃ rounds, n.interpret policy rounds frame = outcome

/-- The run of the tree never ends. -/
def Diverges (policy : Policy) (n : Node) (frame : Frame γ) : Prop :=
  ∀ rounds, n.interpret policy rounds frame = .unfinished

variable {policy : Policy} {n : Node} {frame : Frame γ}

/-- **A run ends in one outcome only.** -/
theorem Ends.unique {outcome outcome' : Outcome γ Value} (h : n.Ends policy frame outcome)
    (h' : n.Ends policy frame outcome') : outcome = outcome' := by
  obtain ⟨hends, rounds, hrun⟩ := h
  obtain ⟨hends', rounds', hrun'⟩ := h'
  -- both outcomes survive the larger of the two bounds
  calc outcome = n.interpret policy rounds frame := hrun.symm
    _ = n.interpret policy (max rounds rounds') frame :=
        (n.interpret_mono policy frame (Nat.le_max_left ..) (hrun ▸ hends)).symm
    _ = n.interpret policy rounds' frame :=
        n.interpret_mono policy frame (Nat.le_max_right ..) (hrun' ▸ hends')
    _ = outcome' := hrun'

/-- **A run does not both end and diverge.** -/
theorem Ends.not_diverges {outcome : Outcome γ Value} (h : n.Ends policy frame outcome) :
    ¬ n.Diverges policy frame := by
  obtain ⟨hends, rounds, hrun⟩ := h
  intro hdiverges
  exact hends (hrun.symm.trans (hdiverges rounds))

/-- **A run ends or diverges.** -/
theorem ends_or_diverges (policy : Policy) (n : Node) (frame : Frame γ) :
    (∃ outcome, n.Ends policy frame outcome) ∨ n.Diverges policy frame := by
  by_cases h : ∃ rounds, n.interpret policy rounds frame ≠ .unfinished
  · obtain ⟨rounds, hends⟩ := h
    exact .inl ⟨_, hends, rounds, rfl⟩
  · exact .inr fun rounds => Classical.not_not.1 fun hends => h ⟨rounds, hends⟩

end Node

end Scriptlet

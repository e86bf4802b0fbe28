import Scriptlet.Proofs.Evaluation.Endings

/-!
# Places do not influence runs

The spans of a tree, and the wish to have failures placed, are there for whoever reads a failure.
Evaluation hands them on, but never looks at them: two trees that differ in their spans alone do the
same, whether or not failures are placed on either side.

* `Outcome.SameButPlace` — the same outcome, the place of a failure aside;
* `Run.SameButPlaces` — runs that have the same outcomes, places aside;
* `Node.interpret_unlocated` — a tree and the same tree without spans;
* `Node.interpret_placed` — two trees that become the same without spans.

The spans of the two trees have nothing to do with each other, so neither tree is the other one with
its spans replaced. Both are compared with the tree that has no spans at all.
-/

namespace Scriptlet

variable {γ : Type} {α β : Type}

/-- The same value or the same cause of failure, over the same frame. -/
inductive Outcome.SameButPlace : Outcome γ α → Outcome γ α → Prop where
  | returned (value : α) (frame : Frame γ) :
    SameButPlace (.returned value frame) (.returned value frame)
  | failed (fault : Fault) (span span' : Option Span) (frame : Frame γ) :
    SameButPlace (.failed ⟨fault, span⟩ frame) (.failed ⟨fault, span'⟩ frame)
  | unfinished : SameButPlace .unfinished .unfinished

namespace Outcome.SameButPlace

variable {outcome outcome' outcome'' : Outcome γ α}

/-- An outcome is the same as itself. -/
theorem refl (outcome : Outcome γ α) : SameButPlace outcome outcome := by
  cases outcome with
  | returned value frame => exact .returned value frame
  | failed failure frame => exact .failed failure.fault failure.span failure.span frame
  | unfinished => exact .unfinished

/-- Which of the two outcomes comes first does not matter. -/
theorem symm (h : SameButPlace outcome outcome') : SameButPlace outcome' outcome := by
  cases h with
  | returned value frame => exact .returned value frame
  | failed fault span span' frame => exact .failed fault span' span frame
  | unfinished => exact .unfinished

/-- Outcomes that are the same as a third one are the same. -/
theorem trans (h : SameButPlace outcome outcome') (h' : SameButPlace outcome' outcome'') :
    SameButPlace outcome outcome'' := by
  cases h with
  | returned value frame => exact h'
  | failed fault span span' frame =>
    cases h' with
    | failed _ _ span'' _ => exact .failed fault span span'' frame
  | unfinished => exact h'

end Outcome.SameButPlace

namespace Run

/-- **The same runs, places aside.** -/
def SameButPlaces (run run' : Run γ α) : Prop :=
  ∀ frame, (run frame).SameButPlace (run' frame)

/-! ### The operations of runs -/

theorem SameButPlaces.refl (run : Run γ α) : SameButPlaces run run := by
  intro frame
  exact .refl (run frame)

/-- Two runs in sequence differ in places only if both parts do. -/
theorem SameButPlaces.bind {first first' : Run γ α} {next next' : α → Run γ β}
    (hfirst : SameButPlaces first first')
    (hnext : ∀ value, SameButPlaces (next value) (next' value)) :
    SameButPlaces (first >>= next) (first' >>= next') := by
  intro frame
  have hout := hfirst frame
  rw [bind_apply, bind_apply]
  generalize first frame = outcome at hout
  generalize first' frame = outcome' at hout
  cases hout with
  | returned value final => exact hnext value final
  | failed fault span span' final => exact .failed fault span span' final
  | unfinished => exact .unfinished

/-- A place is all that placing a failure changes. -/
theorem locatedAt_sameButPlaces (policy : Policy) (span : Option Span) (run : Run γ α) :
    SameButPlaces (run.locatedAt policy span) run := by
  intro frame
  rw [locatedAt]
  cases run frame with
  | returned value final => exact .returned value final
  | failed failure final =>
    dsimp only
    split
    · exact .failed failure.fault _ failure.span final
    · exact .refl _
  | unfinished => exact .unfinished

/-- Adding places, even different ones, changes nothing but places. -/
theorem SameButPlaces.locatedAt {run run' : Run γ α} (h : SameButPlaces run run')
    (policy policy' : Policy) (span span' : Option Span) :
    SameButPlaces (run.locatedAt policy span) (run'.locatedAt policy' span') := by
  intro frame
  have hrun := locatedAt_sameButPlaces policy span run frame
  have hrun' := locatedAt_sameButPlaces policy' span' run' frame
  exact (hrun.trans (h frame)).trans hrun'.symm

theorem SameButPlaces.boundedLoop {condition condition' body body' : Run γ Value}
    (hcondition : SameButPlaces condition condition') (hbody : SameButPlaces body body')
    (policy : Policy) (located : Bool) (rounds : Nat) :
    SameButPlaces (Scriptlet.boundedLoop policy rounds condition body)
      (Scriptlet.boundedLoop { policy with located } rounds condition' body') := by
  have hiterate (exhausted : Run γ Value) (rounds : Nat) :
      SameButPlaces (iterate condition body exhausted rounds .void)
        (iterate condition' body' exhausted rounds .void) :=
    iterate_rel (fun _ => .refl _) SameButPlaces.bind hcondition hbody (.refl exhausted) rounds
      .void
  rw [Scriptlet.boundedLoop, Scriptlet.boundedLoop]
  cases policy.roundLimit with
  | some limit => exact hiterate _ limit
  | none => exact hiterate _ rounds

end Run

/-! ### Trees -/

namespace Node

variable [Context γ]

/-- **A tree does the same without its spans**, places aside, whether or not places are asked
for. -/
theorem interpret_unlocated (policy : Policy) (located : Bool) (rounds : Nat) (n : Node) :
    Run.SameButPlaces (n.interpret policy rounds : Run γ Value)
      (n.unlocated.interpret { policy with located } rounds) := by
  have hcongruence : Run.Congruence policy { policy with located } rounds rounds (fun _ => none)
      n.preorder (fun (run run' : Run γ _) => run.SameButPlaces run') :=
    { pure := fun _ => .refl _
      bind := Run.SameButPlaces.bind
      locatedAt := fun span hrun => hrun.locatedAt policy _ span none
      -- everything but the placing of failures is the same on both sides
      checkDepth := fun _ => .refl _
      loop := fun _ _ hcondition hbody => hcondition.boundedLoop hbody policy located rounds
      operation := fun _ => .refl _
      malformed := fun _ _ => .refl _
      notAssignable := fun _ _ => .refl _
      resolve := fun _ _ => .refl _
      assignVariable := fun _ _ _ _ => .refl _
      store := fun _ _ _ _ => .refl _ }
  exact hcongruence.interpret

variable {a b : Node}

/-- Trees that are the same without their spans do the same, places aside. -/
theorem interpret_sameButPlaces (h : a.unlocated = b.unlocated) (policy : Policy) (located : Bool)
    (rounds : Nat) :
    Run.SameButPlaces (a.interpret policy rounds : Run γ Value)
      (b.interpret { policy with located } rounds) := by
  intro frame
  have ha := interpret_unlocated policy located rounds a frame
  have hb := interpret_unlocated { policy with located } located rounds b frame
  rw [h] at ha
  exact ha.trans hb.symm

/-- **Diagnostics do not influence evaluation.** Two trees that are the same without their spans,
under policies that differ in placing failures at most, diverge together, return the same value, or
fail from the same cause; and whenever they end, they leave the same registers and the same context.
Only the place of the failure may differ. -/
theorem interpret_placed (h : a.unlocated = b.unlocated) (policy : Policy) (located : Bool)
    (frame : Frame γ) :
    (a.Diverges policy frame ∧ b.Diverges { policy with located } frame) ∨
    (∃ value final, a.Ends policy frame (.returned value final) ∧
      b.Ends { policy with located } frame (.returned value final)) ∨
    ∃ fault span span' final, a.Ends policy frame (.failed ⟨fault, span⟩ final) ∧
      b.Ends { policy with located } frame (.failed ⟨fault, span'⟩ final) := by
  have hsame (rounds : Nat) := interpret_sameButPlaces h policy located rounds frame
  rcases a.ends_or_diverges policy frame with ⟨outcome, hends, rounds, hout⟩ | hdiverges
  · -- the rounds that let one run end let the other end too
    have hrounds := hsame rounds
    rw [hout] at hrounds
    generalize hout' : b.interpret { policy with located } rounds frame = outcome' at hrounds
    right
    cases hrounds with
    | returned value final =>
      exact .inl ⟨value, final, ⟨nofun, rounds, hout⟩, ⟨nofun, rounds, hout'⟩⟩
    | failed fault span span' final =>
      exact .inr ⟨fault, span, span', final, ⟨nofun, rounds, hout⟩, ⟨nofun, rounds, hout'⟩⟩
    | unfinished => exact absurd rfl hends
  · left
    refine ⟨hdiverges, fun rounds => ?_⟩
    have hrounds := hsame rounds
    rw [hdiverges rounds] at hrounds
    generalize b.interpret { policy with located } rounds frame = outcome' at hrounds
    cases hrounds
    rfl

/-- Assigns to `x`, and divides by zero in the second of two statements, with the given spans. -/
def dividesByZero (whole divisor : Option Span) : Node :=
  let literal (n : Int64) (span : Option Span) : Node := ⟨.literal (.int n), [], span⟩
  ⟨.script, [⟨.assign, [⟨.identifier "x" none, [], none⟩, literal 1 whole], divisor⟩,
    ⟨.binary .div, [literal 1 none, literal 0 divisor], none⟩], whole⟩

/-- The division fails in both trees, in one of them without a place. What was assigned before stays
assigned. -/
theorem interpret_placed_dividesByZero :
    ∃ span span' final,
      (dividesByZero (some ⟨0, 12⟩) none).Ends {} ⟨.empty, Variables.empty⟩
        (.failed ⟨.divisionByZero, span⟩ final) ∧
      (dividesByZero none (some ⟨3, 5⟩)).Ends { located := false } ⟨.empty, Variables.empty⟩
        (.failed ⟨.divisionByZero, span'⟩ final) := by
  have hends : (dividesByZero (some ⟨0, 12⟩) none).Ends {} ⟨.empty, Variables.empty⟩
      (.failed ⟨.divisionByZero, some ⟨0, 12⟩⟩ ⟨.empty, Variables.ofList [("x", .int 1)]⟩) :=
    ⟨nofun, 0, rfl⟩
  have hsame : (dividesByZero (some ⟨0, 12⟩) none).unlocated =
      (dividesByZero none (some ⟨3, 5⟩)).unlocated := rfl
  rcases interpret_placed hsame {} false ⟨.empty, Variables.empty⟩ with
    ⟨hdiverges, -⟩ | ⟨value, final, hreturns, -⟩ | ⟨fault, span, span', final, hfails, hfails'⟩
  · exact absurd hdiverges hends.not_diverges
  · cases hends.unique hreturns
  · cases hends.unique hfails
    exact ⟨_, span', _, hends, hfails'⟩

end Node

end Scriptlet

import Scriptlet.Proofs.Evaluation.Endings
import Scriptlet.Proofs.Evaluation.Frames

/-!
# Simulations between frames

Two runs of one tree from different frames do the same as long as its variables do: if reading and
writing them keeps a relation between the frames, and reads the same on both sides, then the whole
runs give the same result, over frames that are related again.

* `Outcome.Related` — the same result over related frames;
* `Run.Simulates` — related frames lead to related outcomes;
* `Run.Simulates.ends` — what this says about ending and diverging.
-/

namespace Scriptlet

variable {γ δ : Type} {α β : Type} {R : Frame γ → Frame δ → Prop}

/-- The same result, over frames that are related. -/
inductive Outcome.Related (R : Frame γ → Frame δ → Prop) : Outcome γ α → Outcome δ α → Prop where
  | returned (value : α) {f : Frame γ} {g : Frame δ} (h : R f g) :
    Related R (.returned value f) (.returned value g)
  | failed (failure : Failure) {f : Frame γ} {g : Frame δ} (h : R f g) :
    Related R (.failed failure f) (.failed failure g)
  | unfinished : Related R .unfinished .unfinished

/-- The outcome with the given result and frame. -/
def Outcome.ofResult (result : Except Failure α) (frame : Frame γ) : Outcome γ α :=
  match result with
  | .ok value => returned value frame
  | .error failure => failed failure frame

namespace Run

/-- **Simulation.** From related frames the two runs have related outcomes. -/
def Simulates (R : Frame γ → Frame δ → Prop) (run : Run γ α) (run' : Run δ α) : Prop :=
  ∀ f g, R f g → Outcome.Related R (run f) (run' g)

/-- The frames are not touched, and so still related. -/
theorem simulates_pure (value : α) :
    Simulates R (pure value : Run γ α) (pure value : Run δ α) := by
  intro f g h
  exact .returned value h

theorem simulates_raise (fault : Fault) :
    Simulates R (raise fault : Run γ α) (raise fault : Run δ α) := by
  intro f g h
  exact .failed (.of fault) h

theorem simulates_ofExcept (result : Except Fault α) :
    Simulates R (ofExcept result : Run γ α) (ofExcept result : Run δ α) := by
  cases result with
  | ok value => exact simulates_pure value
  | error fault => exact simulates_raise fault

/-- Sequences are simulated step by step. -/
theorem Simulates.bind {first : Run γ α} {first' : Run δ α} {next : α → Run γ β}
    {next' : α → Run δ β} (hfirst : Simulates R first first')
    (hnext : ∀ value, Simulates R (next value) (next' value)) :
    Simulates R (first >>= next) (first' >>= next') := by
  intro f g h
  have hout := hfirst f g h
  rw [bind_apply, bind_apply]
  generalize first f = outcome at hout
  generalize first' g = outcome' at hout
  cases hout with
  | returned value h' => exact hnext value _ _ h'
  | failed failure h' => exact .failed failure h'
  | unfinished => exact .unfinished

theorem Simulates.locatedAt {run : Run γ α} {run' : Run δ α} (hrun : Simulates R run run')
    (policy : Policy) (span : Option Span) :
    Simulates R (run.locatedAt policy span) (run'.locatedAt policy span) := by
  intro f g h
  have hout := hrun f g h
  rw [Run.locatedAt, Run.locatedAt]
  generalize run f = outcome at hout
  generalize run' g = outcome' at hout
  cases hout with
  | returned value h' => exact .returned value h'
  | failed failure h' => exact .failed _ h'
  | unfinished => exact .unfinished

theorem Simulates.checkDepth (policy : Policy) (depth : Nat) :
    Simulates R (Scriptlet.checkDepth policy depth : Run γ Unit)
      (Scriptlet.checkDepth policy depth : Run δ Unit) := by
  rw [Scriptlet.checkDepth, Scriptlet.checkDepth]
  cases policy.depthLimit with
  | none => exact simulates_pure ()
  | some limit =>
    dsimp only
    split
    · exact simulates_raise _
    · exact simulates_pure ()

/-- Loops under the same bound do the same if their parts do. -/
theorem Simulates.boundedLoop {condition body : Run γ Value} {condition' body' : Run δ Value}
    (hcondition : Simulates R condition condition') (hbody : Simulates R body body')
    (policy : Policy) (rounds : Nat) :
    Simulates R (Scriptlet.boundedLoop policy rounds condition body)
      (Scriptlet.boundedLoop policy rounds condition' body') := by
  rw [Scriptlet.boundedLoop, Scriptlet.boundedLoop]
  cases policy.roundLimit with
  | some limit =>
    exact iterate_rel simulates_pure Simulates.bind hcondition hbody (simulates_raise _) limit .void
  | none =>
    refine iterate_rel simulates_pure Simulates.bind hcondition hbody ?_ rounds .void
    exact fun _ _ _ => .unfinished

variable [Context γ] [Context δ] {policy : Policy} {n : Node}

/-- **Simulation of trees.** It is enough that reading and writing their variables is simulated. -/
theorem Simulates.interpret
    (hresolve : ∀ m ∈ n.preorder, ∀ name register, m.kind = .identifier name register →
      Simulates R (resolve policy name register) (resolve policy name register))
    (hassign : ∀ m ∈ n.preorder, ∀ name register, m.kind = .identifier name register →
      ∀ value,
        Simulates R (assignVariable name register value) (assignVariable name register value))
    (hstore : ∀ register value, Simulates R (store register value) (store register value))
    (rounds : Nat) :
    Simulates R (n.interpret policy rounds) (n.interpret policy rounds) := by
  -- every other operation does the same on both sides whatever the frames are
  have hcongruence : Congruence policy policy rounds rounds id n.preorder
      (fun (run : Run γ _) (run' : Run δ _) => Simulates R run run') :=
    { pure := simulates_pure
      bind := Simulates.bind
      locatedAt := fun span hrun => hrun.locatedAt policy span
      checkDepth := Simulates.checkDepth policy
      loop := fun _ _ hcondition hbody => hcondition.boundedLoop hbody policy rounds
      operation := fun _ => simulates_ofExcept _
      malformed := fun _ _ => simulates_raise _
      notAssignable := fun _ _ => simulates_raise _
      resolve := fun hm hkind => hresolve _ hm _ _ hkind
      assignVariable := fun value _ hm hkind => hassign _ hm _ _ hkind value
      store := fun value _ _ _ => hstore _ value }
  have hsimulates := hcongruence.interpret
  rwa [Node.mapSpans_id] at hsimulates

/-- Simulated runs end together, with the same result over related frames, or diverge together. -/
theorem Simulates.ends
    (hrun : ∀ rounds, Simulates R (n.interpret policy rounds) (n.interpret policy rounds))
    {f : Frame γ} {g : Frame δ} (h : R f g) :
    (n.Diverges policy f ∧ n.Diverges policy g) ∨
      ∃ result f' g', n.Ends policy f (.ofResult result f') ∧
        n.Ends policy g (.ofResult result g') ∧ R f' g' := by
  rcases n.ends_or_diverges policy f with ⟨outcome, hends, rounds, hout⟩ | hdiverges
  -- a bound under which one side ends lets the other side end too
  · have hrelated := hrun rounds f g h
    rw [hout] at hrelated
    generalize hout' : n.interpret policy rounds g = outcome' at hrelated
    cases hrelated with
    | returned value h' =>
      exact .inr ⟨.ok value, _, _, ⟨hends, rounds, hout⟩, ⟨nofun, rounds, hout'⟩, h'⟩
    | failed failure h' =>
      exact .inr ⟨.error failure, _, _, ⟨hends, rounds, hout⟩, ⟨nofun, rounds, hout'⟩, h'⟩
    | unfinished => exact (hends rfl).elim
  · refine .inl ⟨hdiverges, fun rounds => ?_⟩
    have hrelated := hrun rounds f g h
    rw [hdiverges rounds] at hrelated
    generalize n.interpret policy rounds g = outcome' at hrelated
    cases hrelated
    rfl

end Run

end Scriptlet

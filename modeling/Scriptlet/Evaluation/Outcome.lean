import Scriptlet.Evaluation.Fault
import Scriptlet.Evaluation.Policy
import Scriptlet.Evaluation.Registers
import Scriptlet.Evaluation.Variables

/-!
# Runs and their outcomes

A run starts from a frame, the registers and the context, and has one of three outcomes. It returns
a value, it fails, or it is left unfinished because a loop without a limit took more rounds than it
was given. What was written before a failure stays written, so a failed run has a final frame too.

* `Run` — computations over a frame, a monad in which a failure ends the sequence;
* `Run.raise`, `Run.ofExcept` — failing with a cause;
* `Run.locatedAt` — adding the place of a node to the failures inside it;
* `Run.iterate` — the loop.
-/

namespace Scriptlet

/-- What a run works on. -/
structure Frame (γ : Type) where
  registers : Registers
  context : γ

/-- How a run ends. -/
inductive Outcome (γ α : Type) where
  | returned (value : α) (frame : Frame γ)
  | failed (failure : Failure) (frame : Frame γ)
  | unfinished

namespace Outcome

/-- The frame at the end. -/
def frame? : Outcome γ α → Option (Frame γ)
  | returned _ frame | failed _ frame => some frame
  | unfinished => none

/-- The value or the failure. -/
def result? : Outcome γ α → Option (Except Failure α)
  | returned value _ => some (.ok value)
  | failed failure _ => some (.error failure)
  | unfinished => none

end Outcome

/-- A computation over a frame. -/
def Run (γ α : Type) := Frame γ → Outcome γ α

namespace Run

@[always_inline]
instance : Monad (Run γ) where
  pure value frame := .returned value frame
  bind first next frame :=
    match first frame with
    | .returned value frame => next value frame
    | .failed failure frame => .failed failure frame
    | .unfinished => .unfinished

@[simp]
theorem pure_apply (value : α) (frame : Frame γ) :
    (pure value : Run γ α) frame = .returned value frame := rfl

theorem bind_apply (first : Run γ α) (next : α → Run γ β) (frame : Frame γ) :
    (first >>= next) frame =
      match first frame with
      | .returned value frame => next value frame
      | .failed failure frame => .failed failure frame
      | .unfinished => .unfinished := rfl

/-- Fails with the given cause, at no particular place. -/
def raise (fault : Fault) : Run γ α := fun frame => .failed (.of fault) frame

/-- Gives up. -/
def giveUp : Run γ α := fun _ => .unfinished

/-- A result that needs no frame. -/
def ofExcept : Except Fault α → Run γ α
  | .ok value => pure value
  | .error fault => raise fault

/-- The frame as it stands. -/
def getFrame : Run γ (Frame γ) := fun frame => .returned frame frame

/-- Resolves a register to a value. -/
def store (register : Nat) (value : Value) : Run γ Unit := fun frame =>
  match frame.registers.store? register value with
  | some registers => .returned () { frame with registers := registers }
  | none => .failed (.of (.unknownRegister register)) frame

/-- Defines or overwrites a variable of the context. -/
def define [Context γ] (name : String) (value : Value) : Run γ Unit := fun frame =>
  .returned () { frame with context := Context.set frame.context name value }

/-- Adds a place to the failure of a run, if the policy asks for places. -/
def locatedAt (policy : Policy) (span : Option Span) (run : Run γ α) : Run γ α := fun frame =>
  match run frame with
  | .failed failure frame => .failed (if policy.located then failure.locate span else failure) frame
  | other => other

/-- A loop with at most `rounds` rounds. The condition is checked before each round, and once more
after the last one allowed; if it holds even then, `exhausted` takes over. The value is that of the
last round, or `last` if there is none. -/
def iterate (condition body exhausted : Run γ Value) (rounds : Nat) (last : Value) :
    Run γ Value := fun frame =>
  match condition frame with
  | .returned value frame =>
    if value.isTruthy then
      match rounds with
      | 0 => exhausted frame
      | rounds + 1 =>
        match body frame with
        | .returned value frame => iterate condition body exhausted rounds value frame
        | other => other
    else .returned last frame
  | other => other

end Run

end Scriptlet

import Scriptlet.Evaluation.Run
import Scriptlet.Script.Layout
import Scriptlet.Tree.Rendering

/-!
# Using scripts

A script can be run as a whole, with arguments for its registers, or only for its first statement,
as an expression. Every run starts with registers of its own, so runs share nothing but the context.
A script can also be dumped: written back as text, with the place it comes from.
-/

namespace Scriptlet.Script

variable {γ : Type} [Context γ]

/-- The frame of a run with the given arguments. -/
def frame (script : Script) (args : List Value) (context : γ) : Frame γ :=
  ⟨.bind script.registers args, context⟩

/-- Runs all statements, with arguments for the registers in order. -/
def execute (script : Script) (policy : Policy) (rounds : Nat) (args : List Value) (context : γ) :
    Outcome γ Value :=
  script.root.interpret policy rounds (script.frame args context)

/-- Runs the first statement only, without arguments. An empty script gives `void`. -/
def evaluate (script : Script) (policy : Policy) (rounds : Nat) (context : γ) : Outcome γ Value :=
  match script.statements with
  | [] => .returned .void (script.frame [] context)
  | first :: _ => first.interpret policy rounds (script.frame [] context)

/-- The tree as text, followed by a comment with the span that it covers. -/
def dump (script : Script) : String :=
  let rendered := script.root.render script.source
  match rendered.coverage with
  | some span => s!"{rendered.text} /*{span.text}*/"
  | none => s!"{rendered.text}/*?:?*/ "

end Scriptlet.Script

import Scriptlet.Tree.Rendering

/-!
# Transcripts

A transcript records the rendering of one tree. The first tree that it is given counts; it reports
the same for every later one.
-/

namespace Scriptlet

/-- A rendering that is taken once, over a source text or without one. -/
structure Transcript where
  source : Option String
  recorded : Option Fragment

namespace Transcript

/-- An empty transcript over the given source. -/
def start (source : Option String) : Transcript := ⟨source, none⟩

/-- Takes the rendering of `n`, unless there is one already. -/
def record (t : Transcript) (n : Node) : Transcript :=
  match t.recorded with
  | some _ => t
  | none => ⟨t.source, some (n.render t.source)⟩

/-- The recorded text, empty before anything is recorded. -/
def text (t : Transcript) : String :=
  match t.recorded with
  | some f => f.text
  | none => ""

/-- The coverage of the recorded tree. -/
def span (t : Transcript) : Option Span := t.recorded.bind Fragment.coverage

/-- Where the recorded tree starts. -/
def first (t : Transcript) : Option UInt32 := t.span.map Span.start

/-- Where the recorded tree stops. -/
def last (t : Transcript) : Option UInt32 := t.span.map Span.stop

/-- Whether a recorded node had a span. -/
def isLocated (t : Transcript) : Bool := t.span.isSome

/-- **Only the first tree counts.** -/
@[simp]
theorem record_record (t : Transcript) (n m : Node) : (t.record n).record m = t.record n := by
  unfold record; cases h : t.recorded <;> simp [h]

end Transcript

end Scriptlet

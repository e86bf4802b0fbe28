import Scriptlet.Source.Slice
import Scriptlet.Source.Blank

/-!
# Spans of source text

A span is a half-open range of byte offsets. Offsets are 32-bit words, so a range of natural
numbers has to be checked before it becomes a span; a span built directly may run backwards, and is
then empty.

* `Span.ofRange` — the checked constructor, with the reason for a refusal;
* `Span.merge`, `Span.cover` — the least span around two, or around an accumulated one;
* `Span.slice?` — the text that a span covers.
-/

namespace Scriptlet

/-- A half-open range `[start, stop)` of byte offsets into a source text. -/
structure Span where
  start : UInt32
  stop : UInt32
deriving DecidableEq, Inhabited

/-- Why a range of offsets is no span. -/
inductive RangeError where
  | inverted (start stop : Nat)
  | startTooLarge (start : Nat)
  | stopTooLarge (stop : Nat)
deriving DecidableEq

namespace RangeError

/-- `n` in base sixteen, with capital letters. -/
def hex (n : Nat) : String :=
  String.ofList ((Nat.toDigits 16 n).map Char.toUpper)

/-- The wording of each refusal. -/
def message : RangeError → String
  | inverted start stop => s!"span end {stop} lies before start {start}"
  | startTooLarge v => s!"span start {v} (0x{hex v}) exceeds u32::MAX"
  | stopTooLarge v => s!"span end {v} (0x{hex v}) exceeds u32::MAX"

end RangeError

namespace Span

/-- A span for a range of natural numbers. A range that runs backwards is refused first, then an
offset that is no 32-bit word, the start before the stop. -/
def ofRange (start stop : Nat) : Except RangeError Span :=
  if stop < start then .error (.inverted start stop)
  else if UInt32.size ≤ start then .error (.startTooLarge start)
  else if UInt32.size ≤ stop then .error (.stopTooLarge stop)
  else .ok ⟨start.toUInt32, stop.toUInt32⟩

/-- The number of bytes covered; a span that runs backwards covers none. -/
def length (s : Span) : Nat := s.stop.toNat - s.start.toNat

/-- Whether no byte is covered. -/
def isEmpty (s : Span) : Bool := s.stop ≤ s.start

/-- The least span around both. -/
def merge (a b : Span) : Span := ⟨min a.start b.start, max a.stop b.stop⟩

/-- Widens what has been covered so far, if anything, by `s`. -/
def cover : Option Span → Span → Span
  | some covered, s => covered.merge s
  | none, s => s

/-- The text under a span, if it ends on character boundaries inside the source. -/
def slice? (s : Span) (source : String) : Option String :=
  Source.slice? source s.start.toNat s.stop.toNat

/-- `start:stop`, as messages name a place. -/
def text (s : Span) : String := s!"{s.start.toNat}:{s.stop.toNat}"

/-- `start..stop`, as ranges are written. -/
def rangeText (s : Span) : String := s!"{s.start.toNat}..{s.stop.toNat}"

end Span

end Scriptlet

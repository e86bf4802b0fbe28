import Scriptlet.Proofs.Tree.Coverage
import Scriptlet.Proofs.Tree.Walks
import Scriptlet.Tree.Transcript

/-!
# What a transcript reports

A transcript takes its range from the rendering of a tree, which goes down the tree form by form. A
walk goes through the same tree by a worklist and knows nothing of forms. Both meet every node, so
that the range can be computed by the walk just as well, whatever the tree looks like.

* `Node.widen` — what one node adds to the range covered so far;
* `Transcript.foldl_record` — only the first tree counts;
* `Transcript.range_of_record` — the range of a transcript, and what later trees do to it.
-/

namespace Scriptlet

/-! ### The range of a walk -/

namespace Node

/-- The range covered so far, widened by the span of one more node. -/
def widen (covered : Option Span) (n : Node) : Option Span :=
  match n.span with
  | some span => some (Span.cover covered span)
  | none => covered

/-- To widen a range is to join a span to it, if there is one. -/
private theorem widen_eq_merge (covered : Option Span) (n : Node) :
    widen covered n = Option.merge Span.merge covered n.span := by
  rw [widen]
  cases n.span with
  | none => rw [Option.merge_none_right]
  | some span => cases covered <;> rfl

/-- **Walking a tree gives what its rendering covers.** -/
private theorem fold_widen (n : Node) :
    n.fold widen none = Span.around (n.preorder.map Node.span) := by
  rw [fold_eq_foldl, Span.around, List.foldl_map]
  -- both join the same spans in the same order
  congr 1
  funext covered m
  exact widen_eq_merge covered m

end Node

/-! ### Transcripts -/

namespace Transcript

/-- The first tree decides on the range. -/
private theorem span_record_start (source : Option String) (n : Node) :
    ((start source).record n).span = Span.around (n.preorder.map Node.span) := by
  rw [← n.coverage_render source]
  rfl

/-- **Only the first tree counts**, however many follow. -/
theorem foldl_record (t : Transcript) (n : Node) (later : List Node) :
    later.foldl record (t.record n) = t.record n := by
  induction later with
  | nil => rfl
  | cons m later ih => rw [List.foldl_cons, record_record, ih]

/-- **The range of a transcript covers every span of the tree exactly, and only the first tree
counts.** After the first tree has been recorded, with a source or without one, the range is what a
walk through the tree joins from the spans on its way: from the least start to the greatest stop of
all nodes that have a span, and no range exactly if there is no such node. The tree is reported as
located exactly if there is a range, and the two ends are those of the range. All later trees leave
the transcript as it is, and with it everything that it reports. -/
theorem range_of_record (source : Option String) (n : Node) :
    let t := (start source).record n
    t.span = n.fold Node.widen none ∧
    (∀ s, t.span = some s ↔ Span.IsLeastAround (n.preorder.map Node.span) s) ∧
    (t.span = none ↔ ∀ m ∈ n.preorder, m.span = none) ∧
    (t.isLocated ↔ ∃ s, t.span = some s) ∧
    (∀ s, t.span = some s ↔ t.first = some s.start ∧ t.last = some s.stop) ∧
    ∀ later : List Node, later.foldl record t = t := by
  intro t
  have hspan : t.span = Span.around (n.preorder.map Node.span) := span_record_start source n
  refine ⟨hspan.trans n.fold_widen.symm, fun s => ?_, ?_, Option.isSome_iff_exists, fun s => ?_,
    foldl_record (start source) n⟩
  · rw [hspan, Span.around_eq_some_iff]
  · rw [hspan, Span.around_eq_none_iff, List.forall_mem_map]
  -- a range and its two ends determine each other
  · rw [first, last]
    cases t.span with
    | none => simp
    | some r =>
      obtain ⟨rstart, rstop⟩ := r
      obtain ⟨sstart, sstop⟩ := s
      simp

end Transcript

end Scriptlet

import Scriptlet.Proofs.Tree.Subtrees
import Scriptlet.Tree.Rendering

/-!
# What a rendering covers

Whatever the form of a node, its rendering covers the span of the node and what the renderings of
its children cover, nothing else: text that belongs to no node covers nothing, and every child is
written somewhere. If spans are nested, then nothing is left to add to the span of the root.

* `Span.around` — some spans joined, which gives the least span around them (`IsLeastAround`);
* `Node.coverage_render_mk` — the coverage of a node from those of its children;
* `Node.coverage_render` — the coverage of a tree from the spans of all its nodes;
* `Node.coverage_render_of_inside` — the coverage of a tree with nested spans is that of its root.
-/

namespace Scriptlet

/-! ### Spans inside one another -/

namespace Span

/-- The span lies inside the other. -/
structure Inside (inner outer : Span) : Prop where
  start : outer.start ≤ inner.start
  stop : inner.stop ≤ outer.stop

variable {a b c outer : Span}

theorem Inside.refl (a : Span) : a.Inside a := ⟨UInt32.le_refl _, UInt32.le_refl _⟩

theorem Inside.trans (hab : a.Inside b) (hbc : b.Inside c) : a.Inside c where
  start := UInt32.le_trans hbc.start hab.start
  stop := UInt32.le_trans hab.stop hbc.stop

/-- Two spans inside one another are one span. -/
private theorem Inside.antisymm (hab : a.Inside b) (hba : b.Inside a) : a = b := by
  obtain ⟨start, stop⟩ := a
  obtain ⟨start', stop'⟩ := b
  obtain rfl : start = start' := UInt32.le_antisymm hba.start hab.start
  obtain rfl : stop = stop' := UInt32.le_antisymm hab.stop hba.stop
  rfl

/-- Each end of the least span around two spans is an end of one of them. -/
theorem Inside.merge (ha : a.Inside outer) (hb : b.Inside outer) : (a.merge b).Inside outer := by
  constructor
  · show outer.start ≤ if a.start ≤ b.start then a.start else b.start
    split
    · exact ha.start
    · exact hb.start
  · show (if a.stop ≤ b.stop then b.stop else a.stop) ≤ outer.stop
    split
    · exact hb.stop
    · exact ha.stop

/-- Both spans lie inside the one around them. -/
theorem inside_merge_left (a b : Span) : a.Inside (a.merge b) := by
  constructor
  · show (if a.start ≤ b.start then a.start else b.start) ≤ a.start
    split
    · exact UInt32.le_refl _
    · next h => exact (UInt32.le_total _ _).resolve_left h
  · show a.stop ≤ if a.stop ≤ b.stop then b.stop else a.stop
    split
    · next h => exact h
    · exact UInt32.le_refl _

theorem inside_merge_right (a b : Span) : b.Inside (a.merge b) := by
  constructor
  · show (if a.start ≤ b.start then a.start else b.start) ≤ b.start
    split
    · next h => exact h
    · exact UInt32.le_refl _
  · show b.stop ≤ if a.stop ≤ b.stop then b.stop else a.stop
    split
    · exact UInt32.le_refl _
    · next h => exact (UInt32.le_total _ _).resolve_left h

/-- A span inside another adds nothing to it. -/
private theorem Inside.merge_eq (h : a.Inside outer) : outer.merge a = outer := by
  show Span.mk (if outer.start ≤ a.start then outer.start else a.start)
    (if outer.stop ≤ a.stop then a.stop else outer.stop) = outer
  rw [if_pos h.start]
  by_cases hstop : outer.stop ≤ a.stop
  · rw [if_pos hstop, UInt32.le_antisymm h.stop hstop]
  · rw [if_neg hstop]

/-- Both sides are the least span around three. -/
instance : Std.Associative merge where
  assoc a b c := by
    have hb : b.Inside (b.merge c) := inside_merge_left b c
    have hc : c.Inside (b.merge c) := inside_merge_right b c
    have ha' : a.Inside (a.merge b) := inside_merge_left a b
    have hb' : b.Inside (a.merge b) := inside_merge_right a b
    apply Inside.antisymm
    · exact ((inside_merge_left a _).merge (hb.trans (inside_merge_right a _))).merge
        (hc.trans (inside_merge_right a _))
    · exact (ha'.trans (inside_merge_left _ c)).merge
        ((hb'.trans (inside_merge_left _ c)).merge (inside_merge_right _ c))

/-- The least span around some, if there are any. -/
def around (spans : List (Option Span)) : Option Span := spans.foldl (Option.merge merge) none

@[simp]
theorem around_nil : around [] = none := rfl

@[simp]
theorem around_cons (next : Option Span) (spans : List (Option Span)) :
    around (next :: spans) = Option.merge merge next (around spans) := by
  -- the spans are joined from the left, and may be from the right as well
  have hassoc : spans.foldl (Option.merge merge) (Option.merge merge next none) =
      Option.merge merge next (spans.foldl (Option.merge merge) none) := List.foldl_assoc
  rw [Option.merge_none_right] at hassoc
  rw [around, List.foldl_cons, Option.merge_none_left, hassoc, around]

/-- Two groups of spans are joined like two spans. -/
private theorem around_append (spans others : List (Option Span)) :
    around (spans ++ others) = Option.merge merge (around spans) (around others) := by
  induction spans with
  | nil => rw [List.nil_append, around_nil, Option.merge_none_left]
  | cons next spans ih =>
    rw [List.cons_append, around_cons, ih, around_cons]
    exact (Std.Associative.assoc next (around spans) (around others)).symm

/-- Spans may be joined group by group. -/
private theorem around_flatMap {α : Type} (xs : List α) (f : α → List (Option Span)) :
    around (xs.flatMap f) = around (xs.map fun x => around (f x)) := by
  induction xs with
  | nil => rfl
  | cons x xs ih => rw [List.flatMap_cons, around_append, ih, List.map_cons, around_cons]

/-- Only where there is no span is there none around. -/
theorem around_eq_none_iff {spans : List (Option Span)} :
    around spans = none ↔ ∀ next ∈ spans, next = none := by
  induction spans with
  | nil => simp
  | cons next spans ih =>
    rw [around_cons, List.forall_mem_cons, ← ih]
    cases next <;> cases around spans <;> simp

/-- **The least span around some**: its start is the least of their starts, and its stop the
greatest of their stops. -/
structure IsLeastAround (spans : List (Option Span)) (s : Span) : Prop where
  inside : ∀ t, some t ∈ spans → t.Inside s
  start : ∃ t, some t ∈ spans ∧ t.start = s.start
  stop : ∃ t, some t ∈ spans ∧ t.stop = s.stop

/-- Each end belongs to one of the spans, so that there is room inside any span around them. -/
private theorem IsLeastAround.inside_of {spans : List (Option Span)} (ha : IsLeastAround spans a)
    (h : ∀ t, some t ∈ spans → t.Inside outer) : a.Inside outer := by
  obtain ⟨t, ht, hstart⟩ := ha.start
  obtain ⟨u, hu, hstop⟩ := ha.stop
  exact ⟨hstart ▸ (h t ht).start, hstop ▸ (h u hu).stop⟩

/-- There is only one such span. -/
theorem IsLeastAround.unique {spans : List (Option Span)} (ha : IsLeastAround spans a)
    (hb : IsLeastAround spans b) : a = b :=
  (ha.inside_of hb.inside).antisymm (hb.inside_of ha.inside)

/-- The start of the span around two is one of theirs. -/
private theorem start_merge (a b : Span) :
    (a.merge b).start = a.start ∨ (a.merge b).start = b.start := by
  show (if a.start ≤ b.start then a.start else b.start) = a.start ∨
    (if a.start ≤ b.start then a.start else b.start) = b.start
  split
  · exact .inl rfl
  · exact .inr rfl

/-- So is its stop. -/
private theorem stop_merge (a b : Span) :
    (a.merge b).stop = a.stop ∨ (a.merge b).stop = b.stop := by
  show (if a.stop ≤ b.stop then b.stop else a.stop) = a.stop ∨
    (if a.stop ≤ b.stop then b.stop else a.stop) = b.stop
  split
  · exact .inr rfl
  · exact .inl rfl

/-- The least span around some and one more. -/
theorem IsLeastAround.merge {spans : List (Option Span)} (h : IsLeastAround spans b) (a : Span) :
    IsLeastAround (some a :: spans) (a.merge b) where
  inside t ht := by
    rcases List.mem_cons.1 ht with heq | ht
    · cases heq
      exact inside_merge_left a b
    · exact (h.inside t ht).trans (inside_merge_right a b)
  start := by
    rcases start_merge a b with hstart | hstart
    · exact ⟨a, List.mem_cons_self, hstart.symm⟩
    · obtain ⟨t, ht, heq⟩ := h.start
      exact ⟨t, List.mem_cons_of_mem _ ht, heq.trans hstart.symm⟩
  stop := by
    rcases stop_merge a b with hstop | hstop
    · exact ⟨a, List.mem_cons_self, hstop.symm⟩
    · obtain ⟨t, ht, heq⟩ := h.stop
      exact ⟨t, List.mem_cons_of_mem _ ht, heq.trans hstop.symm⟩

/-- What is joined is the least span around. -/
theorem isLeastAround_of_around {spans : List (Option Span)} {s : Span}
    (h : around spans = some s) : IsLeastAround spans s := by
  -- one span after the other, the last one first
  induction spans generalizing s with
  | nil => cases h
  | cons next spans ih =>
    rw [around_cons] at h
    cases next with
    | none =>
      rw [Option.merge_none_left] at h
      obtain ⟨hinside, hstart, hstop⟩ := ih h
      exact ⟨by simpa using hinside, by simpa using hstart, by simpa using hstop⟩
    | some a =>
      cases haround : around spans with
      | none =>
        rw [haround] at h
        cases h
        -- the others are no spans
        have hnone := around_eq_none_iff.1 haround
        refine ⟨fun t ht => ?_, ⟨s, List.mem_cons_self, rfl⟩, ⟨s, List.mem_cons_self, rfl⟩⟩
        rcases List.mem_cons.1 ht with heq | ht
        · cases heq
          exact .refl _
        · cases hnone _ ht
      | some b =>
        rw [haround] at h
        cases h
        exact (ih haround).merge a

/-- **Joining gives the least span around.** -/
theorem around_eq_some_iff {spans : List (Option Span)} {s : Span} :
    around spans = some s ↔ IsLeastAround spans s := by
  refine ⟨isLeastAround_of_around, fun h => ?_⟩
  -- the least span lies around some span, so that there is one to join
  cases haround : around spans with
  | none =>
    obtain ⟨t, ht, -⟩ := h.start
    cases around_eq_none_iff.1 haround _ ht
  | some s' => rw [(isLeastAround_of_around haround).unique h]

end Span

/-! ### Coverage of fragments -/

namespace Fragment

@[simp]
private theorem coverage_enclose (needed : Bool) (f : Fragment) :
    (f.enclose needed).coverage = f.coverage := by
  unfold enclose
  split
  · simp
  · rfl

/-- Separators cover nothing. -/
@[simp]
private theorem coverage_join (separator : String) (fs : List Fragment) :
    (join separator fs).coverage = Span.around (fs.map coverage) := by
  -- what has been joined only grows, at its end
  have hfold : ∀ (fs : List Fragment) (f : Fragment),
      (fs.foldl (fun joined g : Fragment => joined ++ separator ++ g) f).coverage =
        (fs.map coverage).foldl (Option.merge Span.merge) f.coverage := by
    intro fs
    induction fs with
    | nil => exact fun _ => rfl
    | cons g fs ih =>
      intro f
      rw [List.foldl_cons, ih, List.map_cons, List.foldl_cons, coverage_append, coverage_append,
        coverage_ofText, Option.merge_none_right]
  cases fs with
  | nil => rfl
  | cons f fs =>
    rw [join, hfold, Span.around, List.map_cons, List.foldl_cons, Option.merge_none_left]

end Fragment

/-! ### Coverage of trees -/

namespace Node

/-- **A rendering covers the span of the node and what its children cover**, whatever its form. -/
theorem coverage_render_mk (source : Option String) (kind : Kind) (children : List Node)
    (span : Option Span) :
    (render source ⟨kind, children, span⟩).coverage =
      Option.merge Span.merge span
        (Span.around (children.map fun c => (c.render source).coverage)) := by
  rw [render.eq_def, Fragment.coverage_append, Fragment.coverage_mark]
  congr 1
  -- all forms alike: between the children stands text that covers nothing
  split <;> simp [Span.around, Function.comp_def]

/-- **A rendering covers the spans of all nodes**, whatever their forms. -/
theorem coverage_render (source : Option String) (n : Node) :
    (n.render source).coverage = Span.around (n.preorder.map Node.span) := by
  induction n with
  | node kind children span ih =>
    have hchildren : children.map (fun c => (c.render source).coverage) =
        children.map fun c => Span.around (c.preorder.map Node.span) :=
      List.map_congr_left ih
    rw [coverage_render_mk, hchildren, preorder_mk, preorderAll_eq_flatMap, List.map_cons,
      Span.around_cons, List.map_flatMap, Span.around_flatMap]

/-- **The coverage of a tree with nested spans is the span of its root.** -/
theorem coverage_render_of_inside (source : Option String) {n : Node}
    (h : ∀ m ∈ n.preorder, ∀ c ∈ m.children, ∃ inner outer,
      c.span = some inner ∧ m.span = some outer ∧ inner.Inside outer)
    {span : Span} (hspan : n.span = some span) : (n.render source).coverage = some span := by
  induction n generalizing span with
  | node kind children place ih =>
    obtain rfl : place = some span := hspan
    obtain ⟨hroot, hchildren⟩ := forall_mem_preorder_mk.1 h
    have hcovered : ∀ s, some s ∈ children.map (fun c => (c.render source).coverage) →
        s.Inside span := by
      intro s hs
      obtain ⟨c, hc, hrender⟩ := List.mem_map.1 hs
      obtain ⟨inner, _, hinner, ⟨⟩, hinside⟩ := hroot c hc
      -- what the child covers is its own span
      cases hrender.symm.trans (ih c hc (hchildren c hc) hinner)
      exact hinside
    rw [coverage_render_mk]
    -- what the children cover lies inside the span of the node, and is swallowed by it
    cases haround : Span.around (children.map fun c => (c.render source).coverage) with
    | none => rfl
    | some s =>
      exact congrArg some ((Span.isLeastAround_of_around haround).inside_of hcovered).merge_eq

end Node

end Scriptlet

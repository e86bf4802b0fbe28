import Scriptlet.Proofs.Evaluation.Equality

/-!
# Comparison of values

Equality and order are two tables. Equality answers for all values and goes through arrays; the
order answers only for two strings or two numbers. Where both answer they agree: of two ordered
values exactly one is less, or they are equal. This is seen from the cases of the order, each of
which has a counterpart among the cases of equality.

* `Value.Comparable` — the values that are ordered: two strings, or two numbers that are no NaN;
* `Value.Ordered` — how two values are ordered, with `Value.order?_eq_some_iff`;
* `Value.Ordered.swap`, `Value.Ordered.looselyEqual_eq` — the order read backwards, and equality;
* `Compared` — what the five operators say of two ordered values;
* `BinaryOp.apply_comparison` — any two values.
-/

namespace Scriptlet

namespace Value

/-! ### Which values are ordered -/

/-- The value is a number of either type, and no NaN. -/
def IsNumber : Value → Prop
  | int _ => True
  | float x => x.isNaN = false
  | _ => False

/-- **Two values can be ordered** if they are both strings or both numbers. -/
def Comparable (v w : Value) : Prop :=
  (∃ s t, v = str s ∧ w = str t) ∨ v.IsNumber ∧ w.IsNumber

/-- Which values can be compared does not depend on their order. -/
theorem Comparable.symm {v w : Value} (h : v.Comparable w) : w.Comparable v := by
  rcases h with ⟨s, t, hs, ht⟩ | ⟨hv, hw⟩
  · exact .inl ⟨t, s, ht, hs⟩
  · exact .inr ⟨hw, hv⟩

/-- **How two values are ordered.** If the types are mixed, the integer is rounded. -/
inductive Ordered : Value → Value → Ordering → Prop where
  | ints (m n : Int64) : Ordered (int m) (int n) (compare m n)
  | floats {x y : Float} {o : Ordering} (eq : Number.order x y = some o) :
      Ordered (float x) (float y) o
  | rounded {n : Int64} {x : Float} {o : Ordering}
      (eq : Number.order (Number.ofInteger n) x = some o) : Ordered (int n) (float x) o
  | rounds {n : Int64} {x : Float} {o : Ordering}
      (eq : Number.order x (Number.ofInteger n) = some o) : Ordered (float x) (int n) o
  | strings (s t : String) : Ordered (str s) (str t) (compare s t)

/-- The order that the comparison operators ask for is the one of `Ordered`. -/
theorem order?_eq_some_iff {v w : Value} {o : Ordering} :
    v.order? w = some o ↔ v.Ordered w o := by
  constructor
  · intro h
    -- one case for each pair of types that has an order
    unfold order? at h
    split at h
    · cases h
      exact .ints _ _
    · exact .floats h
    · exact .rounded h
    · exact .rounds h
    · cases h
      exact .strings _ _
    · cases h
  · intro h
    cases h with
    | ints | strings => rfl
    | floats heq | rounded heq | rounds heq => exact heq

/-- **The values that are ordered** are the comparable ones. -/
private theorem exists_ordered_iff {v w : Value} : (∃ o, v.Ordered w o) ↔ v.Comparable w := by
  -- between floating-point numbers only a NaN prevents an order
  have hsome {x y : Float} :
      (∃ o, Number.order x y = some o) ↔ x.isNaN = false ∧ y.isNaN = false := by
    rw [← Option.isSome_iff_exists, ← Option.ne_none_iff_isSome, Ne, Number.order_eq_none_iff]
    simp
  constructor
  · rintro ⟨o, ⟨m, n⟩ | ⟨heq⟩ | ⟨heq⟩ | ⟨heq⟩ | ⟨s, t⟩⟩
    · exact .inr ⟨trivial, trivial⟩
    · exact .inr (hsome.1 ⟨o, heq⟩)
    · exact .inr ⟨trivial, (hsome.1 ⟨o, heq⟩).2⟩
    · exact .inr ⟨(hsome.1 ⟨o, heq⟩).1, trivial⟩
    · exact .inl ⟨s, t, rfl, rfl⟩
  -- two strings are always ordered; of two numbers an integer is converted if the other is not one
  · rintro (⟨s, t, rfl, rfl⟩ | ⟨hv, hw⟩)
    · exact ⟨_, .strings s t⟩
    · cases v with
      | int m =>
        cases w with
        | int n => exact ⟨_, .ints m n⟩
        | float y =>
          obtain ⟨o, heq⟩ := hsome.2 ⟨Number.isNaN_ofInteger m, hw⟩
          exact ⟨o, .rounded heq⟩
        | _ => exact hw.elim
      | float x =>
        cases w with
        | int n =>
          obtain ⟨o, heq⟩ := hsome.2 ⟨hv, Number.isNaN_ofInteger n⟩
          exact ⟨o, .rounds heq⟩
        | float y =>
          obtain ⟨o, heq⟩ := hsome.2 ⟨hv, hw⟩
          exact ⟨o, .floats heq⟩
        | _ => exact hw.elim
      | _ => exact hv.elim

/-- **The order read backwards.** -/
theorem Ordered.swap {v w : Value} {o : Ordering} (h : v.Ordered w o) : w.Ordered v o.swap := by
  have hback {x y : Float} {o : Ordering} (heq : Number.order x y = some o) :
      Number.order y x = some o.swap := by
    rw [Number.order_swap, heq, Option.map_some]
  cases h with
  | ints m n =>
    rw [← Std.OrientedOrd.eq_swap]
    exact .ints n m
  | floats heq => exact .floats (hback heq)
  | rounded heq => exact .rounds (hback heq)
  | rounds heq => exact .rounded (hback heq)
  | strings s t =>
    rw [← Std.OrientedOrd.eq_swap]
    exact .strings t s

/-- **Ordered values are equal** exactly if neither is less. -/
theorem Ordered.looselyEqual_eq {v w : Value} {o : Ordering} (h : v.Ordered w o) :
    v.looselyEqual w = (o == .eq) := by
  have hfloats {x y : Float} {o : Ordering} (heq : Number.order x y = some o) :
      (x == y) = (o == .eq) := by
    rw [Number.beq_eq_order, heq]
    rfl
  cases h with
  | ints m n =>
    show (m == n) = (compare m n == .eq)
    rw [Bool.eq_iff_iff, beq_iff_eq, beq_iff_eq, Std.compare_eq_iff_eq]
  | floats heq => exact hfloats heq
  | rounded heq => exact hfloats heq
  | @rounds n x _ heq =>
    -- equality converts the integer on whichever side it is, and compares in a fixed direction
    show (Number.ofInteger n == x) = _
    rw [BEq.comm]
    exact hfloats heq
  | strings s t =>
    show (s == t) = (compare s t == .eq)
    rw [Bool.eq_iff_iff, beq_iff_eq, beq_iff_eq, Std.compare_eq_iff_eq]

private theorem Ordered.compareBy_eq {v w : Value} {o : Ordering} (h : v.Ordered w o)
    (op : BinaryOp) (holds : Ordering → Bool) : compareBy op holds v w = .ok (.bool (holds o)) := by
  rw [compareBy, order?_eq_some_iff.2 h]

/-- What cannot be compared is refused by every comparison operator, with its types in the given
order. -/
private theorem compareBy_of_not_comparable {v w : Value} (h : ¬ v.Comparable w) (op : BinaryOp)
    (holds : Ordering → Bool) :
    compareBy op holds v w = .error (.badOperands op v.type w.type) := by
  have hnone : v.order? w = none := by
    rw [Option.eq_none_iff_forall_ne_some]
    intro o ho
    exact h (exists_ordered_iff.1 ⟨o, order?_eq_some_iff.1 ho⟩)
  rw [compareBy, hnone]

end Value

/-! ### The operators -/

/-- **What the operators say of two ordered values**: the first is less, or they are equal, or it is
greater. -/
structure Compared (v w : Value) (less equal greater : Bool) : Prop where
  lt : BinaryOp.lt.apply v w = .ok (.bool less)
  eq : BinaryOp.eq.apply v w = .ok (.bool equal)
  gt : BinaryOp.gt.apply v w = .ok (.bool greater)
  le : BinaryOp.le.apply v w = .ok (.bool (less || equal))
  ge : BinaryOp.ge.apply v w = .ok (.bool (greater || equal))
  one : [less, equal, greater].count true = 1

/-- An order decides all comparison operators at once. -/
private theorem Value.Ordered.compared {v w : Value} {o : Ordering} (h : v.Ordered w o) :
    Compared v w (o == .lt) (o == .eq) (o == .gt) where
  lt := h.compareBy_eq _ _
  eq := by rw [BinaryOp.apply, h.looselyEqual_eq]
  gt := h.compareBy_eq _ _
  le := by
    rw [BinaryOp.apply, h.compareBy_eq]
    cases o <;> rfl
  ge := by
    rw [BinaryOp.apply, h.compareBy_eq]
    cases o <;> rfl
  one := by cases o <;> rfl

/-- **Comparison is coherent with equality.** Equality and its negation answer for any two values,
the same for both orders of the operands; identical values are equal, and without floating-point
numbers equal values are the same. The four other operators answer together, also with the operands
swapped, and exactly for two strings or two numbers. Then one value is less, or they are equal, or
it is greater, never two of these; the weak comparisons are the strict ones or equality, and to
swap the operands is to exchange less and greater. -/
theorem BinaryOp.apply_comparison (v w : Value) :
    (∃ equal : Bool,
      eq.apply v w = .ok (.bool equal) ∧ eq.apply w v = .ok (.bool equal) ∧
      ne.apply v w = .ok (.bool !equal) ∧ ne.apply w v = .ok (.bool !equal) ∧
      (v == w → equal = true) ∧
      (v.IsFloatFree → w.IsFloatFree → equal = (v == w) ∧ (equal = true ↔ v = w))) ∧
    (v.Comparable w → ∃ less equal greater,
      Compared v w less equal greater ∧ Compared w v greater equal less) ∧
    (¬ v.Comparable w → ∀ op ∈ [lt, le, gt, ge],
      op.apply v w = .error (.badOperands op v.type w.type) ∧
      op.apply w v = .error (.badOperands op w.type v.type)) := by
  refine ⟨⟨v.looselyEqual w, rfl, ?_, rfl, ?_, Value.looselyEqual_of_identical, ?_⟩, ?_, ?_⟩
  · rw [apply, Value.looselyEqual_comm]
  · rw [apply, Value.looselyEqual_comm]
  · intro hv hw
    -- without floating-point numbers both equalities are equality itself
    have hloose : v.looselyEqual w = true ↔ v = w := by
      rw [Value.looselyEqual_iff, Value.matches_iff_eq hv hw]
    have hidentical : (v == w) = true ↔ v = w := by
      show v.identical w = true ↔ _
      rw [Value.identical_iff, Value.matches_iff_eq hv hw]
    exact ⟨Bool.eq_iff_iff.2 (hloose.trans hidentical.symm), hloose⟩
  · intro hcomparable
    obtain ⟨o, ho⟩ := Value.exists_ordered_iff.2 hcomparable
    refine ⟨_, _, _, ho.compared, ?_⟩
    -- exchanging the operands exchanges less and greater
    have hswap := ho.swap.compared
    cases o <;> exact hswap
  · intro hnot op hop
    have hnot' : ¬ w.Comparable v := fun h => hnot h.symm
    have hrefused {v w : Value} (h : ¬ v.Comparable w) :
        op.apply v w = .error (.badOperands op v.type w.type) := by
      simp only [List.mem_cons, List.not_mem_nil, or_false] at hop
      rcases hop with rfl | rfl | rfl | rfl <;> exact Value.compareBy_of_not_comparable h _ _
    exact ⟨hrefused hnot, hrefused hnot'⟩

/-- An integer beyond 2⁵³ and the number that it is rounded to are ordered, as equal; two arrays are
not ordered, even if they are equal. -/
theorem BinaryOp.apply_comparison_rounded :
    (∃ less equal greater,
      Compared (.int 9007199254740993) (.float 9007199254740992) less equal greater ∧
      equal = true) ∧
    eq.apply (.array [.int 1]) (.array [.float 1]) = .ok (.bool true) ∧
    lt.apply (.array [.int 1]) (.array [.float 1]) = .error (.badOperands lt .array .array) := by
  have hnot : ¬ (Value.array [.int 1]).Comparable (.array [.float 1]) := by
    rintro (⟨_, _, ⟨⟩, -⟩ | ⟨⟨⟩, -⟩)
  obtain ⟨less, equal, greater, h, -⟩ :=
    (apply_comparison (.int 9007199254740993) (.float 9007199254740992)).2.1
      (.inr ⟨trivial, rfl⟩)
  have hequal : eq.apply (.int 9007199254740993) (.float 9007199254740992) = .ok (.bool true) := rfl
  cases h.eq.symm.trans hequal
  exact ⟨⟨less, true, greater, h, rfl⟩, rfl,
    ((apply_comparison _ _).2.2 hnot lt List.mem_cons_self).1⟩

end Scriptlet

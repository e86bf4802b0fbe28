import Mathlib
import Scriptlet.Number.Floating

/-!
# The order of floating-point numbers

Doubles are compared class by class: the infinities are outermost, the two zeros are one number, and
within a sign the exponent decides before the significand. All this is the order of a key, three
integers compared one after the other, which every double has that is a number. What is known about
the order of integers then holds for doubles.

* `key?` — the key, which a NaN does not have;
* `order_eq` — the order of doubles is that of their keys;
* `order_swap`, `order_eq_none_iff`, `rank?_eq_of_beq` — what follows from that;
* `isNaN_ofInteger` — integers become numbers.
-/

namespace Scriptlet.Number

open Float.Model (UnpackedFloat Format)
open Float.Model.UnpackedFloat

/-! ### Keys -/

/-- Where a number stands in the order: the class that it belongs to, and its exponent and
significand within that class. -/
def key? : UnpackedFloat → Option (Int × Int × Int)
  | .notANumber => none
  | .infinity .negative => some (-2, 0, 0)
  | .finite .negative m e _ => some (-1, -e, -m)
  | .zero _ => some (0, 0, 0)
  | .finite .positive m e _ => some (1, e, m)
  | .infinity .positive => some (2, 0, 0)

/-- The lexicographic order of keys. -/
def compareKeys (j k : Int × Int × Int) : Ordering :=
  (compare j.1 k.1).then ((compare j.2.1 k.2.1).then (compare j.2.2 k.2.2))

private theorem compareKeys_swap (j k : Int × Int × Int) :
    compareKeys k j = (compareKeys j k).swap := by
  simp only [compareKeys, Ordering.swap_then, Int.compare_swap]

private theorem compareKeys_eq_eq_iff {j k : Int × Int × Int} : compareKeys j k = .eq ↔ j = k := by
  simp only [compareKeys, Ordering.then_eq_eq, Int.compare_eq_eq, Prod.ext_iff]

/-- **Unpacked numbers are ordered by their keys.** -/
private theorem compare_eq (a b : UnpackedFloat) :
    a.compare b = (key? a).bind fun j => (key? b).map fun k => compareKeys j k := by
  have hcast (m m' : Nat) : compare (m : Int) m' = compare m m' := by
    simp only [Int.compare_eq_ite_lt, Nat.compare_eq_ite_lt, Int.ofNat_lt]
  have hneg (i i' : Int) : compare (-i) (-i') = (compare i i').swap := by
    rw [Int.compare_swap]
    simp only [Int.compare_eq_ite_lt, Int.neg_lt_neg_iff]
  -- class by class; only two finite numbers of one sign are left to their exponents
  cases a with
  | notANumber => rfl
  | infinity s =>
    cases s <;> cases b with
    | notANumber | zero => rfl
    | infinity t | finite t => cases t <;> rfl
  | zero s =>
    cases b with
    | notANumber | zero => rfl
    | infinity t | finite t => cases t <;> rfl
  | finite s m e =>
    cases b with
    | notANumber | zero => cases s <;> rfl
    | infinity t => cases s <;> cases t <;> rfl
    | finite t m' e' =>
      cases s with
      | positive =>
        cases t with
        | positive => simp [UnpackedFloat.compare, key?, compareKeys, hcast]
        | negative => rfl
      | negative =>
        -- among negative numbers the order is turned round
        cases t with
        | positive => rfl
        | negative =>
          simp [UnpackedFloat.compare, key?, compareKeys, hneg, hcast, Ordering.swap_then]

/-! ### Doubles -/

/-- The key of a double. -/
def rank? (x : Float) : Option (Int × Int × Int) := key? x.toModel.unpack

/-- Only a NaN has no place in the order. -/
private theorem rank?_eq_none_iff {x : Float} : rank? x = none ↔ x.isNaN := by
  change key? x.toModel.unpack = none ↔ x.toModel.unpack.isNaN
  cases x.toModel.unpack with
  | notANumber => simp [key?, isNaN]
  | infinity s => cases s <;> simp [key?, isNaN]
  | zero s => simp [key?, isNaN]
  | finite s m e => cases s <;> simp [key?, isNaN]

/-- **Doubles are ordered by their keys.** -/
theorem order_eq (x y : Float) :
    order x y = (rank? x).bind fun j => (rank? y).map fun k => compareKeys j k :=
  compare_eq _ _

/-- Turned round, the order of two doubles is the other way. -/
theorem order_swap (x y : Float) : order y x = (order x y).map Ordering.swap := by
  rw [order_eq, order_eq]
  cases rank? x with
  | none => cases rank? y <;> rfl
  | some j =>
    cases rank? y with
    | none => rfl
    | some k => exact congrArg some (compareKeys_swap j k)

/-- **There is no order** exactly if one of the two is not a number. -/
theorem order_eq_none_iff {x y : Float} : order x y = none ↔ x.isNaN ∨ y.isNaN := by
  rw [order_eq, ← rank?_eq_none_iff, ← rank?_eq_none_iff]
  cases rank? x <;> cases rank? y <;> simp

theorem beq_eq_order (x y : Float) : (x == y) = (order x y == some .eq) := rfl

/-- **Equal doubles** have the same key. -/
theorem rank?_eq_of_beq {x y : Float} (h : x == y) : rank? x = rank? y := by
  rw [beq_eq_order, beq_iff_eq, order_eq] at h
  cases hx : rank? x with
  | none =>
    rw [hx] at h
    cases h
  | some j =>
    cases hy : rank? y with
    | none =>
      rw [hx, hy] at h
      cases h
    | some k =>
      rw [hx, hy, Option.bind_some, Option.map_some, Option.some.injEq] at h
      rw [compareKeys_eq_eq_iff.1 h]

/-! ### Integers as doubles -/

/-- The greatest exponent is the one of the infinities and of NaNs. -/
theorem ofNat_ne_neg_one {width n : Nat} (h : n + 1 < 2 ^ width) :
    BitVec.ofNat width n ≠ -1#_ := by
  intro heq
  have hnat := congrArg BitVec.toNat heq
  rw [BitVec.neg_one_eq_allOnes, BitVec.toNat_allOnes, BitVec.toNat_ofNat,
    Nat.mod_eq_of_lt (Nat.lt_of_succ_lt h)] at hnat
  omega

/-- Packing makes a NaN of nothing else. -/
private theorem isNaN_unpack_pack {spec : Format} {a : UnpackedFloat} (h : a.isNaN = false) :
    (unpack spec (pack spec a)).isNaN = false := by
  -- a NaN would have the greatest exponent and a significand
  have hfine {s : Sign} {e : BitVec spec.exponentBits}
      {m : BitVec spec.mantissaBitsWithoutImplicit} (hem : e = -1#_ → m = 0#_) :
      (unpack spec (packComponents spec s e m)).isNaN = false := by
    unfold unpack
    simp only [unpackExponent_packComponents, unpackMantissa_packComponents]
    split
    · next he => rw [if_pos (hem he)]; rfl
    -- a number that is too large is packed as an infinity
    · split
      · split <;> rfl
      · rfl
  cases a with
  | notANumber => cases h
  | infinity s => exact hfine fun _ => rfl
  | zero s => exact hfine fun _ => rfl
  | finite s m e hm =>
    rw [pack]
    split
    · exact hfine fun _ => rfl
    · next hsmall =>
      have hone : 0 + 1 < 2 ^ spec.exponentBits := Nat.one_lt_two_pow (Nat.ne_of_gt spec.he)
      split
      · exact hfine fun he => absurd he (ofNat_ne_neg_one (Nat.lt_of_not_le hsmall))
      · exact hfine fun he => absurd he (ofNat_ne_neg_one hone)

private theorem isNaN_round (spec : Format) (s : Sign) (m : Nat) (e : Int) :
    (UnpackedFloat.round spec s m e).isNaN = false := by
  simp only [UnpackedFloat.round, roundWithAccuracy]
  split <;> rfl

/-- The double of an integer is packed once, after rounding. -/
theorem unpack_ofInteger (n : Int64) :
    (ofInteger n).toModel.unpack = unpack .binary64 (pack .binary64 (.ofInt .binary64 n.toInt)) :=
  rfl

/-- **Integers become numbers.** -/
theorem isNaN_ofInteger (n : Int64) : (ofInteger n).isNaN = false := by
  show (ofInteger n).toModel.unpack.isNaN = false
  rw [unpack_ofInteger]
  apply isNaN_unpack_pack
  -- the magnitude is rounded, unless there is none
  unfold UnpackedFloat.ofInt UnpackedFloat.normalize
  split
  · exact isNaN_round ..
  · rfl
  · exact isNaN_round ..

end Scriptlet.Number

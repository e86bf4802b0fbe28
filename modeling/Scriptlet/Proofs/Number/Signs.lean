import Scriptlet.Number.Written
import Scriptlet.Proofs.Number.Order

/-!
# Signs of numbers

Which numbers are written with a minus sign in front. Integers are if they are negative, and doubles
if they have the sign bit, but for NaN: it may have the sign bit and is never written with a sign.

The text is that of the number the bits stand for, and there all NaNs are one. So the sign is
followed from the bits through unpacking and packing, which both keep it wherever there is a number.

* `hasMinus` — the sign of an unpacked number;
* `Double.hasMinus_value` — the number that bits stand for has their sign, unless it is a NaN;
* `head?_integerText`, `Double.head?_floatText` — which numbers are written with a sign.
-/

namespace Scriptlet.Number

open Float.Model (UnpackedFloat)
open Float.Model.UnpackedFloat

/-! ### Signs and bits -/

/-- Whether the number has a minus sign. What is no number has none. -/
def hasMinus : UnpackedFloat → Bool
  | .infinity .negative | .zero .negative | .finite .negative .. => true
  | _ => false

private theorem ofBitVec_unpackSign (b : BitVec 64) :
    Sign.ofBitVec (@unpackSign .binary64 b) = bif b.msb then .negative else .positive := by
  have hsign : @unpackSign .binary64 b = BitVec.ofBool b.msb := by
    ext i hi
    obtain rfl : i = 0 := by omega
    have htop : b.getLsbD 63 = b[63] := rfl
    simp [unpackSign, BitVec.msb_eq_getLsbD_last, htop]
  rw [hsign]
  cases b.msb <;> rfl

/-- The sign bit is the sign of what is unpacked. -/
private theorem hasMinus_unpack (b : BitVec 64) :
    hasMinus (unpack .binary64 b) = (b.msb && !(unpack .binary64 b).isNaN) := by
  simp only [unpack, ofBitVec_unpackSign]
  cases b.msb <;> split_ifs <;> rfl

/-- The sign of what is packed becomes the sign bit, and a NaN is packed without it. -/
private theorem msb_pack (a : UnpackedFloat) : (pack .binary64 a).msb = hasMinus a := by
  have hmsb (s : Sign) (e : BitVec 11) (m : BitVec 52) :
      (packComponents .binary64 s e m).msb = (s == .negative) := by
    rw [packComponents, BitVec.msb_append, BitVec.msb_append]
    cases s <;> rfl
  cases a with
  | notANumber => rfl
  | infinity s =>
    rw [pack, packedInfinity, hmsb]
    cases s <;> rfl
  | zero s =>
    rw [pack, packedZero, hmsb]
    cases s <;> rfl
  | finite s m e hm =>
    -- the number may overflow or lose its leading bit, but not its sign
    have hsign : (s == .negative) = hasMinus (.finite s m e hm) := by cases s <;> rfl
    simp only [pack, packedInfinity]
    split_ifs <;> exact (hmsb ..).trans hsign

/-- **The number that bits stand for has their sign**, unless it is a NaN. -/
theorem Double.hasMinus_value (x : Double) :
    hasMinus x.value.toModel.unpack = (x.isNegative && !x.value.isNaN) := by
  change hasMinus (unpack .binary64 (pack .binary64 (unpack .binary64 x.bits.toBitVec))) =
    (x.bits.toBitVec.msb &&
      !(unpack .binary64 (pack .binary64 (unpack .binary64 x.bits.toBitVec))).isNaN)
  rw [hasMinus_unpack, msb_pack, hasMinus_unpack]
  cases hnan : (unpack .binary64 x.bits.toBitVec).isNaN with
  | false => simp
  | true =>
    -- the one NaN that all others become
    have hcanonical : unpack .binary64 x.bits.toBitVec = .notANumber := by
      generalize unpack .binary64 x.bits.toBitVec = a at hnan
      cases a <;> simp_all [isNaN]
    have hstays : (unpack .binary64 (pack .binary64 .notANumber)).isNaN = true := by decide
    simp [hcanonical, hstays]

/-! ### Signs and texts -/

private theorem minus_notMem_toDigits (n : Nat) : '-' ∉ Nat.toDigits 10 n := fun h =>
  absurd (Nat.isDigit_of_mem_toDigits (by decide) (by decide) h) (by decide)

private theorem head?_repr_ne (n : Nat) : n.repr.toList.head? ≠ some '-' := by
  intro h
  rw [Nat.toList_repr] at h
  exact minus_notMem_toDigits n (List.mem_of_head? h)

/-- **An integer is written with a minus sign exactly if it is negative.** -/
theorem head?_integerText (n : Int64) : (integerText n).toList.head? = some '-' ↔ n < 0 := by
  rw [Int64.lt_iff_toInt_lt, show (0 : Int64).toInt = 0 from rfl]
  unfold integerText
  cases n.toInt with
  | ofNat k =>
    constructor
    · intro h
      exact absurd h (head?_repr_ne k)
    · intro h
      exact absurd h (by simp)
  | negSucc k =>
    constructor
    · intro _
      exact Int.negSucc_lt_zero k
    · intro _
      show ("-" ++ (k + 1).repr).toList.head? = some '-'
      simp

/-- Positive decimals begin with a digit. -/
private theorem head?_write_ne (d : Decimal) (format : DecimalFormat) :
    (d.write format).toList.head? ≠ some '-' := by
  have hdigit := minus_notMem_toDigits d.significand
  have hne : Nat.toDigits 10 d.significand ≠ [] := Nat.toDigits_ne_nil
  obtain ⟨c, cs, hdigits⟩ := List.exists_cons_of_ne_nil hne
  rw [hdigits, List.mem_cons, not_or] at hdigit
  have hc : c ≠ '-' := fun h => hdigit.1 h.symm
  unfold Decimal.write
  rw [String.toList_ofList, hdigits]
  split
  · -- with the point in its place there is a zero in front, or the first of the digits
    unfold writePositional
    split_ifs with hpoint hlength
    · simp
    · simpa using hc
    · obtain ⟨k, hk⟩ : ∃ k, (d.exponent + (c :: cs).length).toNat = k + 1 :=
        ⟨(d.exponent + (c :: cs).length).toNat - 1, by omega⟩
      rw [hk, List.take_succ_cons]
      simpa using hc
  · simpa [writeScientific] using hc

private theorem head?_floatText (x : Float) :
    (floatText x).toList.head? = some '-' ↔ hasMinus x.toModel.unpack := by
  unfold floatText
  cases x.toModel.unpack with
  | notANumber => decide
  | infinity s => cases s <;> decide
  | zero s => cases s <;> decide
  | finite s m q _ =>
    cases s with
    | positive => simpa [signText, hasMinus] using head?_write_ne (shortest m q) .standard
    | negative => simp [signText, hasMinus]

/-- **A double is written with a minus sign exactly if it has the sign bit and is no NaN.** -/
theorem Double.head?_floatText (x : Double) :
    (floatText x.value).toList.head? = some '-' ↔ x.isNegative ∧ x.value.isNaN = false := by
  rw [Number.head?_floatText, hasMinus_value, Bool.and_eq_true, Bool.not_eq_true']

end Scriptlet.Number

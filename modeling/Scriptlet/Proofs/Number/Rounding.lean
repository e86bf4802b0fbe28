import Scriptlet.Proofs.Number.Order

/-!
# Integers that are doubles

A double has 53 significant bits. An integer that needs no more is rounded to itself: the shifts of
the conversion throw away nothing but zeros, and packing loses nothing. Its key in the order then
tells the integer, so that different integers of this kind do not become the same double.

* `IsExact` — the integer needs at most 53 significant bits;
* `round_eq_finite`, `unpack_pack_of_isFull` — the two halves of the conversion;
* `exists_rank?_ofInteger` — the key of the double tells the integer;
* `ofInteger_inj` — different exact integers become different doubles.
-/

namespace Scriptlet.Number

open Float.Model (UnpackedFloat Format totalExponent)
open Float.Model.UnpackedFloat

/-- **The integer is itself a double**: without its trailing zeros it has at most 53 bits. -/
def IsExact (n : Int64) : Prop := ∃ m k : Nat, n.toInt.natAbs = m * 2 ^ k ∧ m < 2 ^ 53

/-- All integers up to 2⁵³ are doubles. -/
theorem isExact_of_le {n : Int64} (h : n.toInt.natAbs ≤ 2 ^ 53) : IsExact n := by
  rcases Nat.lt_or_eq_of_le h with hlt | heq
  · exact ⟨n.toInt.natAbs, 0, by simp, hlt⟩
  · exact ⟨1, 53, by simpa using heq, by decide⟩

/-! ### Rounding -/

/-- The significand fills the bits that there are for it. -/
def IsFull (m : Nat) : Prop := 2 ^ 52 ≤ m ∧ m < 2 ^ 53

private theorem IsFull.pos {m : Nat} (h : IsFull m) : 0 < m :=
  Nat.lt_of_lt_of_le (by decide) h.1

/-- The leading bit of a full significand is moved up by the zeros behind it. -/
private theorem IsFull.log2_mul {m : Nat} (h : IsFull m) (k : Nat) : (m * 2 ^ k).log2 = 52 + k := by
  have hpow : 0 < 2 ^ k := Nat.two_pow_pos k
  rw [Nat.log2_eq_iff (Nat.ne_of_gt (Nat.mul_pos h.pos hpow)), Nat.add_right_comm, Nat.pow_add,
    Nat.pow_add]
  exact ⟨Nat.mul_le_mul_right _ h.1, Nat.mul_lt_mul_of_pos_right h.2 hpow⟩

/-- Zeros are shifted out without a trace. -/
private theorem shiftRight_mul (m k : Nat) :
    (⟨m * 2 ^ k, false, false⟩ : ExtendedMantissa) >>> k = ⟨m, false, false⟩ := by
  show Nat.repeat ExtendedMantissa.shiftRightOne k _ = _
  induction k generalizing m with
  | zero => rw [Nat.repeat, Nat.pow_zero, Nat.mul_one]
  | succ k ih =>
    rw [Nat.repeat, Nat.pow_succ', ← Nat.mul_assoc, ih]
    simp [ExtendedMantissa.shiftRightOne]

/-- The zeros behind a full significand are what is shifted out. -/
private theorem shiftToTargetExponent_mul {m : Nat} (h : IsFull m) (k : Nat) {e : Int}
    (he : -1074 ≤ e + k) :
    shiftToTargetExponent .binary64 (m * 2 ^ k) e .exact = (⟨m, false, false⟩, e + k) := by
  have htarget : Format.binary64.targetExponent (totalExponent (m * 2 ^ k) e) = e + k := by
    rw [totalExponent, h.log2_mul, Format.targetExponent]
    simp only [Format.mantissaBits, Format.minExponent]
    omega
  have hshift : (e + k - e).toNat = k := by omega
  rw [shiftToTargetExponent, htarget, shiftToExponent, hshift,
    ExtendedMantissa.ofMantissaAndAccuracy, shiftRight_mul]

/-- **Nothing is rounded** if only zeros are shifted out. -/
private theorem roundWithAccuracy_mul {m : Nat} (h : IsFull m) (s : Sign) (k : Nat) {e : Int}
    (he : -1074 ≤ e + k) :
    roundWithAccuracy .binary64 s (m * 2 ^ k) e .exact = .finite s m (e + k) h.pos := by
  -- after rounding the significand is full still, and is not shifted again
  have hagain := shiftToTargetExponent_mul h 0 (e := e + k) (by omega)
  rw [Nat.pow_zero, Nat.mul_one, Int.ofNat_zero, Int.add_zero] at hagain
  have hrounded : (⟨m, false, false⟩ : ExtendedMantissa).roundedMantissa = m := rfl
  simp only [roundWithAccuracy, shiftToTargetExponent_mul h k he, hrounded, hagain]
  exact dif_neg (Nat.ne_of_gt h.pos)

/-- **A magnitude is rounded to itself** if a full significand and a power of two make it up. -/
theorem round_eq_finite {a m t : Nat} (h : IsFull m) (hvalue : a * 2 ^ 52 = m * 2 ^ t) (s : Sign) :
    UnpackedFloat.round .binary64 s a 0 = .finite s m (t - 52) h.pos := by
  -- the power of two is shifted in on the left or out on the right
  have hshifted : a * 2 ^ (52 - t) = m * 2 ^ (t - 52) := by
    rcases Nat.le_total t 52 with hle | hle
    · refine Nat.eq_of_mul_eq_mul_right (Nat.two_pow_pos t) ?_
      rw [Nat.mul_assoc, ← Nat.pow_add, Nat.sub_add_cancel hle, hvalue, Nat.sub_eq_zero_of_le hle,
        Nat.pow_zero, Nat.mul_one]
    · refine Nat.eq_of_mul_eq_mul_right (Nat.two_pow_pos 52) ?_
      rw [Nat.mul_assoc m, ← Nat.pow_add, Nat.sub_add_cancel hle, ← hvalue,
        Nat.sub_eq_zero_of_le hle, Nat.pow_zero, Nat.mul_one]
  -- the leading bit of the magnitude is where the power of two has put it
  have hlog : a.log2 = t := by
    have hpos : 0 < 2 ^ t := Nat.two_pow_pos t
    have ha : a ≠ 0 := by
      rintro rfl
      exact Nat.ne_of_gt (Nat.mul_pos h.pos hpos) (hvalue.symm.trans (Nat.zero_mul _))
    rw [Nat.log2_eq_iff ha]
    constructor
    · refine Nat.le_of_mul_le_mul_right ?_ (Nat.two_pow_pos 52)
      rw [hvalue, Nat.mul_comm]
      exact Nat.mul_le_mul_right _ h.1
    · refine Nat.lt_of_mul_lt_mul_right (a := 2 ^ 52) ?_
      rw [hvalue, Nat.pow_succ, Nat.mul_assoc, Nat.mul_comm (2 ^ t)]
      exact Nat.mul_lt_mul_of_pos_right h.2 hpos
  have htarget : Format.binary64.targetExponent (totalExponent a 0) = t - 52 := by
    rw [totalExponent, hlog, Format.targetExponent]
    simp only [Format.mantissaBits, Format.minExponent]
    omega
  have hshift : (0 - ((t : Int) - 52)).toNat = 52 - t := by omega
  have hexponent : (0 : Int) - (52 - t : Nat) + (t - 52 : Nat) = t - 52 := by omega
  rw [UnpackedFloat.round, htarget, decreaseExponent, hshift, Nat.shiftLeft_eq, hshifted]
  show roundWithAccuracy .binary64 s (m * 2 ^ (t - 52)) (0 - (52 - t : Nat)) .exact = _
  rw [roundWithAccuracy_mul h s (t - 52) (by omega)]
  simp only [hexponent]

/-! ### Packing -/

/-- **Packing loses nothing** of a number with a full significand. -/
theorem unpack_pack_of_isFull {m : Nat} (h : IsFull m) (s : Sign) {e : Int} (hlow : -1074 ≤ e)
    (hhigh : e ≤ 971) :
    unpack .binary64 (pack .binary64 (.finite s m e h.pos)) = .finite s m e h.pos := by
  -- the exponent is stored with a bias, as a number of eleven bits
  obtain ⟨b, rfl⟩ : ∃ b : Nat, e = b - 1075 := ⟨(e + 1075).toNat, by omega⟩
  have hbiased : ((b : Int) - 1075 + Format.binary64.exponentBias +
      Format.binary64.mantissaBitsWithoutImplicit).toNat = b := by
    simp only [Format.exponentBias]
    omega
  have hlog : m.log2 + 1 = Format.binary64.mantissaBits := by
    have hfull := h.log2_mul 0
    rw [Nat.pow_zero, Nat.mul_one] at hfull
    rw [hfull]
    rfl
  have hb : (BitVec.ofNat 11 b).toNat = b := Nat.mod_eq_of_lt (by omega)
  -- it is not the exponent of the numbers without a leading bit
  have hzero : BitVec.ofNat 11 b ≠ 0#_ := by
    intro heq
    rw [heq] at hb
    have : b = 0 := hb.symm
    omega
  -- the leading bit is left out, and put back
  have hsignificand : (1#1 ++ BitVec.ofNat 52 m).toNat = m := by
    rw [BitVec.toNat_append, ← Nat.shiftLeft_add_eq_or_of_lt (BitVec.isLt _), BitVec.toNat_ofNat]
    obtain ⟨hge, hlt⟩ := h
    show 1 <<< 52 + m % 2 ^ 52 = m
    omega
  rw [pack]
  simp only [hbiased]
  rw [if_neg (show ¬ 2 ^ 11 ≤ b + 1 by omega), if_pos hlog, unpack]
  simp only [unpackExponent_packComponents, unpackMantissa_packComponents,
    unpackSign_packComponents, Sign.ofBitVec_toBitVec]
  rw [if_neg (ofNat_ne_neg_one (by omega)), if_neg hzero]
  simp only [hsignificand, hb]
  rfl

/-! ### Integers -/

/-- The integer that a key stands for, in units of 2⁻⁵². -/
def worth (key : Int × Int × Int) : Int :=
  key.2.2 * 2 ^ (key.1 * key.2.1 + 52).toNat

private theorem worth_positive (m t : Nat) : worth (1, t - 52, m) = m * 2 ^ t := by
  have ht : (1 * ((t : Int) - 52) + 52).toNat = t := by omega
  rw [worth, ht]

private theorem worth_negative (m t : Nat) : worth (-1, -(t - 52), -m) = -m * 2 ^ t := by
  have ht : (-1 * -((t : Int) - 52) + 52).toNat = t := by omega
  rw [worth, ht]

/-- A magnitude of at most 53 significant bits, other than zero, has a full significand. -/
private theorem exists_isFull {a p k : Nat} (ha : a ≠ 0) (hvalue : a = p * 2 ^ k)
    (hp : p < 2 ^ 53) : ∃ m t, IsFull m ∧ a * 2 ^ 52 = m * 2 ^ t := by
  have hpos : p ≠ 0 := by
    rintro rfl
    exact ha (hvalue.trans (Nat.zero_mul _))
  have hlog : p.log2 ≤ 52 := Nat.le_of_lt_succ ((Nat.log2_lt hpos).2 hp)
  have hsum : p.log2 + 1 + (52 - p.log2) = 53 := by omega
  have hsplit : 2 ^ p.log2 * 2 ^ (52 - p.log2) = 2 ^ 52 := by
    rw [← Nat.pow_add, Nat.add_sub_cancel' hlog]
  -- zeros are put behind the significand until it is full
  refine ⟨p * 2 ^ (52 - p.log2), p.log2 + k, ⟨?_, ?_⟩, ?_⟩
  · calc 2 ^ 52 = 2 ^ p.log2 * 2 ^ (52 - p.log2) := hsplit.symm
      _ ≤ p * 2 ^ (52 - p.log2) := Nat.mul_le_mul_right _ (Nat.log2_self_le hpos)
  · calc p * 2 ^ (52 - p.log2) < 2 ^ (p.log2 + 1) * 2 ^ (52 - p.log2) :=
          Nat.mul_lt_mul_of_pos_right Nat.lt_log2_self (Nat.two_pow_pos _)
      _ = 2 ^ 53 := by rw [← Nat.pow_add, hsum]
  · calc a * 2 ^ 52 = p * 2 ^ k * (2 ^ p.log2 * 2 ^ (52 - p.log2)) := by rw [hsplit, hvalue]
      _ = p * 2 ^ (52 - p.log2) * 2 ^ (p.log2 + k) := by
        rw [Nat.pow_add, Nat.mul_comm (2 ^ p.log2) (2 ^ k), Nat.mul_comm (2 ^ p.log2)]
        simp only [Nat.mul_assoc, Nat.mul_left_comm]

/-- **A magnitude becomes itself** if it has at most 53 significant bits. -/
private theorem unpack_pack_round {a p k : Nat} (ha : a ≠ 0) (hfits : a ≤ 2 ^ 63)
    (hvalue : a = p * 2 ^ k) (hp : p < 2 ^ 53) (s : Sign) :
    ∃ (m t : Nat) (hm : 0 < m),
      unpack .binary64 (pack .binary64 (UnpackedFloat.round .binary64 s a 0)) =
        .finite s m (t - 52) hm ∧ (a * 2 ^ 52 : Int) = m * 2 ^ t := by
  obtain ⟨m, t, hfull, hvalue⟩ := exists_isFull ha hvalue hp
  -- the magnitudes of 64-bit integers are far from the greatest double
  have ht : t ≤ 63 := by
    rw [← Nat.pow_le_pow_iff_right (Nat.lt_succ_self 1)]
    refine Nat.le_of_mul_le_mul_left ?_ (Nat.two_pow_pos 52)
    calc 2 ^ 52 * 2 ^ t ≤ m * 2 ^ t := Nat.mul_le_mul_right _ hfull.1
      _ = a * 2 ^ 52 := hvalue.symm
      _ ≤ 2 ^ 52 * 2 ^ 63 := by omega
  refine ⟨m, t, hfull.pos, ?_, by exact_mod_cast hvalue⟩
  rw [round_eq_finite hfull hvalue]
  exact unpack_pack_of_isFull hfull s (by omega) (by omega)

/-- **The key of a double tells the integer** that has become it, if that is exact. -/
theorem exists_rank?_ofInteger {n : Int64} (h : IsExact n) :
    ∃ key, rank? (ofInteger n) = some key ∧ worth key = n.toInt * 2 ^ 52 := by
  rw [rank?, unpack_ofInteger]
  obtain ⟨p, k, hvalue, hp⟩ := h
  have hleast : -2 ^ 63 ≤ n.toInt := n.minValue_le_toInt
  have hgreatest : n.toInt ≤ 2 ^ 63 - 1 := n.toInt_le
  unfold UnpackedFloat.ofInt UnpackedFloat.normalize
  -- the sign of the integer becomes that of the double
  split
  · next hneg =>
    have hneg : n.toInt < 0 := Int.compare_eq_lt.1 hneg
    obtain ⟨a, ha⟩ : ∃ a : Nat, n.toInt = -a := ⟨n.toInt.natAbs, by omega⟩
    rw [ha, Int.natAbs_neg, Int.natAbs_natCast] at hvalue
    obtain ⟨m, t, hm, hunpack, hvalue⟩ :=
      unpack_pack_round (by omega) (by omega) hvalue hp .negative
    rw [ha, Int.neg_neg, Int.toNat_natCast]
    refine ⟨_, congrArg key? hunpack, ?_⟩
    rw [worth_negative, Int.neg_mul, Int.neg_mul, hvalue]
  · next hzero =>
    rw [Int.compare_eq_eq.1 hzero]
    exact ⟨(0, 0, 0), rfl, rfl⟩
  · next hpos =>
    have hpos : 0 < n.toInt := Int.compare_eq_gt.1 hpos
    obtain ⟨a, ha⟩ : ∃ a : Nat, n.toInt = a := ⟨n.toInt.natAbs, by omega⟩
    rw [ha, Int.natAbs_natCast] at hvalue
    obtain ⟨m, t, hm, hunpack, hvalue⟩ :=
      unpack_pack_round (by omega) (by omega) hvalue hp .positive
    rw [ha, Int.toNat_natCast]
    refine ⟨_, congrArg key? hunpack, ?_⟩
    rw [worth_positive, hvalue]

/-- **Different integers become different doubles** if they are exact. -/
theorem ofInteger_inj {m n : Int64} (hm : IsExact m) (hn : IsExact n)
    (h : ofInteger m == ofInteger n) : m = n := by
  obtain ⟨key, hkey, hworth⟩ := exists_rank?_ofInteger hm
  obtain ⟨key', hkey', hworth'⟩ := exists_rank?_ofInteger hn
  rw [rank?_eq_of_beq h, hkey', Option.some.injEq] at hkey
  subst hkey
  exact Int64.toInt_inj.1 (Int.eq_of_mul_eq_mul_right (by decide) (hworth.symm.trans hworth'))

end Scriptlet.Number

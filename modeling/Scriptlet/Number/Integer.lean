/-!
# Checked 64-bit integers

Integer arithmetic is exact or refused: each operation computes in unbounded integers and keeps the
result only if it fits into 64 bits. Division truncates toward zero. A remainder counts as
overflowing when its quotient does, which happens only for the least integer by minus one.

* `fit?_eq_some_iff` — a kept result is the exact one.
-/

namespace Scriptlet.Number

/-- The 64-bit integer with the value `n`, if there is one. -/
def fit? (n : Int) : Option Int64 :=
  if Int64.minValue.toInt ≤ n ∧ n ≤ Int64.maxValue.toInt then some (Int64.ofInt n) else none

/-- **Nothing is wrapped.** -/
theorem fit?_eq_some_iff {n : Int} {k : Int64} : fit? n = some k ↔ k.toInt = n := by
  constructor
  · intro h
    rw [fit?] at h
    split at h
    · next hn =>
      cases h
      exact Int64.toInt_ofInt_of_le hn.1 (Int.lt_of_le_sub_one hn.2)
    · cases h
  · rintro rfl
    rw [fit?, if_pos ⟨k.minValue_le_toInt, k.toInt_le⟩, Int64.ofInt_toInt]

/-- The exact sum, if it fits. -/
def add? (a b : Int64) : Option Int64 := fit? (a.toInt + b.toInt)

/-- The exact difference, if it fits. -/
def sub? (a b : Int64) : Option Int64 := fit? (a.toInt - b.toInt)

/-- The exact product, if it fits. -/
def mul? (a b : Int64) : Option Int64 := fit? (a.toInt * b.toInt)

/-- The quotient, truncated toward zero; meant for a divisor other than zero. -/
def quot? (a b : Int64) : Option Int64 := fit? (a.toInt.tdiv b.toInt)

/-- The remainder of the truncated quotient, with the sign of the dividend. -/
def rem? (a b : Int64) : Option Int64 :=
  (quot? a b).bind fun _ => fit? (a.toInt.tmod b.toInt)

/-- The exact negation, if it fits. -/
def neg? (a : Int64) : Option Int64 := fit? (-a.toInt)

end Scriptlet.Number

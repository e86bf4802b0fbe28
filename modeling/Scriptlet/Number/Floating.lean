/-!
# Floating-point arithmetic

The operations on doubles that scripts need beyond the four basic ones, each by its IEEE meaning on
unpacked numbers `± m · 2 ^ e`.

* `ofInteger` — the double nearest to an integer, ties to even;
* `order` — the partial order, undefined exactly when a NaN takes part;
* `remainder` — what is left of a truncated division, computed exactly.

Arithmetic has a single NaN. A double that is stored may be one of many, with or without the sign
bit, and is therefore kept as its bits.

* `Double` — a stored double, with `Double.isNegative` for its sign bit.
-/

namespace Scriptlet.Number

open Float.Model (UnpackedFloat)
open Float.Model.UnpackedFloat (Sign)

/-- A double as it is stored. -/
structure Double where
  bits : UInt64
deriving Inhabited

namespace Double

/-- The number that arithmetic is done with. -/
def value (x : Double) : Float := .ofBits x.bits

/-- Whether the sign bit is set. Negative zero has it, and so may a NaN. -/
def isNegative (x : Double) : Bool := x.bits.toBitVec.msb

instance : Coe Float Double := ⟨fun x => ⟨x.toBits⟩⟩

/-- Equality of numbers: a NaN differs from itself, and the two zeros are equal. -/
instance : BEq Double := ⟨fun x y => x.value == y.value⟩

end Double

/-- The double nearest to `n`; of two equally near ones the one with an even significand. -/
def ofInteger (n : Int64) : Float := .ofModel (.ofInt64 n)

/-- How two doubles compare, `none` if one of them is not a number. The two zeros are equal. -/
def order (x y : Float) : Option Ordering := x.toModel.compare y.toModel

/-- The remainder of `± m₁ · 2 ^ e₁` by `m₂ · 2 ^ e₂`, with the sign of the dividend. Both are whole
multiples of the smaller unit, so the division is one of natural numbers. -/
def finiteRemainder (s : Sign) (m₁ : Nat) (e₁ : Int) (m₂ : Nat) (e₂ : Int) : UnpackedFloat :=
  let e := min e₁ e₂
  let r := (m₁ <<< (e₁ - e).toNat) % (m₂ <<< (e₂ - e).toNat)
  match s with
  | .positive => .normalize .binary64 r e .positive
  | .negative => .normalize .binary64 (-r) e .negative

/-- What division of `x` by `y`, truncated to a whole quotient, leaves over. An infinite dividend or
a zero divisor leaves no number; an infinite divisor leaves the dividend. -/
def remainder (x y : Float) : Float :=
  match x.toModel.unpack, y.toModel.unpack with
  | .finite s m₁ e₁ _, .finite _ m₂ e₂ _ => .ofModel (.pack (finiteRemainder s m₁ e₁ m₂ e₂))
  | .finite .., .infinity _ | .zero _, .finite .. | .zero _, .infinity _ => x
  | _, _ => .ofModel (.pack .notANumber)

end Scriptlet.Number

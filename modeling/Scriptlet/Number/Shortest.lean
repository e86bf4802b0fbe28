/-!
# The shortest decimal of a binary number

A positive double is `m · 2 ^ q`, and every real number closer to it than to its neighbours reads
back as the same double. Among the decimals in that interval the shortest one is written, and of
several equally short ones the nearest.

The search goes over decimal grids, the multiples of `10 ^ i`, from coarse to fine. If any point of
a grid lies in the interval, so does one of the two points next to the number itself, because the
interval contains the number. So two candidates per grid decide, and the first grid with a hit has
the fewest digits. Everything is compared in exact natural numbers.
-/

namespace Scriptlet.Number

/-- The decimal `significand · 10 ^ exponent`. -/
structure Decimal where
  significand : Nat
  exponent : Int
deriving DecidableEq, Inhabited

/-- The reals that round to one double, counted in units of `2 ^ exponent`: from `low` to `high`
around `value`, the two ends included when `closed`. -/
structure RoundingInterval where
  low : Nat
  value : Nat
  high : Nat
  exponent : Int
  closed : Bool

/-- The reals that round to `m · 2 ^ q`, in quarters of the last place. Half a unit reaches up and
down, except below a power of two, where the neighbour is twice as near. A tie goes to the even
significand, so an even one owns both ends. -/
def RoundingInterval.of (m : Nat) (q : Int) : RoundingInterval where
  low := if m = 1 <<< 52 ∧ -1074 < q then 4 * m - 1 else 4 * m - 2
  value := 4 * m
  high := 4 * m + 2
  exponent := q - 2
  closed := m % 2 = 0

/-- The multiple of `10 ^ i` that is in the interval and nearest to its value, if there is one. Of
two equally near ones the larger is taken. -/
def RoundingInterval.nearestOnGrid (r : RoundingInterval) (i : Int) : Option Nat :=
  let grid := Nat.pow 10 i.toNat <<< (-r.exponent).toNat
  let unit := Nat.pow 10 (-i).toNat <<< r.exponent.toNat
  let value := r.value * unit
  -- the value lies between the grid points `below` and `above`
  let n := value / grid
  let below := n * grid
  let above := below + grid
  let reachesBelow := r.low * unit < below || (r.closed && r.low * unit = below)
  let reachesAbove := above < r.high * unit || (r.closed && above = r.high * unit)
  if reachesBelow && (!reachesAbove || value - below < above - value) then some n
  else if reachesAbove then some (n + 1)
  else none

/-- A power of ten well above `m · 2 ^ q`; the decimal logarithm of two is just below 0.30103. -/
def gridAbove (m : Nat) (q : Int) : Int :=
  (m.log2 + q + 1) * 30103 / 100000 + 2

/-- The shortest decimal that reads back as the double `m · 2 ^ q`. Seventeen digits always tell two
doubles apart, so a few more grids than that are enough. -/
def shortest (m : Nat) (q : Int) : Decimal :=
  let interval := RoundingInterval.of m q
  let hit := (List.range 21).findSome? fun (k : Nat) =>
    let i := gridAbove m q - k
    (interval.nearestOnGrid i).map fun n => Decimal.mk n i
  hit.getD default

end Scriptlet.Number

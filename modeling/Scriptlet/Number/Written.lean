import Scriptlet.Number.Shortest

/-!
# Written numbers

How floating-point numbers are written: the shortest digits that read back, positionally when the
leading digit stands between the fourth place after the point and the sixteenth before it, with an
exponent otherwise. A number without a fractional part keeps a zero after the point, so that it
never reads as an integer.
-/

namespace Scriptlet.Number

open Float.Model (UnpackedFloat)
open Float.Model.UnpackedFloat (Sign)

/-- The decisions of a decimal format that the digits alone leave open. -/
structure DecimalFormat where
  /-- The lowest power of ten of a leading digit that is written positionally. -/
  positionalFrom : Int
  /-- The power of ten at which writing with an exponent begins. -/
  positionalBelow : Int
  infinity : String
  notANumber : String

/-- Positional from `0.0001` to below ten quadrillion. -/
def DecimalFormat.standard : DecimalFormat := ⟨-4, 16, "inf", "NaN"⟩

/-- `digits` with the point after the first `point` of them, filled up with zeros on either side;
at least one digit stands on each side of the point. -/
def writePositional (digits : List Char) (point : Int) : List Char :=
  if point ≤ 0 then
    '0' :: '.' :: (List.replicate (-point).toNat '0' ++ digits)
  else if digits.length ≤ point.toNat then
    digits ++ List.replicate (point.toNat - digits.length) '0' ++ ['.', '0']
  else
    digits.take point.toNat ++ '.' :: digits.drop point.toNat

/-- `digits` with the point after the first, if others follow, and the power of ten. -/
def writeScientific (digits : List Char) (power : Int) : List Char :=
  let point := if digits.length ≤ 1 then [] else ['.']
  digits.take 1 ++ point ++ digits.drop 1 ++ 'e' :: (toString power).toList

/-- A positive decimal in the given format. -/
def Decimal.write (d : Decimal) (format : DecimalFormat) : String :=
  let digits := Nat.toDigits 10 d.significand
  let point := d.exponent + digits.length
  let power := point - 1
  String.ofList <|
    if format.positionalFrom ≤ power ∧ power < format.positionalBelow then
      writePositional digits point
    else
      writeScientific digits power

/-- The minus sign of a negative number. -/
def signText : Sign → String
  | .positive => ""
  | .negative => "-"

/-- A floating-point number in the standard format. -/
def floatText (x : Float) : String :=
  match x.toModel.unpack with
  | .notANumber => DecimalFormat.standard.notANumber
  | .infinity s => signText s ++ DecimalFormat.standard.infinity
  | .zero s => signText s ++ "0.0"
  | .finite s m q _ => signText s ++ (shortest m q).write .standard

/-- A 64-bit integer in decimal. -/
def integerText (n : Int64) : String := toString n.toInt

end Scriptlet.Number

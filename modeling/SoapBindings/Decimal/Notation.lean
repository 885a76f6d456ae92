import SoapBindings.Decimal.Shortest
-- Written forms of floating point numbers. The digits are the shortest that read back. A format
-- says which numbers are written in positional notation, the others have an exponent, and which
-- digits are taken if two numerals are equally short and near.

namespace SoapBindings.Decimal

def digits (d : Decimal) : List Char :=
  Nat.toDigits 10 d.significand

-- The exponent of the first digit.
def leadingExponent (d : Decimal) : Int :=
  d.digits.length + d.exponent - 1

-- There is always a digit on each side of the point.
def positional (d : Decimal) : List Char :=
  let ds := d.digits
  let places := ds.length + d.exponent
  if 0 < d.exponent then
    ds ++ List.replicate d.exponent.toNat '0' ++ ['.', '0']
  else if 0 < places then
    let (whole, fraction) := ds.splitAt places.toNat
    whole ++ '.' :: (if fraction.isEmpty then ['0'] else fraction)
  else
    '0' :: '.' :: List.replicate (-places).toNat '0' ++ ds

def scientific (d : Decimal) : List Char :=
  let e := d.leadingExponent
  let exponent := 'e' :: (if e < 0 then '-' else '+') :: Nat.toDigits 10 e.natAbs
  match d.digits with
  | []           => exponent
  | [first]      => first :: exponent
  | first :: ds  => first :: '.' :: ds ++ exponent

-- The first-digit exponents for which a format keeps to positional notation, and its rule for ties.
structure Layout where
  isPositional : Int → Bool
  tie          : TieRule

def render (layout : Layout) (x : Float) : String :=
  if x.isNaN then "NaN"
  else
    let magnitude :=
      if x.isInf then ['i', 'n', 'f']
      else
        let d := shortest layout.tie (Binary.ofBits x.abs.toBits)
        if layout.isPositional d.leadingExponent then d.positional else d.scientific
    .ofList (if x.toBits ≥ 0x8000000000000000 then '-' :: magnitude else magnitude)

end SoapBindings.Decimal

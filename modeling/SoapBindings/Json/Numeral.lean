import SoapBindings.Decimal.Notation
import SoapBindings.Mismatch
-- JSON numerals: how they are scanned, and which number each one stands for.

namespace SoapBindings.Json

-- A numeral as it is written, in decimal digits. An exponent has a sign and digits.
structure Numeral where
  negative : Bool
  whole    : List Char
  fraction : List Char := []
  exponent : Option (Bool × List Char) := none
  deriving DecidableEq, Repr

namespace Numeral

-- How far a numeral has been scanned.
inductive Stage where
  | sign
  | zero
  | whole
  | point
  | fraction
  | exponentMark
  | exponentSign
  | exponent
  deriving DecidableEq, Repr

-- A numeral may end here.
def Stage.isComplete : Stage → Bool
  | zero | whole | fraction | exponent         => true
  | sign | point | exponentMark | exponentSign => false

inductive Progress where
  | more (stage : Stage) (numeral : Numeral)
  | finished
  | malformed

def isDigit (c : Char) : Bool :=
  '0' ≤ c && c ≤ '9'

def isExponentMark (c : Char) : Bool :=
  c = 'e' || c = 'E'

-- The first character of a numeral, which is a sign or a digit.
def begin? (c : Char) : Option (Stage × Numeral) :=
  if c = '-' then some (.sign, { negative := true, whole := [] })
  else if c = '0' then some (.zero, { negative := false, whole := [c] })
  else if isDigit c then some (.whole, { negative := false, whole := [c] })
  else none

def addWhole (n : Numeral) (c : Char) : Numeral :=
  { n with whole := n.whole ++ [c] }

def addFraction (n : Numeral) (c : Char) : Numeral :=
  { n with fraction := n.fraction ++ [c] }

def addExponent (n : Numeral) (c : Char) : Numeral :=
  { n with exponent := n.exponent.map fun (negative, ds) => (negative, ds ++ [c]) }

def setExponent (n : Numeral) (negative : Bool) : Numeral :=
  { n with exponent := some (negative, []) }

-- No digit follows a leading zero, and a point and an exponent each want a digit.
def step (n : Numeral) (stage : Stage) (c : Char) : Progress :=
  match stage with
  | .sign =>
    if c = '0' then .more .zero (n.addWhole c)
    else if isDigit c then .more .whole (n.addWhole c)
    else .malformed
  | .zero =>
    if isDigit c then .malformed else tail c
  | .whole =>
    if isDigit c then .more .whole (n.addWhole c) else tail c
  | .point =>
    if isDigit c then .more .fraction (n.addFraction c) else .malformed
  | .fraction =>
    if isDigit c then .more .fraction (n.addFraction c)
    else if isExponentMark c then .more .exponentMark (n.setExponent false)
    else .finished
  | .exponentMark =>
    if c = '-' then .more .exponentSign (n.setExponent true)
    else if c = '+' then .more .exponentSign n
    else if isDigit c then .more .exponent (n.addExponent c)
    else .malformed
  | .exponentSign =>
    if isDigit c then .more .exponent (n.addExponent c) else .malformed
  | .exponent =>
    if isDigit c then .more .exponent (n.addExponent c) else .finished
where
  tail (c : Char) : Progress :=
    if c = '.' then .more .point n
    else if isExponentMark c then .more .exponentMark (n.setExponent false)
    else .finished

def isInteger (n : Numeral) : Bool :=
  n.fraction.isEmpty && n.exponent.isNone

def valueOf (ds : List Char) : Nat :=
  ds.foldl (fun v c => 10 * v + (c.toNat - '0'.toNat)) 0

-- The exponents that are told apart. A greater one overflows or vanishes whatever its sign.
def exponentLimit : Nat :=
  Nat.pow 2 31

-- The significand takes digits for as long as it fits into 64 bits. A digit of the whole part that
-- does not fit counts as a power of ten, and a digit of the fraction is dropped.
structure Scaled where
  significand : Nat
  exponent    : Int
  full        : Bool := false

namespace Scaled

def accepts (s : Scaled) (c : Char) : Bool :=
  !s.full && 10 * s.significand + (c.toNat - '0'.toNat) < Nat.pow 2 64

def push (s : Scaled) (c : Char) : Nat :=
  10 * s.significand + (c.toNat - '0'.toNat)

def addWhole (s : Scaled) (c : Char) : Scaled :=
  if s.accepts c then { s with significand := s.push c }
  else { s with exponent := s.exponent + 1, full := true }

def addFraction (s : Scaled) (c : Char) : Scaled :=
  if s.accepts c then { s with significand := s.push c, exponent := s.exponent - 1 }
  else { s with full := true }

end Scaled

def scaled (n : Numeral) : Scaled :=
  let whole := n.whole.foldl Scaled.addWhole { significand := 0, exponent := 0 }
  n.fraction.foldl Scaled.addFraction { whole with full := false }

-- A power of ten is applied in one step, or in steps of 308 places where that is not enough. Each
-- step rounds. There is no value where the result is beyond all finite numbers.
def scale : Nat → Float → Int → Option Float
  | 0,     x, _ => some x
  | n + 1, x, e =>
    if e.natAbs ≤ 308 then
      if 0 ≤ e then finite (x * power e.natAbs) else some (x / power e.natAbs)
    else if x == 0 then some x
    else if 0 ≤ e then none
    else scale n (x / power 308) (e + 308)
where
  power (e : Nat) : Float :=
    Float.ofScientific 1 false e
  finite (x : Float) : Option Float :=
    if x.isInf then none else some x

-- The number that a numeral stands for among the floating point numbers.
def toFloat? (n : Numeral) : Option Float := do
  let s := n.scaled
  let magnitude ← match n.exponent with
    | none => rescale s.significand s.exponent
    | some (negative, ds) =>
      let e := valueOf ds
      if exponentLimit ≤ e then
        if s.significand = 0 || negative then some 0 else none
      else rescale s.significand (s.exponent + if negative then -Int.ofNat e else Int.ofNat e)
  return if n.negative then -magnitude else magnitude
where
  rescale (significand : Nat) (e : Int) : Option Float :=
    scale (e.natAbs / 308 + 2) (UInt64.ofNat significand).toFloat e

def layout : Decimal.Layout where
  isPositional e := -5 ≤ e && e < 16
  tie            := .toEven

-- Whole numerals are integers if they fit into 64 bits, negative ones with a sign bit. A negative
-- zero is no integer. A numeral that overflows stands for nothing.
def found? (n : Numeral) : Option Found :=
  let magnitude := valueOf n.whole
  if n.isInteger && !n.negative && magnitude < Nat.pow 2 64 then some (.integer magnitude)
  else if n.isInteger && n.negative && 0 < magnitude && magnitude ≤ Nat.pow 2 63 then
    some (.integer (-magnitude))
  else n.toFloat?.map fun x => .float (Decimal.render layout x)

end Numeral
end SoapBindings.Json

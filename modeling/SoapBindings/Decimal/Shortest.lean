-- The shortest decimal numeral of a binary floating point number: the fewest digits that read back
-- as the number, and of those the nearest to it. Where two are equally near, a rule chooses.
-- Everything here is exact arithmetic on naturals.

namespace SoapBindings

-- The number `significand * 10 ^ exponent`.
structure Decimal where
  significand : Nat
  exponent    : Int
  deriving DecidableEq, Repr

-- Which of two whole numbers stands for the point half way between them.
inductive TieRule where
  | toEven
  | upward
  deriving DecidableEq, Repr

def TieRule.takesLower (below : Nat) : TieRule → Bool
  | toEven => below % 2 = 0
  | upward => false

-- The number `significand * 2 ^ exponent`. The numbers that round to it reach half way to its two
-- neighbours, and the neighbour below is closer where the exponent changes.
structure Binary where
  significand : Nat
  exponent    : Int
  closeBelow  : Bool
  deriving DecidableEq, Repr

namespace Binary

def ofBits (bits : UInt64) : Binary :=
  let unit := Nat.pow 2 52
  let fraction := bits.toNat % unit
  let biased := bits.toNat / unit % Nat.pow 2 11
  if biased = 0 then {
    significand := fraction
    exponent    := -1074
    closeBelow  := false
  } else {
    significand := fraction + unit
    exponent    := Int.ofNat biased - 1075
    closeBelow  := fraction = 0 && biased > 1
  }

-- The number and the ends of its interval over one denominator.
structure Interval where
  low         : Nat
  value       : Nat
  high        : Nat
  denominator : Nat
  closed      : Bool

def interval (b : Binary) : Interval :=
  let scale := Nat.pow 2 (b.exponent - 2).toNat
  {
    low         := (4 * b.significand - if b.closeBelow then 1 else 2) * scale
    value       := 4 * b.significand * scale
    high        := (4 * b.significand + 2) * scale
    denominator := Nat.pow 2 (2 - b.exponent).toNat
    closed      := b.significand % 2 = 0
  }

end Binary

namespace Binary.Interval

-- The interval with ten to the `k` as its unit.
def rescale (i : Interval) (k : Int) : Interval :=
  let up := Nat.pow 10 (-k).toNat
  { i with
    low         := i.low * up
    value       := i.value * up
    high        := i.high * up
    denominator := i.denominator * Nat.pow 10 k.toNat }

def holds (i : Interval) (n : Nat) : Bool :=
  let point := n * i.denominator
  if i.closed then i.low ≤ point && point ≤ i.high
  else i.low < point && point < i.high

-- The nearest whole number in the interval. If the interval holds any whole number, then it holds
-- one of the two about its value.
def nearest? (i : Interval) (tie : TieRule) : Option Nat :=
  let below := i.value / i.denominator
  let above := below + 1
  let down := i.value - below * i.denominator
  let up := above * i.denominator - i.value
  match i.holds below, i.holds above with
  | true,  true  => some (if down < up || (down = up && tie.takesLower below) then below else above)
  | true,  false => some below
  | false, true  => some above
  | false, false => none

-- The exponent of the first digit of a positive value, found by steps of one place from above.
def leadingExponent (i : Interval) : Int :=
  go 650 308
where
  go : Nat → Int → Int
    | 0,     e => e
    | n + 1, e =>
      let r := i.rescale e
      if r.denominator ≤ r.value then e else go n (e - 1)

end Binary.Interval

namespace Decimal

def strip : Nat → Decimal → Decimal
  | 0,     d => d
  | n + 1, d =>
    if d.significand ≠ 0 ∧ d.significand % 10 = 0 then strip n ⟨d.significand / 10, d.exponent + 1⟩
    else d

-- Grids of more and more digits, until one has a point in the interval. Seventeen digits suffice.
def shortest (tie : TieRule) (b : Binary) : Decimal :=
  if b.significand = 0 then ⟨0, 0⟩
  else
    let i := b.interval
    strip 20 (go i i.leadingExponent 17)
where
  go (i : Binary.Interval) (k : Int) : Nat → Decimal
    | 0     => ⟨(i.rescale k).value / (i.rescale k).denominator, k⟩
    | n + 1 =>
      match (i.rescale k).nearest? tie with
      | some d => ⟨d, k⟩
      | none   => go i (k - 1) n

end Decimal
end SoapBindings

-- What a TOML document says: a table of values, with the entries of each table in the order of the
-- document. Dates and times are values too. Every part of a date or a time is in its range, so what
-- is here can be written down again.

namespace SoapBindings.Toml

structure Date where
  year  : Nat
  month : Nat
  day   : Nat
  deriving DecidableEq, Repr

structure Time where
  hour       : Nat
  minute     : Nat
  second     : Nat
  nanosecond : Nat
  deriving DecidableEq, Repr

-- The distance from universal time.
inductive Offset where
  | utc
  | minutes (m : Int)
  deriving DecidableEq, Repr

inductive DateTime where
  | date (d : Date)
  | time (t : Time)
  | dateTime (d : Date) (t : Time) (offset : Option Offset)
  deriving DecidableEq, Repr

namespace Date

def isLeap (year : Nat) : Bool :=
  year % 4 = 0 && (year % 100 ≠ 0 || year % 400 = 0)

def daysIn (year : Nat) : Nat → Nat
  | 2               => if isLeap year then 29 else 28
  | 4 | 6 | 9 | 11  => 30
  | _               => 31

def isValid (d : Date) : Bool :=
  1 ≤ d.month && d.month ≤ 12 && 1 ≤ d.day && d.day ≤ daysIn d.year d.month

end Date

-- A minute may have a leap second.
def Time.isValid (t : Time) : Bool :=
  t.hour ≤ 23 && t.minute ≤ 59 && t.second ≤ 60

-- A number in decimal digits with zeros in front, if it is short.
def padded (width n : Nat) : List Char :=
  let ds := Nat.toDigits 10 n
  List.replicate (width - ds.length) '0' ++ ds

namespace DateTime

def dateText (d : Date) : List Char :=
  padded 4 d.year ++ '-' :: padded 2 d.month ++ '-' :: padded 2 d.day

-- The fraction of a second has no zeros at its end.
def timeText (t : Time) : List Char :=
  let fraction := ((padded 9 t.nanosecond).reverse.dropWhile (· = '0')).reverse
  padded 2 t.hour ++ ':' :: padded 2 t.minute ++ ':' :: padded 2 t.second ++
    if fraction.isEmpty then [] else '.' :: fraction

def offsetText : Offset → List Char
  | .utc       => ['Z']
  | .minutes m =>
    (if m < 0 then '-' else '+') :: padded 2 (m.natAbs / 60) ++ ':' :: padded 2 (m.natAbs % 60)

-- The one spelling of a date or a time that is told from all others.
def text : DateTime → String
  | date d                   => .ofList (dateText d)
  | time t                   => .ofList (timeText t)
  | dateTime d t none        => .ofList (dateText d ++ 'T' :: timeText t)
  | dateTime d t (some zone) => .ofList (dateText d ++ 'T' :: timeText t ++ offsetText zone)

end DateTime

inductive Value where
  | string (s : String)
  | integer (n : Int)
  | float (x : Float)
  | boolean (b : Bool)
  | dateTime (d : DateTime)
  | array (items : List Value)
  | table (entries : List (String × Value))

end SoapBindings.Toml

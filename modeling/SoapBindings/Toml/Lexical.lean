import SoapBindings.Text
import SoapBindings.Toml.Value
-- The parts of a TOML text that have no parts of their own: blanks, comments, strings, numbers,
-- dates. A reader takes what it reads off the front of the text and gives back the rest.

namespace SoapBindings.Toml

open Text (hexDigit? scalar?)

abbrev Reader (α : Type) := List Char → Option (α × List Char)

def isBlank (c : Char) : Bool :=
  c = ' ' || c = '\t'

def isDigit (c : Char) : Bool :=
  '0' ≤ c && c ≤ '9'

-- Whatever may stand in a comment or between the quotes of a string on one line.
def isPrintable (c : Char) : Bool :=
  c = '\t' || (0x20 ≤ c.toNat && c.toNat ≠ 0x7F)

def skipBlanks (cs : List Char) : List Char :=
  cs.dropWhile isBlank

def skipComment : List Char → List Char
  | '#' :: cs => cs.dropWhile isPrintable
  | cs        => cs

-- A line ends with the text, with a line feed, or with a carriage return and a line feed.
def lineBreak? : List Char → Option (List Char)
  | '\n' :: cs         => some cs
  | '\r' :: '\n' :: cs => some cs
  | _                  => none

-- The rest of a line holds blanks and a comment at most.
def restOfLine (cs : List Char) : Option (List Char) :=
  match skipComment (skipBlanks cs) with
  | [] => some []
  | cs => lineBreak? cs

namespace Strings

def simpleEscape? : Char → Option Char
  | 'b'  => some '\x08'
  | 't'  => some '\t'
  | 'n'  => some '\n'
  | 'f'  => some '\x0c'
  | 'r'  => some '\r'
  | '"'  => some '"'
  | '\\' => some '\\'
  | _    => none

def isContinued : List Char → Bool
  | '\n' :: _ => true
  | _         => false

-- Where a reader of a string with escapes stands.
inductive Mode where
  | plain
  -- After a backslash.
  | escape
  -- Within an escape by number, of which so many digits are still due.
  | hex (due value : Nat)
  -- After a backslash and blanks at the end of a line.
  | lineEnd
  -- After such a line, where blanks and line breaks do not count.
  | trim

def cons? (c : Char) (r : Option (List Char × List Char)) : Option (List Char × List Char) :=
  r.map fun (cs, rest) => (c :: cs, rest)

-- The end of a string on several lines, where up to two quotes may stand before the closing ones.
def closing (quote : Char) (cs : List Char) : List Char × List Char :=
  let run := min 5 (cs.takeWhile (· = quote)).length
  (List.replicate (run - 3) quote, cs.drop run)

def isClosing (quote : Char) : List Char → Bool
  | a :: b :: c :: _ => a = quote && b = quote && c = quote
  | _                => false

-- A string on one line after its opening quote.
def basic (mode : Mode) : Reader (List Char)
  | []      => none
  | c :: cs =>
    match mode with
    | .hex due value =>
      match hexDigit? c with
      | none   => none
      | some d =>
        let value := 16 * value + d
        if due ≤ 1 then
          match scalar? value with
          | some c => cons? c (basic .plain cs)
          | none   => none
        else basic (.hex (due - 1) value) cs
    | .escape =>
      if c = 'u' then basic (.hex 4 0) cs
      else if c = 'U' then basic (.hex 8 0) cs
      else match simpleEscape? c with
        | some c => cons? c (basic .plain cs)
        | none   => none
    | _ =>
      if c = '"' then some ([], cs)
      else if c = '\\' then basic .escape cs
      else if isPrintable c then cons? c (basic .plain cs)
      else none

-- A string on several lines after its opening quotes. Its line breaks are line feeds.
def multiBasic (mode : Mode) : Reader (List Char)
  | []      => none
  | c :: cs =>
    match mode with
    | .hex due value =>
      match hexDigit? c with
      | none   => none
      | some d =>
        let value := 16 * value + d
        if due ≤ 1 then
          match scalar? value with
          | some c => cons? c (multiBasic .plain cs)
          | none   => none
        else multiBasic (.hex (due - 1) value) cs
    | .escape =>
      if c = 'u' then multiBasic (.hex 4 0) cs
      else if c = 'U' then multiBasic (.hex 8 0) cs
      else if isBlank c || c = '\r' && isContinued cs then multiBasic .lineEnd cs
      else if c = '\n' then multiBasic .trim cs
      else match simpleEscape? c with
        | some c => cons? c (multiBasic .plain cs)
        | none   => none
    | .lineEnd =>
      if isBlank c || c = '\r' && isContinued cs then multiBasic .lineEnd cs
      else if c = '\n' then multiBasic .trim cs
      else none
    | mode =>
      if mode matches .trim && (isBlank c || c = '\n' || c = '\r' && isContinued cs) then
        multiBasic .trim cs
      else if isClosing '"' (c :: cs) then some (closing '"' (c :: cs))
      else if c = '\\' then multiBasic .escape cs
      else if c = '\r' && isContinued cs then multiBasic .plain cs
      else if c = '\n' || isPrintable c then cons? c (multiBasic .plain cs)
      else none

-- A literal string has no escapes.
def literal : Reader (List Char)
  | []      => none
  | c :: cs =>
    if c = '\'' then some ([], cs)
    else if isPrintable c then cons? c (literal cs)
    else none

def multiLiteral : Reader (List Char)
  | []      => none
  | c :: cs =>
    if isClosing '\'' (c :: cs) then some (closing '\'' (c :: cs))
    else if c = '\r' && isContinued cs then multiLiteral cs
    else if c = '\n' || isPrintable c then cons? c (multiLiteral cs)
    else none

-- A line break right after the opening quotes does not count.
def skipBreak (cs : List Char) : List Char :=
  (lineBreak? cs).getD cs

-- A string of any of the four kinds.
def read? : Reader String := fun cs => do
  let (content, rest) ←
    if isClosing '"' cs then multiBasic .plain (skipBreak (cs.drop 3))
    else if isClosing '\'' cs then multiLiteral (skipBreak (cs.drop 3))
    else match cs with
      | '"' :: cs  => basic .plain cs
      | '\'' :: cs => literal cs
      | _          => none
  return (.ofList content, rest)

end Strings

namespace Number

-- Digits, of which any two may have an underscore between them.
def digitRun (isDigit : Char → Bool) (due : Bool) : Reader (List Char)
  | []      => if due then none else some ([], [])
  | c :: cs =>
    if isDigit c then Strings.cons? c (digitRun isDigit false cs)
    else if due then none
    else if c = '_' then digitRun isDigit true cs
    else some ([], c :: cs)

def valueOf (base : Nat) (ds : List Char) : Nat :=
  ds.foldl (fun v c => base * v + (hexDigit? c).getD 0) 0

-- Integers have 64 bits, one of them for the sign.
def integer? (negative : Bool) (magnitude : Nat) : Option Value :=
  let limit := Nat.pow 2 63
  if negative then if magnitude ≤ limit then some (.integer (-magnitude)) else none
  else if magnitude < limit then some (.integer magnitude) else none

-- The number nearest to a numeral of `places` digits after the point. A numeral that is out of the
-- range of all finite numbers need not be computed.
def nearest (digits : List Char) (places exponent : Int) : Float :=
  let significand := valueOf 10 digits
  let e := exponent - places
  let magnitude := Int.ofNat (digits.dropWhile (· = '0')).length + e
  if significand = 0 || magnitude < -400 then 0
  else if 400 < magnitude then 1 / 0
  else Float.ofScientific significand (e < 0) e.natAbs

-- There is a least float and no greatest one: an overflow is an error only above zero.
def float? (negative : Bool) (x : Float) : Option Value :=
  if negative then some (.float (-x))
  else if x.isInf then none
  else some (.float x)

def fraction : Reader (List Char)
  | '.' :: cs => digitRun isDigit true cs
  | cs        => some ([], cs)

def exponentDigits : Reader (Bool × List Char)
  | '-' :: cs => (digitRun isDigit true cs).map fun (ds, rest) => ((true, ds), rest)
  | '+' :: cs => (digitRun isDigit true cs).map fun (ds, rest) => ((false, ds), rest)
  | cs        => (digitRun isDigit true cs).map fun (ds, rest) => ((false, ds), rest)

def exponent : Reader (Option (Bool × List Char))
  | 'e' :: cs => (exponentDigits cs).map fun (e, rest) => (some e, rest)
  | 'E' :: cs => (exponentDigits cs).map fun (e, rest) => (some e, rest)
  | cs        => some (none, cs)

def hasLeadingZero : List Char → Bool
  | '0' :: _ :: _ => true
  | _             => false

-- A decimal numeral after its sign. It is a float if it has a fraction or an exponent.
def decimal (negative : Bool) : Reader Value := fun cs => do
  let (whole, cs) ← digitRun isDigit true cs
  if hasLeadingZero whole then none
  let (places, cs) ← fraction cs
  let (scale, cs) ← exponent cs
  let value ←
    match places, scale with
    | [],     none                   => integer? negative (valueOf 10 whole)
    | places, none                   => float? negative (nearest (whole ++ places) places.length 0)
    | places, some (downwards, ds) =>
      let e := Int.ofNat (valueOf 10 ds)
      float? negative (nearest (whole ++ places) places.length (if downwards then -e else e))
  return (value, cs)

-- Infinity and the undefined number may have a sign.
def signed (negative : Bool) : Reader Value
  | 'i' :: 'n' :: 'f' :: cs => some (.float (if negative then -1 / 0 else 1 / 0), cs)
  | 'n' :: 'a' :: 'n' :: cs => some (.float (0 / 0), cs)
  | cs                      => decimal negative cs

def prefixed (base : Nat) (isDigit : Char → Bool) : Reader Value := fun cs => do
  let (ds, cs) ← digitRun isDigit true cs
  return (← integer? false (valueOf base ds), cs)

def read? : Reader Value
  | '0' :: 'x' :: cs => prefixed 16 (fun c => (hexDigit? c).isSome) cs
  | '0' :: 'o' :: cs => prefixed 8 (fun c => '0' ≤ c && c ≤ '7') cs
  | '0' :: 'b' :: cs => prefixed 2 (fun c => c = '0' || c = '1') cs
  | '+' :: cs        => signed false cs
  | '-' :: cs        => signed true cs
  | cs               => signed false cs

end Number

namespace DateTime

-- A number of exactly so many digits.
def fixed (width : Nat) : Reader Nat := fun cs =>
  let ds := cs.take width
  if ds.length = width && ds.all isDigit then some (Number.valueOf 10 ds, cs.drop width) else none

def mark (c : Char) : Reader Unit
  | d :: cs => if c = d then some ((), cs) else none
  | []      => none

-- A fraction of a second in nanoseconds. Further digits do not count.
def fractionOfSecond : Reader Nat
  | '.' :: cs =>
    let ds := cs.takeWhile isDigit
    if ds.isEmpty then none
    else
      let kept := ds.take 9
      some (Number.valueOf 10 (kept ++ List.replicate (9 - kept.length) '0'), cs.dropWhile isDigit)
  | cs => some (0, cs)

def readDate : Reader Date := fun cs => do
  let (year, cs) ← fixed 4 cs
  let (_, cs) ← mark '-' cs
  let (month, cs) ← fixed 2 cs
  let (_, cs) ← mark '-' cs
  let (day, cs) ← fixed 2 cs
  let d : Date := { year, month, day }
  if d.isValid then return (d, cs) else none

def readTime : Reader Time := fun cs => do
  let (hour, cs) ← fixed 2 cs
  let (_, cs) ← mark ':' cs
  let (minute, cs) ← fixed 2 cs
  let (_, cs) ← mark ':' cs
  let (second, cs) ← fixed 2 cs
  let (nanosecond, cs) ← fractionOfSecond cs
  let t : Time := { hour, minute, second, nanosecond }
  if t.isValid then return (t, cs) else none

def readOffset (negative : Bool) : Reader Offset := fun cs => do
  let (hours, cs) ← fixed 2 cs
  let (_, cs) ← mark ':' cs
  let (minutes, cs) ← fixed 2 cs
  if hours ≤ 23 && minutes ≤ 59 then
    let m : Int := hours * 60 + minutes
    return (.minutes (if negative then -m else m), cs)
  else none

def offset : Reader (Option Offset)
  | 'Z' :: cs => some (some .utc, cs)
  | 'z' :: cs => some (some .utc, cs)
  | '+' :: cs => (readOffset false cs).map fun (o, cs) => (some o, cs)
  | '-' :: cs => (readOffset true cs).map fun (o, cs) => (some o, cs)
  | cs        => some (none, cs)

-- The text begins with digits in this number and then the mark.
def beginsWith (width : Nat) (c : Char) (cs : List Char) : Bool :=
  match fixed width cs with
  | some (_, d :: _) => c = d
  | _                => false

def isDate (cs : List Char) : Bool :=
  beginsWith 4 '-' cs

def isTime (cs : List Char) : Bool :=
  beginsWith 2 ':' cs

def isDelimiter (c : Char) : Bool :=
  c = 'T' || c = 't' || c = ' '

-- A date stands alone unless a time follows it.
def read? : Reader DateTime := fun cs =>
  if isTime cs then (readTime cs).map fun (t, cs) => (.time t, cs)
  else do
    let (d, cs) ← readDate cs
    match cs with
    | c :: more =>
      if isDelimiter c && isTime more then
        let (t, cs) ← readTime more
        let (zone, cs) ← offset cs
        return (.dateTime d t zone, cs)
      else return (.date d, cs)
    | [] => return (.date d, [])

end DateTime

-- A value that holds no other values.
def scalar : Reader Value := fun cs =>
  match cs with
  | '"' :: _                           => (Strings.read? cs).map fun (s, cs) => (.string s, cs)
  | '\'' :: _                          => (Strings.read? cs).map fun (s, cs) => (.string s, cs)
  | 't' :: 'r' :: 'u' :: 'e' :: cs       => some (.boolean true, cs)
  | 'f' :: 'a' :: 'l' :: 's' :: 'e' :: cs  => some (.boolean false, cs)
  | cs                                 =>
    if DateTime.isDate cs || DateTime.isTime cs then
      (DateTime.read? cs).map fun (d, cs) => (.dateTime d, cs)
    else Number.read? cs

end SoapBindings.Toml

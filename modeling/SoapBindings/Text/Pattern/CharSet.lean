import SoapBindings.Text
-- How patterns write characters and sets of characters. What has no meaning here makes a pattern
-- invalid.

namespace SoapBindings.Text.Pattern

abbrev Reader (α : Type) := List Char → Option (α × List Char)

abbrev CharSet := Char → Bool

namespace CharSet

def empty : CharSet :=
  fun _ => false

def single (c : Char) : CharSet :=
  fun d => d = c

def range (low high : Char) : CharSet :=
  fun c => low ≤ c && c ≤ high

def union (s t : CharSet) : CharSet :=
  fun c => s c || t c

def complementIf (negated : Bool) (s : CharSet) : CharSet :=
  fun c => s c != negated

-- Sets with a name hold ASCII characters alone.
def named? : String → Option CharSet
  | "alnum"  => some Char.isAlphanum
  | "alpha"  => some Char.isAlpha
  | "ascii"  => some (range '\x00' '\x7f')
  | "blank"  => some fun c => c = ' ' || c = '\t'
  | "cntrl"  => some fun c => c.toNat < 0x20 || c = '\x7f'
  | "digit"  => some Char.isDigit
  | "graph"  => some (range '!' '~')
  | "lower"  => some Char.isLower
  | "print"  => some (range ' ' '~')
  | "punct"  => some fun c => range '!' '~' c && !c.isAlphanum
  | "space"  => some fun c => c = ' ' || range '\t' '\r' c
  | "upper"  => some Char.isUpper
  | "word"   => some fun c => c.isAlphanum || c = '_'
  | "xdigit" => some fun c => (hexDigit? c).isSome
  | _        => none

end CharSet

-- A code point has this many digits, or any number of them in braces.
def codePoint (width : Nat) : Reader Char
  | '\x7b' :: cs =>
    match cs.dropWhile (· ≠ '\x7d') with
    | []        => none
    | _ :: rest => (hexScalar? (cs.takeWhile (· ≠ '\x7d'))).map (·, rest)
  | cs =>
    if cs.length < width then none
    else (hexScalar? (cs.take width)).map (·, cs.drop width)

-- Any sign stands for itself after a backslash, except for angle brackets.
def isSign (c : Char) : Bool :=
  c.toNat < 0x80 && !c.isAlphanum && c ≠ '<' && c ≠ '>'

-- What stands after the backslash.
def escapedChar : Reader Char
  | []        => none
  | 'x' :: cs => codePoint 2 cs
  | 'u' :: cs => codePoint 4 cs
  | 'U' :: cs => codePoint 8 cs
  | 'a' :: cs => some ('\x07', cs)
  | 'f' :: cs => some ('\x0c', cs)
  | 't' :: cs => some ('\t', cs)
  | 'n' :: cs => some ('\n', cs)
  | 'r' :: cs => some ('\r', cs)
  | 'v' :: cs => some ('\x0b', cs)
  | c :: cs   => if isSign c then some (c, cs) else none

def memberChar : Reader Char
  | []         => none
  | '\\' :: cs => escapedChar cs
  | c :: cs    => some (c, cs)

-- A character, or all from one character to another one. A hyphen before the end of the set or
-- before another hyphen is not for a range.
def member : Reader CharSet := fun cs => do
  let (low, rest) ← memberChar cs
  match rest with
  | '-' :: ']' :: _ => return (.single low, rest)
  | '-' :: '-' :: _ => return (.single low, rest)
  | '-' :: rest     =>
    let (high, rest) ← memberChar rest
    if low ≤ high then return (.range low high, rest) else none
  | rest            => return (.single low, rest)

-- A name between colons.
def named : Reader CharSet := fun cs => do
  let (negated, cs) := match cs with
    | '^' :: cs => (true, cs)
    | cs        => (false, cs)
  let set ← CharSet.named? (.ofList (cs.takeWhile (· ≠ ':')))
  match cs.dropWhile (· ≠ ':') with
  | ':' :: ']' :: rest => return (set.complementIf negated, rest)
  | _                  => none

-- The beginning of a set: whether it is all but its members, and those members that can stand only
-- here.
def opening (cs : List Char) : Bool × CharSet × List Char :=
  let (negated, cs) := match cs with
    | '^' :: cs => (true, cs)
    | cs        => (false, cs)
  match cs with
  | ']' :: cs => (negated, .single ']', cs)
  | '-' :: cs => (negated, .single '-', cs.dropWhile (· = '-'))
  | cs        => (negated, .empty, cs)

-- The members of a set and of the sets within it, after some of them. Sets are not intersected or
-- subtracted.
def members : Nat → CharSet → Reader CharSet
  | 0,     _,   _              => none
  | _ + 1, _,   []             => none
  | _ + 1, set, ']' :: cs      => some (set, cs)
  | n + 1, set, '[' :: cs      => do
    let named := match cs with
      | ':' :: cs => named cs
      | _         => none
    match named with
    | some (inner, cs) => members n (set.union inner) cs
    | none             =>
      let (negated, inner, cs) := opening cs
      let (inner, cs) ← members n inner cs
      members n (set.union (inner.complementIf negated)) cs
  | _ + 1, _,   '&' :: '&' :: _ => none
  | _ + 1, _,   '-' :: '-' :: _ => none
  | _ + 1, _,   '~' :: '~' :: _ => none
  | n + 1, set, cs             => do
    let (m, cs) ← member cs
    members n (set.union m) cs

-- A set after its opening bracket.
def charSet : Reader CharSet := fun cs => do
  let (negated, set, rest) := opening cs
  let (set, rest) ← members (cs.length + 1) set rest
  return (set.complementIf negated, rest)

end SoapBindings.Text.Pattern

import SoapBindings.Text
import SoapBindings.Text.Pattern
import SoapBindings.Text.Pattern.CharSet
-- How patterns are written: most characters stand for themselves, and some build larger patterns.
-- A pattern is cut into tokens first, and these are put together with a stack of open groups.

namespace SoapBindings.Text.Pattern

inductive Token where
  | part (p : Pattern)
  | times (least : Nat) (most : Option Nat)
  | either
  | openGroup
  | closeGroup

namespace Token

-- A number that may have blanks around it.
def count : Reader Nat := fun cs =>
  let cs := cs.dropWhile isBlank
  let ds := cs.takeWhile Char.isDigit
  let n := ds.foldl (fun v c => 10 * v + (c.toNat - '0'.toNat)) 0
  if ds.isEmpty || Nat.pow 2 32 ≤ n then none
  else some (n, (cs.dropWhile Char.isDigit).dropWhile isBlank)

-- How often something is repeated, after the opening brace.
def bounds : Reader (Nat × Option Nat) := fun cs => do
  let (least, cs) ← count cs
  match cs with
  | '\x7d' :: cs        => return ((least, some least), cs)
  | ',' :: '\x7d' :: cs => return ((least, none), cs)
  | ',' :: cs           =>
    match ← count cs with
    | (most, '\x7d' :: cs) => if least ≤ most then return ((least, some most), cs) else none
    | _                    => none
  | _                   => none

-- A repetition may ask for short occurrences. That makes no difference to whether there is one.
def repetition (least : Nat) (most : Option Nat) : Reader Token
  | '?' :: cs => some (times least most, cs)
  | cs        => some (times least most, cs)

def isNameStart (c : Char) : Bool :=
  c.isAlpha || c = '_'

def isNamePart (c : Char) : Bool :=
  c.isAlphanum || ['_', '.', '[', ']'].contains c

-- A group may have a name.
def named : Reader Token
  | []      => none
  | c :: cs =>
    match cs.dropWhile isNamePart with
    | '>' :: cs => if isNameStart c then some (openGroup, cs) else none
    | _         => none

def group : Reader Token
  | '?' :: ':' :: cs        => some (openGroup, cs)
  | '?' :: '<' :: cs        => named cs
  | '?' :: 'P' :: '<' :: cs => named cs
  | '?' :: _                => none
  | cs                      => some (openGroup, cs)

def single (c : Char) : Token :=
  part (.char (CharSet.single c))

def escaped : Reader Token
  | 'A' :: cs => some (part .start, cs)
  | 'z' :: cs => some (part .stop, cs)
  | cs        => (escapedChar cs).map fun (c, cs) => (single c, cs)

def read : Reader Token
  | []             => none
  | '(' :: cs      => group cs
  | ')' :: cs      => some (closeGroup, cs)
  | '|' :: cs      => some (either, cs)
  | '?' :: cs      => repetition 0 (some 1) cs
  | '*' :: cs      => repetition 0 none cs
  | '+' :: cs      => repetition 1 none cs
  | '\x7b' :: cs   => do
    let ((least, most), cs) ← bounds cs
    repetition least most cs
  | '[' :: cs      => (charSet cs).map fun (set, cs) => (part (.char set), cs)
  | '\\' :: cs     => escaped cs
  | '.' :: cs      => some (part (.char (· ≠ '\n')), cs)
  | '^' :: cs      => some (part .start, cs)
  | '$' :: cs      => some (part .stop, cs)
  | c :: cs        => some (single c, cs)

-- Each token takes one character at least.
def readAll : Nat → List Char → Option (List Token)
  | _,     []      => some []
  | 0,     _ :: _  => none
  | n + 1, c :: cs => do
    let (t, rest) ← read (c :: cs)
    return t :: (← readAll n rest)

end Token

-- A group that is still open: its alternatives so far, and the parts of the last one, of which the
-- last comes first.
structure Group where
  before : Option Pattern := none
  parts  : List Pattern := []

namespace Group

def pattern (g : Group) : Pattern :=
  let p := g.parts.foldl (fun q p => p.sequence q) .empty
  match g.before with
  | some q => q.either p
  | none   => p

def push (g : Group) (p : Pattern) : Group :=
  { g with parts := p :: g.parts }

-- The innermost group, and the groups around it.
abbrev Stack := Group × List Group

def add : Stack → Token → Option Stack
  | (g, outer), .part p           => some (g.push p, outer)
  | (g, outer), .times least most =>
    match g.parts with
    | []      => none
    | p :: ps => some ({ g with parts := p.repeated least most :: ps }, outer)
  | (g, outer), .either           => some ({ before := g.pattern }, outer)
  | (g, outer), .openGroup        => some ({}, g :: outer)
  | (_, []),    .closeGroup       => none
  | (g, h :: outer), .closeGroup  => some (h.push g.pattern, outer)

end Group

def ofText? (s : String) : Option Pattern := do
  match ← (← Token.readAll s.length s.toList).foldlM Group.add ({}, []) with
  | (g, []) => return g.pattern
  | _       => none

end SoapBindings.Text.Pattern

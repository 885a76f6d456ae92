-- Patterns, and whether there is an occurrence of one in a text.

namespace SoapBindings.Text

-- A repetition without an upper bound has none there.
inductive Pattern where
  | empty
  | char (belongs : Char → Bool)
  | start
  | stop
  | sequence (p q : Pattern)
  | either (p q : Pattern)
  | repeated (p : Pattern) (least : Nat) (most : Option Nat)

namespace Pattern

-- A set of places in a text, with one mark for the place before each character and one more for
-- the end of the text.
abbrev Places := List Bool

namespace Places

def onlyFirst : Places → Places
  | []         => []
  | here :: ps => here :: ps.map fun _ => false

def onlyLast : Places → Places
  | []      => []
  | [here]  => [here]
  | _ :: ps => false :: onlyLast ps

-- The places after those characters that belong to a set.
def advance (cs : List Char) (belongs : Char → Bool) (ps : Places) : Places :=
  false :: List.zipWith (fun c here => here && belongs c) cs ps

def union (ps qs : Places) : Places :=
  List.zipWith (fun p q => p || q) ps qs

-- A step done so many times. Where it changes nothing, it need not be done again.
def iterate (step : Places → Places) : Nat → Places → Places
  | 0,     ps => ps
  | n + 1, ps =>
    let qs := step ps
    if qs = ps then ps else iterate step n qs

end Places

-- The ends of all occurrences that begin at given places. In a text of `n` characters, `n + 1`
-- steps lead wherever any number of them does.
def ends (cs : List Char) : Pattern → Places → Places
  | empty,                 ps => ps
  | char belongs,          ps => ps.advance cs belongs
  | start,                 ps => ps.onlyFirst
  | stop,                  ps => ps.onlyLast
  | sequence p q,          ps => q.ends cs (p.ends cs ps)
  | either p q,            ps => (p.ends cs ps).union (q.ends cs ps)
  | repeated p least most, ps =>
    let more := (most.map (· - least)).getD (cs.length + 1)
    Places.iterate (fun ps => ps.union (p.ends cs ps)) more (Places.iterate (p.ends cs) least ps)

def occursIn (p : Pattern) (s : String) : Bool :=
  let cs := s.toList
  (p.ends cs (List.replicate (cs.length + 1) true)).any id

end Pattern
end SoapBindings.Text

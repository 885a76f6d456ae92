-- What the formats of the library share in reading texts: blanks, pieces between separators, and
-- numbers to the base of sixteen.

namespace SoapBindings.Text

-- Blanks are those of all scripts: spaces of any width, tabs, and breaks of lines and pages.
def isBlank (c : Char) : Bool :=
  let n := c.toNat
  (0x09 ≤ n && n ≤ 0x0D) || (0x2000 ≤ n && n ≤ 0x200A) ||
    [0x20, 0x85, 0xA0, 0x1680, 0x2028, 0x2029, 0x202F, 0x205F, 0x3000].contains n

-- A text without the blanks at its two ends.
def trim (s : String) : String :=
  let cs := s.toList.dropWhile isBlank
  .ofList (cs.reverse.dropWhile isBlank).reverse

-- The pieces of a text between its separators. There is one piece more than there are separators.
def splitChars (separator : Char) : List Char → List (List Char)
  | []      => [[]]
  | c :: cs =>
    if c = separator then [] :: splitChars separator cs
    else match splitChars separator cs with
      | []              => [[c]]
      | piece :: pieces => (c :: piece) :: pieces

def split (separator : Char) (s : String) : List String :=
  (splitChars separator s.toList).map .ofList

theorem splitChars_ne_nil (separator : Char) (cs : List Char) : splitChars separator cs ≠ [] := by
  cases cs with
  | nil => simp [splitChars]
  | cons c cs =>
    unfold splitChars
    split
    · simp
    · split <;> simp

-- The value of a digit, in letters of either case.
def hexDigit? (c : Char) : Option Nat :=
  if '0' ≤ c && c ≤ '9' then some (c.toNat - '0'.toNat)
  else if 'a' ≤ c && c ≤ 'f' then some (c.toNat - 'a'.toNat + 10)
  else if 'A' ≤ c && c ≤ 'F' then some (c.toNat - 'A'.toNat + 10)
  else none

-- The character of a code point, which must not be a surrogate.
def scalar? (n : Nat) : Option Char :=
  if n.isValidChar then some (.ofNat n) else none

-- The character whose code point has these digits. There must be one digit at least.
def hexScalar? : List Char → Option Char
  | [] => none
  | ds => do scalar? (← ds.foldlM (fun v c => (hexDigit? c).map (16 * v + ·)) 0)

end SoapBindings.Text

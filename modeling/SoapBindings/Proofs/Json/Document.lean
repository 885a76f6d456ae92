import SoapBindings.Json.Numeral
-- JSON documents and the texts that spell them. A text spells the lexemes of a document in their
-- order, with any blanks between them. Strings and numbers have several spellings.

namespace SoapBindings.Json

-- The members of an object have an order, and a name may occur more than once.
inductive Document where
  | null
  | boolean (b : Bool)
  | number (n : Numeral)
  | string (s : String)
  | array (items : List Document)
  | object (members : List (String × Document))

inductive Lexeme where
  | openArray
  | closeArray
  | openObject
  | closeObject
  | comma
  | colon
  | null
  | boolean (b : Bool)
  | number (n : Numeral)
  | string (s : String)

namespace Document

mutual

def lexemes : Document → List Lexeme
  | null           => [.null]
  | boolean b      => [.boolean b]
  | number n       => [.number n]
  | string s       => [.string s]
  | array items    => .openArray :: (itemLexemes items ++ [.closeArray])
  | object members => .openObject :: (memberLexemes members ++ [.closeObject])

def itemLexemes : List Document → List Lexeme
  | []                   => []
  | [item]               => lexemes item
  | item :: more :: rest => lexemes item ++ .comma :: itemLexemes (more :: rest)

def memberLexemes : List (String × Document) → List Lexeme
  | []                            => []
  | [(name, value)]               => .string name :: .colon :: lexemes value
  | (name, value) :: more :: rest =>
    .string name :: .colon :: (lexemes value ++ .comma :: memberLexemes (more :: rest))

end

end Document

-- Numbers.

def Digits (ds : List Char) : Prop :=
  ds ≠ [] ∧ ∀ d ∈ ds, d.isDigit

-- There is no zero before other digits.
def WholeDigits (ds : List Char) : Prop :=
  ds = ['0'] ∨ Digits ds ∧ ds.head? ≠ some '0'

inductive FractionSpelling : List Char → List Char → Prop
  | absent                      : FractionSpelling [] []
  | present {ds} (h : Digits ds) : FractionSpelling ds ('.' :: ds)

def exponentMarks : List Char :=
  ['e', 'E']

inductive ExponentSpelling : Option (Bool × List Char) → List Char → Prop
  | absent : ExponentSpelling none []
  | unsigned {mark ds} (hm : mark ∈ exponentMarks) (hd : Digits ds) :
    ExponentSpelling (some (false, ds)) (mark :: ds)
  | positive {mark ds} (hm : mark ∈ exponentMarks) (hd : Digits ds) :
    ExponentSpelling (some (false, ds)) (mark :: '+' :: ds)
  | negative {mark ds} (hm : mark ∈ exponentMarks) (hd : Digits ds) :
    ExponentSpelling (some (true, ds)) (mark :: '-' :: ds)

inductive SignSpelling : Bool → List Char → Prop
  | positive : SignSpelling false []
  | negative : SignSpelling true ['-']

inductive NumeralSpelling (n : Numeral) : List Char → Prop
  | intro {sign fraction exponent} (hs : SignSpelling n.negative sign) (hw : WholeDigits n.whole)
    (hf : FractionSpelling n.fraction fraction) (he : ExponentSpelling n.exponent exponent) :
    NumeralSpelling n (sign ++ (n.whole ++ (fraction ++ exponent)))

-- Strings.

def HexDigit (n : Nat) (c : Char) : Prop :=
  n < 16 ∧ (c = n.digitChar ∨ c = n.digitChar.toUpper)

-- Four hexadecimal digits, after a mark that says so.
inductive HexSpelling (n : Nat) : List Char → Prop
  | intro {a b c d} (ha : HexDigit (n / 0x1000) a) (hb : HexDigit (n / 0x100 % 0x10) b)
    (hc : HexDigit (n / 0x10 % 0x10) c) (hd : HexDigit (n % 0x10) d) :
    HexSpelling n ['\\', 'u', a, b, c, d]

-- The letters after a backslash, each with the character that it stands for.
def shortEscapes : List (Char × Char) := [
  ('"', '"'), ('\\', '\\'), ('/', '/'), ('b', '\x08'), ('f', '\x0c'), ('n', '\n'), ('r', '\r'),
  ('t', '\t')]

-- A character outside of the basic plane may be spelled as the two halves of a surrogate pair.
inductive CharSpelling (c : Char) : List Char → Prop
  | plain (hc : 0x20 ≤ c.toNat) (hq : c ≠ '"') (hb : c ≠ '\\') : CharSpelling c [c]
  | short {e} (he : (e, c) ∈ shortEscapes) : CharSpelling c ['\\', e]
  | hex {cs} (h : HexSpelling c.toNat cs) : CharSpelling c cs
  | pair {high low} (hc : 0x10000 ≤ c.toNat)
    (hh : HexSpelling (0xD800 + (c.toNat - 0x10000) / 0x400) high)
    (hl : HexSpelling (0xDC00 + (c.toNat - 0x10000) % 0x400) low) : CharSpelling c (high ++ low)

inductive CharsSpelling : List Char → List Char → Prop
  | nil : CharsSpelling [] []
  | cons {c cs spelling rest} (h : CharSpelling c spelling) (hr : CharsSpelling cs rest) :
    CharsSpelling (c :: cs) (spelling ++ rest)

inductive StringSpelling (s : String) : List Char → Prop
  | intro {content} (h : CharsSpelling s.toList content) :
    StringSpelling s ('"' :: (content ++ ['"']))

-- Texts.

def Lexeme.Spelling : Lexeme → List Char → Prop
  | openArray,     cs => cs = ['[']
  | closeArray,    cs => cs = [']']
  | openObject,    cs => cs = ['\x7b']
  | closeObject,   cs => cs = ['\x7d']
  | comma,         cs => cs = [',']
  | colon,         cs => cs = [':']
  | null,          cs => cs = ['n', 'u', 'l', 'l']
  | boolean true,  cs => cs = ['t', 'r', 'u', 'e']
  | boolean false, cs => cs = ['f', 'a', 'l', 's', 'e']
  | number n,      cs => NumeralSpelling n cs
  | string s,      cs => StringSpelling s cs

def Blanks (cs : List Char) : Prop :=
  ∀ c ∈ cs, c ∈ [' ', '\t', '\n', '\r']

inductive Spells : List Lexeme → List Char → Prop
  | nil {blanks} (hb : Blanks blanks) : Spells [] blanks
  | cons {blanks spelling rest lexeme lexemes} (hb : Blanks blanks)
    (hl : lexeme.Spelling spelling) (hr : Spells lexemes rest) :
    Spells (lexeme :: lexemes) (blanks ++ (spelling ++ rest))

def Document.Spelling (d : Document) (text : String) : Prop :=
  Spells d.lexemes text.toList

end SoapBindings.Json

import SoapBindings.Json.Numeral
import SoapBindings.Text
-- The tokens of a JSON text and the scanner that finds them, one character at a time. A text that
-- is no JSON has tokens up to the place where it goes wrong, and one more for what is wrong there.

namespace SoapBindings.Json

-- The text ended too early, or it has a character that cannot stand where it does.
inductive Flaw where
  | ended
  | malformed
  deriving DecidableEq, Repr

-- The content of a string. An escape may stand for one half of a surrogate pair.
inductive CodeUnit where
  | scalar (c : Char)
  | surrogate (n : Nat)
  deriving DecidableEq, Repr

namespace CodeUnit

def ofNat (n : Nat) : CodeUnit :=
  if 0xD800 ≤ n ∧ n < 0xE000 then surrogate n else scalar (.ofNat n)

def isHigh (n : Nat) : Bool :=
  n < 0xDC00

-- The character of a pair of surrogates.
def join (high low : Nat) : Char :=
  .ofNat (0x10000 + (high - 0xD800) * 0x400 + (low - 0xDC00))

-- A content is a text if its surrogates come in pairs, the high one first. A content that ends with
-- the high half of a pair could still become one.
inductive Decoded where
  | text (cs : List Char)
  | halfPair
  | unpaired

def Decoded.cons (c : Char) : Decoded → Decoded
  | text cs => text (c :: cs)
  | d       => d

def decode : List CodeUnit → Decoded
  | [] => .text []
  | scalar c :: us => (decode us).cons c
  | [surrogate n] => if isHigh n then .halfPair else .unpaired
  | surrogate n :: surrogate m :: us =>
    if isHigh n && !isHigh m then (decode us).cons (join n m) else .unpaired
  | surrogate _ :: scalar _ :: _ => .unpaired

def text? (us : List CodeUnit) : Option String :=
  match decode us with
  | .text cs => some (.ofList cs)
  | _        => none

-- What is wrong with a string that breaks off: the first thing that is.
def flaw (us : List CodeUnit) (breaking : Flaw) : Flaw :=
  match decode us with
  | .unpaired => .malformed
  | _         => breaking

end CodeUnit

inductive Token where
  | openArray
  | closeArray
  | openObject
  | closeObject
  | comma
  | colon
  | null
  | boolean (b : Bool)
  | number (n : Numeral)
  | string (content : List CodeUnit)
  | brokenString (content : List CodeUnit) (flaw : Flaw)
  | brokenNumber
  | broken (flaw : Flaw)
  deriving DecidableEq, Repr

-- What the scanner is in the middle of. Contents of strings are kept in reverse.
inductive Mode where
  | between
  | word (token : Token) (next : Char) (rest : List Char)
  | number (stage : Numeral.Stage) (numeral : Numeral)
  | string (content : List CodeUnit)
  | escape (content : List CodeUnit)
  | hex (content : List CodeUnit) (count value : Nat)

namespace Mode

def isBlank (c : Char) : Bool :=
  c = ' ' || c = '\n' || c = '\t' || c = '\r'

def simpleEscape? : Char → Option Char
  | '"'  => some '"'
  | '\\' => some '\\'
  | '/'  => some '/'
  | 'b'  => some '\x08'
  | 'f'  => some '\x0c'
  | 'n'  => some '\n'
  | 'r'  => some '\r'
  | 't'  => some '\t'
  | _    => none

-- The tokens that a character completes, and the mode after it unless the scanner stops there.
abbrev Step := List Token × Option Mode

-- A character outside of all tokens.
def start (c : Char) : Step :=
  if isBlank c then ([], some between)
  else match c with
    | '[' => ([.openArray], some between)
    | ']' => ([.closeArray], some between)
    | '\x7b' => ([.openObject], some between)
    | '\x7d' => ([.closeObject], some between)
    | ',' => ([.comma], some between)
    | ':' => ([.colon], some between)
    | '"' => ([], some (string []))
    | 'n' => ([], some (word .null 'u' ['l', 'l']))
    | 't' => ([], some (word (.boolean true) 'r' ['u', 'e']))
    | 'f' => ([], some (word (.boolean false) 'a' ['l', 's', 'e']))
    | c   =>
      match Numeral.begin? c with
      | some (stage, n) => ([], some (number stage n))
      | none            => ([.broken .malformed], none)

def inString (content : List CodeUnit) (c : Char) : Step :=
  if c = '"' then ([.string content.reverse], some between)
  else if c = '\\' then ([], some (escape content))
  else if c.toNat < 0x20 then ([.brokenString content.reverse .malformed], none)
  else ([], some (string (.scalar c :: content)))

def byteCount (cs : List Char) : Nat :=
  cs.foldl (fun n c => n + c.utf8Size) 0

-- An escape by number takes four bytes, whatever they are, and breaks off where there are fewer.
def inEscape (content : List CodeUnit) (c : Char) (rest : List Char) : Step :=
  if c = 'u' then
    if byteCount (rest.take 4) < 4 then ([.brokenString content.reverse .ended], none)
    else ([], some (hex content 0 0))
  else match simpleEscape? c with
    | some e => ([], some (string (.scalar e :: content)))
    | none   => ([.brokenString content.reverse .malformed], none)

def inHex (content : List CodeUnit) (count value : Nat) (c : Char) : Step :=
  match Text.hexDigit? c with
  | none   => ([.brokenString content.reverse .malformed], none)
  | some d =>
    let value := 16 * value + d
    if count = 3 then ([], some (string (.ofNat value :: content)))
    else ([], some (hex content (count + 1) value))

def step (mode : Mode) (c : Char) (rest : List Char) : Step :=
  match mode with
  | between => start c
  | word token next more =>
    if c ≠ next then ([.broken .malformed], none)
    else match more with
      | []           => ([token], some between)
      | next :: more => ([], some (word token next more))
  | number stage n =>
    match n.step stage c with
    | .more stage n => ([], some (number stage n))
    | .malformed    => ([.broken .malformed], none)
    | .finished     => let (tokens, mode) := start c; (.number n :: tokens, mode)
  | string content => inString content c
  | escape content => inEscape content c rest
  | hex content count value => inHex content count value c

-- The tokens at the end of a text.
def finish : Mode → List Token
  | between         => []
  | word ..         => [.broken .ended]
  | number stage n  => if stage.isComplete then [.number n] else [.brokenNumber]
  | string content  => [.brokenString content.reverse .ended]
  | escape content  => [.brokenString content.reverse .ended]
  | hex content _ _ => [.brokenString content.reverse .ended]

-- Feeds the tokens of a text to a reader of tokens, from the first to the last.
def feed {σ : Type} (push : σ → Token → σ) (state : σ) : Mode → List Char → σ
  | mode, [] => mode.finish.foldl push state
  | mode, c :: cs =>
    match mode.step c cs with
    | (tokens, some mode) => feed push (tokens.foldl push state) mode cs
    | (tokens, none)      => tokens.foldl push state

end Mode
end SoapBindings.Json

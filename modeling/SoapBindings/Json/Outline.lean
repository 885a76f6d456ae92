import SoapBindings.Json.Token
-- The outline of a JSON text: the tree of its values as far as the text is well formed, with the
-- place where it goes wrong as its last leaf. A well-formed text has an outline without such a
-- leaf.

namespace SoapBindings.Json

inductive ArrayEnd where
  | closed
  | cut (flaw : Flaw)
  deriving DecidableEq, Repr

-- An object may also break off at a key, or after one.
inductive ObjectEnd where
  | closed
  | cut (flaw : Flaw)
  | brokenKey (key : List CodeUnit) (flaw : Flaw)
  | bareKey (key : List CodeUnit) (flaw : Flaw)
  deriving DecidableEq, Repr

-- Where a value that breaks off is the last of its container, the end of the container is not
-- looked at.
inductive Outline where
  | null
  | boolean (b : Bool)
  | number (n : Numeral)
  | string (content : List CodeUnit)
  | array (items : List Outline) (ending : ArrayEnd)
  | object (members : List (List CodeUnit × Outline)) (ending : ObjectEnd)
  | brokenString (content : List CodeUnit) (flaw : Flaw)
  | brokenNumber
  | broken (flaw : Flaw)

namespace Outline

-- A container around the place that is being read, with what it holds so far in reverse.
inductive Frame where
  | array (items : List Outline)
  | object (members : List (List CodeUnit × Outline)) (key : List CodeUnit)

-- What may come next, inside the frames from the innermost to the outermost.
inductive Reading where
  | value (frames : List Frame)
  | firstItem (frames : List Frame)
  | nextItem (items : List Outline) (frames : List Frame)
  | firstKey (frames : List Frame)
  | nextKey (members : List (List CodeUnit × Outline)) (frames : List Frame)
  | colon (members : List (List CodeUnit × Outline)) (key : List CodeUnit) (frames : List Frame)
  | nextMember (members : List (List CodeUnit × Outline)) (frames : List Frame)
  | complete (outline : Outline)
  | overrun (outline : Outline)
  | broken (outline : Outline)

namespace Reading

-- A value is complete.
def receive (v : Outline) : List Frame → Reading
  | []                             => complete v
  | .array items :: frames         => nextItem (v :: items) frames
  | .object members key :: frames  => nextMember ((key, v) :: members) frames

-- A value breaks off, and with it all that is around it.
def abandon (v : Outline) : List Frame → Outline
  | []                            => v
  | .array items :: frames        => abandon (.array (v :: items).reverse (.cut .malformed)) frames
  | .object members key :: frames =>
    abandon (.object ((key, v) :: members).reverse (.cut .malformed)) frames

def breakOff (v : Outline) (frames : List Frame) : Reading :=
  broken (abandon v frames)

def pushValue (frames : List Frame) : Token → Reading
  | .openArray           => firstItem frames
  | .openObject          => firstKey frames
  | .null                => receive .null frames
  | .boolean b           => receive (.boolean b) frames
  | .number n            => receive (.number n) frames
  | .string content      => receive (.string content) frames
  | .brokenString us f   => breakOff (.brokenString us f) frames
  | .brokenNumber        => breakOff .brokenNumber frames
  | .broken f            => breakOff (.broken f) frames
  | .closeArray | .closeObject | .comma | .colon => breakOff (.broken .malformed) frames

def push : Reading → Token → Reading
  | value frames, t => pushValue frames t
  | firstItem frames, .closeArray => receive (.array [] .closed) frames
  | firstItem frames, t => pushValue (.array [] :: frames) t
  | nextItem items frames, .comma => value (.array items :: frames)
  | nextItem items frames, .closeArray => receive (.array items.reverse .closed) frames
  | nextItem items frames, _ => breakOff (.array items.reverse (.cut .malformed)) frames
  | firstKey frames, .closeObject => receive (.object [] .closed) frames
  | firstKey frames, t => pushKey [] frames t
  | nextKey members frames, t => pushKey members frames t
  | colon members key frames, .colon => value (.object members key :: frames)
  | colon members key frames, _ =>
    breakOff (.object members.reverse (.bareKey key .malformed)) frames
  | nextMember members frames, .comma => nextKey members frames
  | nextMember members frames, .closeObject => receive (.object members.reverse .closed) frames
  | nextMember members frames, _ => breakOff (.object members.reverse (.cut .malformed)) frames
  | complete v, _ => overrun v
  | overrun v, _ => overrun v
  | broken v, _ => broken v
where
  pushKey (members : List (List CodeUnit × Outline)) (frames : List Frame) : Token → Reading
    | .string content    => colon members content frames
    | .brokenString us f => breakOff (.object members.reverse (.brokenKey us f)) frames
    | _                  => breakOff (.object members.reverse (.cut .malformed)) frames

-- The outline at the end of the text, and whether there is anything after it.
def finish : Reading → Outline × Bool
  | value frames                => (abandon (.broken .ended) frames, false)
  | firstItem frames            => (abandon (.array [] (.cut .ended)) frames, false)
  | nextItem items frames       => (abandon (.array items.reverse (.cut .ended)) frames, false)
  | firstKey frames             => (abandon (.object [] (.cut .ended)) frames, false)
  | nextKey members frames      => (abandon (.object members.reverse (.cut .ended)) frames, false)
  | colon members key frames    =>
    (abandon (.object members.reverse (.bareKey key .ended)) frames, false)
  | nextMember members frames   => (abandon (.object members.reverse (.cut .ended)) frames, false)
  | complete v                  => (v, false)
  | overrun v                   => (v, true)
  | broken v                    => (v, false)

end Reading

def ofChars (cs : List Char) : Outline × Bool :=
  (Mode.feed Reading.push (.value []) .between cs).finish

end Outline
end SoapBindings.Json

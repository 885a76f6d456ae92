import SoapBindings.Json.Outline
import SoapBindings.Json.Shape
-- Reading values of a shape. A text is read from its beginning to its end and the first thing that
-- is wrong with it is the error, be it that it is no JSON or that it does not fit the shape.

namespace SoapBindings.Json

inductive ReadError where
  | ended
  | malformed
  | mismatch (m : Mismatch)
  | missingField (name : String)
  | duplicateField (name : String)
  | wrongLength (length : Nat) (record : String) (fields : Nat)
  deriving DecidableEq, Repr

namespace ReadError

def ofFlaw : Flaw → ReadError
  | .ended     => ended
  | .malformed => malformed

-- There is a wording for the data errors. The others say that the text is no JSON.
def message? : ReadError → Option String
  | ended                            => none
  | malformed                        => none
  | mismatch m                       => some m.message
  | missingField name                => some s!"missing field `{name}`"
  | duplicateField name              => some s!"duplicate field `{name}`"
  | wrongLength length record fields =>
    some s!"invalid length {length}, expected struct {record} with {fields} elements"

-- Two dots stand for the place in the text, and for the wording where there is none.
def debugText (e : ReadError) : String :=
  match e.message? with
  | some message => s!"Error({Text.quoted message}, ..)"
  | none         => "Error(..)"

end ReadError

abbrev Read := Except ReadError

def ArrayEnd.check : ArrayEnd → Read Unit
  | closed   => return
  | cut flaw => throw (.ofFlaw flaw)

namespace Outline

-- Members that no field asks for may have any value. What their strings stand for does not matter,
-- nor how great their numbers are.
mutual

def skip : Outline → Read Unit
  | null | boolean _ | number _ | string _ => return
  | array items ending                     => do skipItems items; ending.check
  | object members ending                  => do
    skipMembers members
    match ending with
    | .closed           => return
    | .cut flaw         => throw (.ofFlaw flaw)
    | .brokenKey _ flaw => throw (.ofFlaw flaw)
    | .bareKey _ flaw   => throw (.ofFlaw flaw)
  | brokenString _ flaw                    => throw (.ofFlaw flaw)
  | brokenNumber                           => throw .malformed
  | broken flaw                            => throw (.ofFlaw flaw)

def skipItems : List Outline → Read Unit
  | []            => return
  | item :: items => do skip item; skipItems items

def skipMembers : List (List CodeUnit × Outline) → Read Unit
  | []                   => return
  | (_, value) :: members => do skip value; skipMembers members

end

-- The error for a value of a wrong kind. A string or a number counts as found once it is read, an
-- array or an object from its first character on.
def refusal (expected : Expected) : Outline → ReadError
  | null      => .mismatch ⟨.null, expected⟩
  | boolean b => .mismatch ⟨.boolean b, expected⟩
  | number n  =>
    match n.found? with
    | some found => .mismatch ⟨found, expected⟩
    | none       => .malformed
  | string content =>
    match CodeUnit.text? content with
    | some s => .mismatch ⟨.string s, expected⟩
    | none   => .malformed
  | array _ _                 => .mismatch ⟨.sequence, expected⟩
  | object _ _                => .mismatch ⟨.map, expected⟩
  | brokenString content flaw => .ofFlaw (CodeUnit.flaw content flaw)
  | brokenNumber              => .ended
  | broken flaw               => .ofFlaw flaw

end Outline

def readString (content : List CodeUnit) : Read String :=
  match CodeUnit.text? content with
  | some s => return s
  | none   => throw .malformed

namespace Need

-- A null stands for an optional value that is left out, and for no other one.
def read {α : Type} (readValue : Outline → Read α) : (need : Need) → Outline → Read (need.Held α)
  | .required,  v     => readValue v
  | .defaulted, v     => readValue v
  | .optional,  .null => return none
  | .optional,  v     => some <$> readValue v

end Need

namespace Fields

-- The end of an object that is read as a record. The key that an object breaks off after may have
-- been there before.
def checkEnd (fields : Fields) (draft : fields.Draft) : ObjectEnd → Read Unit
  | .closed             => return
  | .cut flaw           => throw (.ofFlaw flaw)
  | .brokenKey key flaw => throw (.ofFlaw (CodeUnit.flaw key flaw))
  | .bareKey key flaw   => do
    let name ← readString key
    if fields.isTaken name draft then throw (.duplicateField name)
    throw (.ofFlaw flaw)

-- Of the fields that are left out, the first that may not be is the error.
def complete : (fields : Fields) → fields.Draft → Read fields.Value
  | .nil, () => return ()
  | .cons name need shape rest, (slot, slots) =>
    match slot.or (need.absent shape.blank) with
    | some value => return (value, ← rest.complete slots)
    | none       => throw (.missingField name)

end Fields

mutual

def Shape.read : (shape : Shape) → Outline → Read shape.Value
  | .text, .string content          => readString content
  | .text, v                        => throw (v.refusal .string)
  | .list item, .array items ending => do
    let values ← items.mapM item.read
    ending.check
    return values
  | .list _, v                      => throw (v.refusal .sequence)
  | .record name fields, .array items ending =>
    fields.readItems name fields.count 0 items ending
  | .record _ fields, .object members ending => do
    let draft ← members.foldlM
      (fun draft (key, value) => do fields.readMember (← readString key) value draft) fields.vacant
    fields.checkEnd draft ending
    fields.complete draft
  | .record name _, v               => throw (v.refusal (.record name))

-- A member of an object gives its value to the field of its name. A second one is an error,
-- whatever its value. A member that no field asks for is skipped.
def Fields.readMember : (fields : Fields) → String → Outline → fields.Draft → Read fields.Draft
  | .nil, _, value, () => value.skip
  | .cons name need shape rest, key, value, (slot, slots) =>
    if name = key then
      match slot with
      | some _ => throw (.duplicateField name)
      | none   => return (some (← need.read shape.read value), slots)
    else return (slot, ← rest.readMember key value slots)

-- The items of an array are the fields in their order. Fields may be left out at its end only.
def Fields.readItems (record : String) (count : Nat) :
    (fields : Fields) → (index : Nat) → List Outline → ArrayEnd → Read fields.Value
  | .nil, _, [], ending      => ending.check
  | .nil, _, _ :: _, _       => throw .malformed
  | .cons _ _ _ _, _, [], .cut flaw => throw (.ofFlaw flaw)
  | .cons _ need shape rest, index, [], .closed =>
    match need.absent shape.blank with
    | some value => return (value, ← rest.readItems record count (index + 1) [] .closed)
    | none       => throw (.wrongLength index record count)
  | .cons _ need shape rest, index, item :: items, ending => do
    let value ← need.read shape.read item
    return (value, ← rest.readItems record count (index + 1) items ending)

end

-- Reads a whole text. There may be blanks around the value and nothing else.
def Shape.readText (shape : Shape) (text : String) : Read shape.Value := do
  let (outline, overrun) := Outline.ofChars text.toList
  let value ← shape.read outline
  if overrun then throw .malformed
  return value

end SoapBindings.Json

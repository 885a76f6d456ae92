-- Shapes of the data that JSON texts carry: texts, lists, and records of named fields. The values
-- of a shape are ordinary values of the library, so a type takes its reader and writer from its
-- shape.

namespace SoapBindings.Json

-- How a field may be left out: not at all, to leave its value out, or to give it a blank value.
inductive Need where
  | required
  | optional
  | defaulted
  deriving DecidableEq, Repr

-- What a record holds for a field.
@[reducible]
def Need.Held : Need → Type → Type
  | .optional, α => Option α
  | _,         α => α

mutual

inductive Shape where
  | text
  | list (item : Shape)
  | record (name : String) (fields : Fields)

inductive Fields where
  | nil
  | cons (name : String) (need : Need) (shape : Shape) (rest : Fields)

end

mutual

@[reducible]
def Shape.Value : Shape → Type
  | .text            => String
  | .list item       => List item.Value
  | .record _ fields => fields.Value

@[reducible]
def Fields.Value : Fields → Type
  | .nil                    => Unit
  | .cons _ need shape rest => need.Held shape.Value × rest.Value

end

-- A record in the course of being read: some of its fields have a value already.
@[reducible]
def Fields.Draft : Fields → Type
  | .nil                    => Unit
  | .cons _ need shape rest => Option (need.Held shape.Value) × rest.Draft

namespace Need

-- The blank of a field, of which `b` is the blank value.
def blank {α : Type} (b : α) : (need : Need) → need.Held α
  | .required  => b
  | .optional  => none
  | .defaulted => b

-- What stands for a field that is left out.
def absent {α : Type} (b : α) : (need : Need) → Option (need.Held α)
  | .required  => none
  | .optional  => some none
  | .defaulted => some b

end Need

namespace Fields

def count : Fields → Nat
  | .nil             => 0
  | .cons _ _ _ rest => rest.count + 1

def vacant : (fields : Fields) → fields.Draft
  | .nil             => ()
  | .cons _ _ _ rest => (none, rest.vacant)

-- A field of this name has a value already.
def isTaken : (fields : Fields) → String → fields.Draft → Bool
  | .nil, _, () => false
  | .cons name _ _ rest, key, (slot, slots) =>
    if name = key then slot.isSome else rest.isTaken key slots

end Fields

mutual

def Shape.blank : (shape : Shape) → shape.Value
  | .text            => ""
  | .list _          => ([] : List _)
  | .record _ fields => fields.blank

def Fields.blank : (fields : Fields) → fields.Value
  | .nil                    => ()
  | .cons _ need shape rest => (need.blank shape.blank, rest.blank)

end

end SoapBindings.Json

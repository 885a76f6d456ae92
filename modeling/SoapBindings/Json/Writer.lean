import SoapBindings.Json.Shape
import SoapBindings.Json.Value
-- The JSON value for a value of a shape. A record is an object of its fields in their order,
-- without the optional ones that it holds nothing for.

namespace SoapBindings.Json

namespace Need

def members {α : Type} (name : String) (write : α → Value) :
    (need : Need) → need.Held α → List (String × Value)
  | .required,  v      => [(name, write v)]
  | .defaulted, v      => [(name, write v)]
  | .optional,  some v => [(name, write v)]
  | .optional,  none   => []

end Need

mutual

def Shape.write : (shape : Shape) → shape.Value → Value
  | .text, s                => .string s
  | .list item, vs          => .array (vs.map item.write)
  | .record _ fields, value => .object (fields.write value)

def Fields.write : (fields : Fields) → fields.Value → List (String × Value)
  | .nil, ()                                 => []
  | .cons name need shape rest, (value, values) =>
    need.members name shape.write value ++ rest.write values

end

def Shape.writeText (shape : Shape) (value : shape.Value) : String :=
  (shape.write value).compactText

end SoapBindings.Json

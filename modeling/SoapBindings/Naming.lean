import SoapBindings.Inflection
import SoapBindings.Service
-- The identifiers by which a host program knows message parts and what they refer to.

namespace SoapBindings

-- A strategy is a function of what it names, so it gives one answer to one question.
structure NamingStrategy where
  propertyName : Part → String
  typeName     : QName → String
  itemName     : QName → String

namespace NamingStrategy

-- In local names a dot separates words, as a space does.
def dotless (name : String) : String :=
  .ofList (name.toList.map fun c => if c = '.' then ' ' else c)

def typeSuffix : String :=
  "Type"

def withTypeSuffix (name : String) : String :=
  if name.isEmpty || typeSuffix.toList.isSuffixOf name.toList then name else name ++ typeSuffix

-- Types are named after their local name, with a suffix that is not repeated. Elements are named
-- after their local name as it is.
def short : NamingStrategy where
  propertyName part := camelize (dotless part.name)
  typeName type     := withTypeSuffix (classify (dotless type.name))
  itemName element  := classify (dotless element.name)

end NamingStrategy
end SoapBindings

-- Descriptions of web services, one for each port that a service offers. A service with several
-- ports has as many descriptions, which share its name.

namespace SoapBindings

structure QName where
  nspace : String
  name   : String
  deriving DecidableEq, Repr

-- The name of a part that refers to nothing.
def QName.empty : QName where
  nspace := ""
  name   := ""

-- A part of a message refers to a type or to a global element.
structure Part where
  name    : String
  type    : Option QName
  element : Option QName
  deriving DecidableEq, Repr

namespace Part

def typed (name : String) (type : QName) : Part where
  name    := name
  type    := some type
  element := none

def ofElement (name : String) (element : QName) : Part where
  name    := name
  type    := none
  element := some element

end Part

structure Message where
  name  : String
  parts : List Part
  deriving DecidableEq, Repr

-- One direction of an operation: the binding operation that owns the message, after which classes
-- are named, and the abstract message that lists the parts.
structure OperationMessage where
  operation : String
  message   : Message
  deriving DecidableEq, Repr

structure Fault where
  name    : String
  message : Option Message
  deriving DecidableEq, Repr

structure Operation where
  name            : String
  action          : String
  style           : String
  targetNamespace : String
  input           : OperationMessage
  output          : OperationMessage
  faults          : List Fault
  deriving DecidableEq, Repr

structure Service where
  service    : String
  port       : String
  address    : String
  operations : List Operation
  deriving DecidableEq, Repr

end SoapBindings

import SoapBindings.StringMap
-- What a host program needs to know of its services: a tree of services, ports, operations,
-- messages and parts, each level a map.

namespace SoapBindings

structure MessageMetadata where
  messageClass : String
  headersClass : String
  partClass    : String
  parts        : StringMap String
  deriving DecidableEq

-- Nothing is derived for faults, so their map stays empty.
structure OperationMetadata where
  action : String
  style  : String
  name   : String
  method : String
  input  : MessageMetadata
  output : MessageMetadata
  fault  : StringMap String
  deriving DecidableEq

structure PortMetadata where
  operations : StringMap OperationMetadata
  unwrap     : Bool
  endpoint   : String
  deriving DecidableEq

abbrev Metadata := StringMap (StringMap PortMetadata)

namespace Metadata

-- The record of a port as a whole takes the place of an earlier one. The other ports stay.
def record (tree : Metadata) (service port : String) (data : PortMetadata) : Metadata :=
  tree.insert service (((tree.find? service).getD ∅).insert port data)

def port? (tree : Metadata) (service port : String) : Option PortMetadata :=
  tree.find? service >>= (·.find? port)

end Metadata
end SoapBindings

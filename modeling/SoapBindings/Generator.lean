import SoapBindings.Journal
import SoapBindings.Metadata
import SoapBindings.Naming
-- Generation of metadata. A generator is a naming strategy with its settings. It turns a list of
-- service descriptions into a tree, or fails with the first namespace that it cannot resolve.

namespace SoapBindings

inductive Direction where
  | input
  | output
  deriving DecidableEq, Repr

def Direction.label : Direction → String
  | .input  => "Input"
  | .output => "Output"

-- The namespaces below a host namespace in which the classes for headers, parts and messages live.
structure BaseNamespaces where
  headers  : String := "\\SoapEnvelope\\Headers"
  parts    : String := "\\SoapEnvelope\\Parts"
  messages : String := "\\SoapEnvelope\\Messages"
  deriving DecidableEq, Repr

namespace BaseNamespaces

inductive Key where
  | headers
  | parts
  | messages
  deriving DecidableEq, Repr

def Key.ofString? : String → Option Key
  | "headers"  => some .headers
  | "parts"    => some .parts
  | "messages" => some .messages
  | _          => none

def get (base : BaseNamespaces) : Key → String
  | .headers  => base.headers
  | .parts    => base.parts
  | .messages => base.messages

def set (base : BaseNamespaces) : Key → String → BaseNamespaces
  | .headers,  nspace => { base with headers := nspace }
  | .parts,    nspace => { base with parts := nspace }
  | .messages, nspace => { base with messages := nspace }

end BaseNamespaces

inductive GenerateError where
  | unresolvedNamespace (nspace : String)
  deriving DecidableEq, Repr

def GenerateError.message : GenerateError → String
  | unresolvedNamespace nspace =>
    s!"Unable to find a host namespace associated with '{nspace}' XML namespace"

structure Generator where
  naming     : NamingStrategy
  namespaces : StringMap String
  endpoints  : StringMap (StringMap String) := ∅
  base       : BaseNamespaces := {}
  unwrap     : Bool := false

namespace Generator

def addAlternativeEndpoint (g : Generator) (service port endpoint : String) : Generator :=
  let ports := (g.endpoints.find? service).getD ∅
  { g with endpoints := g.endpoints.insert service (ports.insert port endpoint) }

def setUnwrap (g : Generator) (unwrap : Bool) : Generator :=
  { g with unwrap }

-- A key that stands for no kind of class is reported and changes nothing.
def setBaseNamespace (g : Generator) (key nspace : String) : Journaled Generator :=
  match BaseNamespaces.Key.ofString? key with
  | some k => return { g with base := g.base.set k nspace }
  | none   => do
    Journaled.note (.unknownNamespaceKey key)
    return g

def setBaseNamespaces (g : Generator) (pairs : List (String × String)) : Journaled Generator :=
  pairs.foldlM (fun g (key, nspace) => g.setBaseNamespace key nspace) g

def endpoint? (g : Generator) (service port : String) : Option String :=
  g.endpoints.find? service >>= (·.find? port)

def resolve (g : Generator) (nspace : String) : Except GenerateError String :=
  match g.namespaces.find? nspace with
  | some host => .ok host
  | none      => .error (.unresolvedNamespace nspace)

def propertyName (g : Generator) (part : Part) : Journaled String := do
  Journaled.report (.inquiry (.property part))
  return g.naming.propertyName part

def typeName (g : Generator) (type : QName) : Journaled String := do
  Journaled.report (.inquiry (.type type))
  return g.naming.typeName type

def itemName (g : Generator) (element : QName) : Journaled String := do
  Journaled.report (.inquiry (.item element))
  return g.naming.itemName element

-- The name of what a part refers to: its type, whatever its element, or else its element. A part
-- that refers to nothing is reported and counts as one with an empty element.
def referenceName (g : Generator) (part : Part) : Journaled String :=
  match part.type, part.element with
  | some type, _            => g.typeName type
  | none,      some element => g.itemName element
  | none,      none         => do
    Journaled.note (.untypedPart part.name)
    g.itemName .empty

-- A property that an earlier part has taken is reported, and the later part keeps it.
def addPart (g : Generator) (table : StringMap String) (part : Part) :
    Journaled (StringMap String) := do
  let property ← g.propertyName part
  let name ← g.referenceName part
  match table.find? property with
  | some previous => Journaled.note (.replacedName part.name previous property)
  | none          => pure ()
  return table.insert property name

def partTable (g : Generator) (parts : List Part) : Journaled (StringMap String) :=
  parts.foldlM g.addPart ∅

-- The full name of a class: host namespace, base namespace, and the class of the binding operation
-- with its direction.
def className (host base : String) (message : OperationMessage) (direction : Direction) : String :=
  host ++ base ++ "\\" ++ classify message.operation ++ direction.label

def messageMetadata (g : Generator) (host : String) (message : OperationMessage)
    (direction : Direction) : Journaled MessageMetadata := do
  let parts ← g.partTable message.message.parts
  return {
    messageClass := className host g.base.messages message direction
    headersClass := className host g.base.headers message direction
    partClass    := className host g.base.parts message direction
    parts        := parts
  }

-- A computation that may fail, with the report of what it did up to there.
abbrev Generating := ExceptT GenerateError Journaled

def announce (operation : Operation) : Journaled Unit := do
  Journaled.note (.generatingOperation operation.name)
  operation.faults.forM fun fault =>
    Journaled.note (.discardingFault fault.name operation.name)

def operationMetadata (g : Generator) (operation : Operation) : Generating OperationMetadata := do
  announce operation
  let host ← liftExcept (g.resolve operation.targetNamespace)
  let input ← g.messageMetadata host operation.input .input
  let output ← g.messageMetadata host operation.output .output
  return {
    action := operation.action
    style  := operation.style
    name   := operation.name
    method := camelize operation.name
    input  := input
    output := output
    fault  := ∅
  }
where
  liftExcept {α : Type} (x : Except GenerateError α) : Generating α :=
    ExceptT.mk (pure x)

-- Later operations of a name take the place of earlier ones.
def operationTable (g : Generator) (operations : List Operation) :
    Generating (StringMap OperationMetadata) :=
  operations.foldlM
    (fun table operation => return table.insert operation.name (← g.operationMetadata operation)) ∅

def portMetadata (g : Generator) (service : Service) : Generating PortMetadata := do
  Journaled.note (.generatingPort service.service service.port)
  let operations ← g.operationTable service.operations
  return {
    operations := operations
    unwrap     := g.unwrap
    endpoint   := (g.endpoint? service.service service.port).getD service.address
  }

def addService (g : Generator) (tree : Metadata) (service : Service) : Generating Metadata :=
  return tree.record service.service service.port (← g.portMetadata service)

-- One failing operation fails the whole call, and then there is no tree.
def generate (g : Generator) (services : List Service) : Generating Metadata :=
  services.foldlM g.addService ∅

end Generator
end SoapBindings

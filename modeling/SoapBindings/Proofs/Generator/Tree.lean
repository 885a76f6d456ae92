import SoapBindings.Proofs.Generator.Resolution
-- The tree that a generation gives, entry by entry. At each level the last of the items that share
-- a key makes what stands under this key, and nothing is left of the others.

namespace SoapBindings

attribute [ext] MessageMetadata OperationMetadata PortMetadata

namespace Generator

open Generating

-- What stands in the metadata for one direction of an operation, with the label of the direction.
structure MakesMessage (g : Generator) (host label : String) (message : OperationMessage)
    (data : MessageMetadata) : Prop where
  messageClass : data.messageClass =
    host ++ g.base.messages ++ "\\" ++ classify message.operation ++ label
  headersClass : data.headersClass =
    host ++ g.base.headers ++ "\\" ++ classify message.operation ++ label
  partClass    : data.partClass =
    host ++ g.base.parts ++ "\\" ++ classify message.operation ++ label
  parts        : Tabulated g.naming.propertyName
    (fun part name => name = g.naming.referredName part) message.message.parts data.parts.find?

structure MakesOperation (g : Generator) (operation : Operation) (data : OperationMetadata) :
    Prop where
  action   : data.action = operation.action
  style    : data.style = operation.style
  name     : data.name = operation.name
  method   : data.method = camelize operation.name
  fault    : data.fault = ∅
  messages : ∃ host, g.namespaces.find? operation.targetNamespace = some host ∧
    g.MakesMessage host "Input" operation.input data.input ∧
    g.MakesMessage host "Output" operation.output data.output

-- An endpoint that is registered for the port takes the place of its address.
structure MakesPort (g : Generator) (service : Service) (data : PortMetadata) : Prop where
  unwrap     : data.unwrap = g.unwrap
  endpoint   : data.endpoint =
    ((g.endpoints.find? service.service).bind (·.find? service.port)).getD service.address
  operations : Tabulated Operation.name g.MakesOperation service.operations data.operations.find?

variable {g : Generator}

theorem MakesMessage.deterministic {host label : String} {message : OperationMessage}
    {m₁ m₂ : MessageMetadata} (h₁ : g.MakesMessage host label message m₁)
    (h₂ : g.MakesMessage host label message m₂) : m₁ = m₂ := by
  ext1
  case messageClass => rw [h₁.messageClass, h₂.messageClass]
  case headersClass => rw [h₁.headersClass, h₂.headersClass]
  case partClass    => rw [h₁.partClass, h₂.partClass]
  case parts        => exact StringMap.eq_of_tabulated h₁.parts h₂.parts

theorem makesMessage_messageRecord (g : Generator) (host : String) (message : OperationMessage)
    (direction : Direction) :
    g.MakesMessage host direction.label message (g.messageRecord host message direction) where
  messageClass := rfl
  headersClass := rfl
  partClass    := rfl
  parts        := StringMap.tabulated_tabulate fun _ _ _ => .rfl

theorem MakesOperation.deterministic {operation : Operation} {o₁ o₂ : OperationMetadata}
    (h₁ : g.MakesOperation operation o₁) (h₂ : g.MakesOperation operation o₂) : o₁ = o₂ := by
  have ⟨host₁, hh₁, hi₁, ho₁⟩ := h₁.messages
  have ⟨host₂, hh₂, hi₂, ho₂⟩ := h₂.messages
  cases hh₁.symm.trans hh₂
  ext1
  case action => rw [h₁.action, h₂.action]
  case style  => rw [h₁.style, h₂.style]
  case name   => rw [h₁.name, h₂.name]
  case method => rw [h₁.method, h₂.method]
  case input  => exact hi₁.deterministic hi₂
  case output => exact ho₁.deterministic ho₂
  case fault  => rw [h₁.fault, h₂.fault]

theorem makesOperation_operationRecord {operation : Operation} (h : g.Resolves operation) :
    g.MakesOperation operation (g.operationRecord operation) where
  action := rfl
  style  := rfl
  name   := rfl
  method := rfl
  fault  := rfl
  messages := by
    have ⟨host, hh⟩ := Option.isSome_iff_exists.mp (StringMap.mem_keys_iff.mp h)
    have he : g.hostOf operation = host := by simp [hostOf, hh]
    refine ⟨host, hh, ?input, ?output⟩
    case input  => exact he ▸ g.makesMessage_messageRecord _ operation.input .input
    case output => exact he ▸ g.makesMessage_messageRecord _ operation.output .output

theorem MakesPort.deterministic {service : Service} {p₁ p₂ : PortMetadata}
    (h₁ : g.MakesPort service p₁) (h₂ : g.MakesPort service p₂) : p₁ = p₂ := by
  ext1
  case operations => exact StringMap.eq_of_tabulated h₁.operations h₂.operations
  case unwrap     => rw [h₁.unwrap, h₂.unwrap]
  case endpoint   => rw [h₁.endpoint, h₂.endpoint]

theorem makesPort_portRecord {service : Service} (h : ∀ o ∈ service.operations, g.Resolves o) :
    g.MakesPort service (g.portRecord service) where
  unwrap   := rfl
  endpoint := rfl
  operations := by
    refine StringMap.tabulated_tabulate fun o hm data => ?_
    have ho := makesOperation_operationRecord (h o hm)
    constructor
    case mp  => exact fun hd => hd.deterministic ho
    case mpr => exact fun hd => hd ▸ ho

theorem makesPort_iff {service : Service} (h : ∀ o ∈ service.operations, g.Resolves o)
    {data : PortMetadata} : g.MakesPort service data ↔ data = g.portRecord service := by
  have hp := makesPort_portRecord h
  constructor
  case mp  => exact fun hd => hd.deterministic hp
  case mpr => exact fun hd => hd ▸ hp

-- The tree has the ports of the list and no others, and no service without a port. Each port is
-- made of the last entry for it alone.
theorem generate_tabulated (g : Generator) (services : List Service) (tree : Metadata)
    (h : (g.generate services).outcome = .ok tree) :
    Tabulated (fun s => (s.service, s.port)) g.MakesPort services
      (fun (service, port) => tree.port? service port) ∧
    ∀ service ports, tree.find? service = some ports → ports.keys ≠ [] := by
  have ⟨hr, ht⟩ := generate_eq_ok_iff.mp h
  subst ht
  constructor
  case left =>
    have hm (s : Service) (hs : s ∈ services) (data : PortMetadata) :
        g.MakesPort s data ↔ data = g.portRecord s :=
      makesPort_iff (hr s hs)
    exact .of_findRev? hm fun (service, port) => port?_tree services service port
  case right => exact fun service ports => exists_port_of_find?_tree

-- A shop whose one port is listed twice, and whose operation stands twice in the second entry.
namespace Shop

def generator : Generator where
  naming     := .short
  namespaces := .ofList [("urn:shop", "\\Shop")]
  endpoints  := .ofList [("Shop", .ofList [("Soap", "http://localhost")])]

def find (action : String) (parts : List Part) : Operation where
  name            := "find_item"
  action          := action
  style           := "document"
  targetNamespace := "urn:shop"
  input           := { operation := "find_item", message := { name := "Query", parts } }
  output          := { operation := "find_item", message := { name := "Answer", parts := [] } }
  faults          := []

def entry (address : String) (operations : List Operation) : Service where
  service    := "Shop"
  port       := "Soap"
  address    := address
  operations := operations

def former : Service :=
  entry "http://former" [find "former" []]

-- The names of both parts give one property.
def latter : Service :=
  entry "http://latter" [
    find "first" [],
    find "second" [.typed "item.id" ⟨"urn:shop", "id"⟩, .ofElement "itemId" ⟨"urn:shop", "key"⟩]]

end Shop

theorem generate_tabulated_shop :
    (Shop.generator.generate [Shop.former, Shop.latter]).outcome =
      .ok (Shop.generator.tree [Shop.former, Shop.latter]) ∧
    ∃ data, (Shop.generator.tree [Shop.former, Shop.latter]).port? "Shop" "Soap" = some data ∧
      Shop.generator.MakesPort Shop.latter data ∧
      data.endpoint = "http://localhost" ∧
      (data.operations.find? "find_item").map (fun o => (o.action, o.input.parts.entries)) =
        some ("second", [("itemId", "Key")]) := by
  have h : (Shop.generator.generate [Shop.former, Shop.latter]).outcome =
      .ok (Shop.generator.tree [Shop.former, Shop.latter]) :=
    generate_eq_ok_iff.mpr ⟨by decide, rfl⟩
  have ⟨ht, _⟩ := generate_tabulated _ _ _ h
  have hl : Last (fun s => (s.service, s.port) = ("Shop", "Soap")) [Shop.former, Shop.latter]
      Shop.latter :=
    ⟨rfl, [Shop.former], [], rfl, by simp⟩
  have hm : Shop.generator.MakesPort Shop.latter (Shop.generator.portRecord Shop.latter) :=
    makesPort_portRecord (by decide)
  have hp := (ht.eq_some_iff ("Shop", "Soap") _).mpr ⟨Shop.latter, hl, hm⟩
  exact ⟨h, _, hp, hm, by decide, by decide +kernel⟩

end Generator
end SoapBindings

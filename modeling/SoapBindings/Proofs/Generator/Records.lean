import SoapBindings.Proofs.Generating
import SoapBindings.Proofs.Metadata
-- What a generator makes of parts, messages, operations and ports, without a report and without
-- failures: a namespace that does not resolve counts as empty here. A generation that does not fail
-- has the tree of these records as its value.

namespace SoapBindings

-- The name of what a part refers to.
def NamingStrategy.referredName (n : NamingStrategy) (part : Part) : String :=
  match part.type, part.element with
  | some type, _            => n.typeName type
  | none,      some element => n.itemName element
  | none,      none         => n.itemName .empty

theorem Journaled.value_foldlM {α σ : Type} (step : σ → α → Journaled σ) (s : σ) (l : List α) :
    (l.foldlM step s).value = l.foldl (fun s a => (step s a).value) s := by
  induction l generalizing s
  case nil => rfl
  case cons a l hi => rw [List.foldlM_cons, value_bind, hi, List.foldl_cons]

namespace Generator

def partNames (g : Generator) (parts : List Part) : StringMap String :=
  .tabulate g.naming.propertyName g.naming.referredName parts

def messageRecord (g : Generator) (host : String) (message : OperationMessage)
    (direction : Direction) : MessageMetadata where
  messageClass := className host g.base.messages message direction
  headersClass := className host g.base.headers message direction
  partClass    := className host g.base.parts message direction
  parts        := g.partNames message.message.parts

def hostOf (g : Generator) (operation : Operation) : String :=
  (g.namespaces.find? operation.targetNamespace).getD ""

def operationRecord (g : Generator) (operation : Operation) : OperationMetadata where
  action := operation.action
  style  := operation.style
  name   := operation.name
  method := camelize operation.name
  input  := g.messageRecord (g.hostOf operation) operation.input .input
  output := g.messageRecord (g.hostOf operation) operation.output .output
  fault  := ∅

def operationRecords (g : Generator) (operations : List Operation) : StringMap OperationMetadata :=
  .tabulate Operation.name g.operationRecord operations

def portRecord (g : Generator) (service : Service) : PortMetadata where
  operations := g.operationRecords service.operations
  unwrap     := g.unwrap
  endpoint   := (g.endpoint? service.service service.port).getD service.address

def tree (g : Generator) (services : List Service) : Metadata :=
  services.foldl (fun tree s => tree.record s.service s.port (g.portRecord s)) ∅

theorem value_propertyName (g : Generator) (part : Part) :
    (g.propertyName part).value = g.naming.propertyName part := rfl

theorem value_referenceName (g : Generator) (part : Part) :
    (g.referenceName part).value = g.naming.referredName part := by
  cases ht : part.type <;> cases he : part.element <;>
    simp [referenceName, NamingStrategy.referredName, ht, he, typeName, itemName]

theorem value_addPart (g : Generator) (table : StringMap String) (part : Part) :
    (g.addPart table part).value =
      table.insert (g.naming.propertyName part) (g.naming.referredName part) := by
  cases h : table.find? (g.naming.propertyName part) <;>
    simp [addPart, value_propertyName, value_referenceName, h]

theorem value_partTable (g : Generator) (parts : List Part) :
    (g.partTable parts).value = g.partNames parts := by
  simp only [partTable, Journaled.value_foldlM, value_addPart]
  rfl

theorem value_messageMetadata (g : Generator) (host : String) (message : OperationMessage)
    (direction : Direction) :
    (g.messageMetadata host message direction).value = g.messageRecord host message direction := by
  simp [messageMetadata, value_partTable, messageRecord]

variable {g : Generator}

-- A message is seen through the operation that owns it and the names of its parts.
theorem messageRecord_congr {m m' : OperationMessage} (ho : m'.operation = m.operation)
    (hp : g.partNames m'.message.parts = g.partNames m.message.parts) (host : String)
    (direction : Direction) :
    g.messageRecord host m' direction = g.messageRecord host m direction := by
  simp only [messageRecord, className, ho, hp]

theorem operationRecord_congr {o o' : Operation} (hn : o'.name = o.name)
    (ha : o'.action = o.action) (hs : o'.style = o.style)
    (ht : o'.targetNamespace = o.targetNamespace)
    (hi : ∀ host, g.messageRecord host o'.input .input = g.messageRecord host o.input .input)
    (ho : ∀ host, g.messageRecord host o'.output .output = g.messageRecord host o.output .output) :
    g.operationRecord o' = g.operationRecord o := by
  have hh : g.hostOf o' = g.hostOf o := by
    rw [hostOf, hostOf, ht]
  rw [operationRecord, operationRecord, hh, hn, ha, hs, hi, ho]

-- A tree is made of the names and records of ports, whatever they come from.
theorem tree_eq_of_map_eq {h : Generator} {l l' : List Service}
    (hm : l.map (fun s => (s.service, s.port, g.portRecord s)) =
      l'.map fun s => (s.service, s.port, h.portRecord s)) : g.tree l = h.tree l' := by
  have ht (g : Generator) (l : List Service) :
      g.tree l = (l.map fun s => (s.service, s.port, g.portRecord s)).foldl
        (fun tree s => tree.record s.1 s.2.1 s.2.2) ∅ := by
    rw [List.foldl_map, tree]
  rw [ht, ht, hm]

theorem tree_append_singleton (services : List Service) (s : Service) :
    g.tree (services ++ [s]) = (g.tree services).record s.service s.port (g.portRecord s) := by
  simp [tree]

-- The last entry for a port makes its record.
theorem port?_tree (services : List Service) (service port : String) :
    (g.tree services).port? service port =
      (services.findRev? fun s => (s.service, s.port) = (service, port)).map g.portRecord := by
  induction services using List.reverseRecOn
  case nil => rfl
  case append_singleton services s hi =>
    rw [tree_append_singleton, Metadata.port?_record, hi]
    by_cases h : s.service = service ∧ s.port = port
    case pos => simp [h]
    case neg =>
      have h' : ¬(service = s.service ∧ port = s.port) := fun ⟨hs, hp⟩ => h ⟨hs.symm, hp.symm⟩
      simp [h, h']

theorem port?_tree_of_nodup {services : List Service} {s : Service}
    (hn : (services.map fun s => (s.service, s.port)).Nodup) (hs : s ∈ services) :
    (g.tree services).port? s.service s.port = some (g.portRecord s) := by
  have hl := (last_iff_of_nodup hn).mpr ⟨hs, rfl⟩
  rw [port?_tree, findRev?_eq_some_iff.mpr hl, Option.map_some]

theorem populated_tree (g : Generator) (services : List Service) : (g.tree services).Populated := by
  induction services using List.reverseRecOn
  case nil => exact Metadata.populated_empty
  case append_singleton services s hi =>
    rw [tree_append_singleton]
    exact hi.record s.service s.port _

-- A service is in the tree for a port that it has.
theorem exists_port_of_find?_tree {services : List Service} {service : String}
    {ports : StringMap PortMetadata} (h : (g.tree services).find? service = some ports) :
    ports.keys ≠ [] :=
  g.populated_tree services service ports h

-- The services of the tree are those of the list.
theorem mem_keys_tree_iff {services : List Service} {service : String} :
    service ∈ (g.tree services).keys ↔ service ∈ services.map Service.service := by
  rw [StringMap.mem_keys_iff]
  induction services using List.reverseRecOn
  case nil => simp [tree]
  case append_singleton services s hi =>
    rw [tree_append_singleton, Metadata.find?_record]
    by_cases h : service = s.service
    case pos => simp [h]
    case neg =>
      rw [if_neg h, hi]
      simp [h]

end Generator
end SoapBindings

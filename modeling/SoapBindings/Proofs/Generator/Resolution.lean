import SoapBindings.Proofs.Generator.Records
-- When a generation fails. The one thing that goes wrong is an operation whose namespace has no
-- host namespace, and the first such operation decides the error.

namespace SoapBindings

-- A place in a list of services where an operation stands.
structure Place (services : List Service) where
  before        : List Service
  service       : Service
  after         : List Service
  earlier       : List Operation
  operation     : Operation
  later         : List Operation
  services_eq   : services = before ++ service :: after
  operations_eq : service.operations = earlier ++ operation :: later

theorem Place.mem_services {services : List Service} (p : Place services) :
    p.service ∈ services := by
  have h := p.services_eq
  simp [h]

theorem Place.mem_operations {services : List Service} (p : Place services) :
    p.operation ∈ p.service.operations := by
  simp [p.operations_eq]

namespace Generator

open Generating

def Resolves (g : Generator) (operation : Operation) : Prop :=
  operation.targetNamespace ∈ g.namespaces.keys

instance (g : Generator) (operation : Operation) : Decidable (g.Resolves operation) :=
  inferInstanceAs (Decidable (_ ∈ _))

-- The operation at a place does not resolve, and all operations before this place do.
structure FirstUnresolved (g : Generator) {services : List Service} (p : Place services) :
    Prop where
  before     : ∀ s ∈ p.before, ∀ o ∈ s.operations, g.Resolves o
  earlier    : ∀ o ∈ p.earlier, g.Resolves o
  unresolved : ¬g.Resolves p.operation

def operationFlaw (g : Generator) (operation : Operation) : Option GenerateError :=
  if g.Resolves operation then none else some (.unresolvedNamespace operation.targetNamespace)

def portFlaw (g : Generator) (service : Service) : Option GenerateError :=
  service.operations.findSome? g.operationFlaw

variable {g : Generator}

theorem operationFlaw_eq_none_iff {operation : Operation} :
    g.operationFlaw operation = none ↔ g.Resolves operation := by
  simp [operationFlaw]

theorem operationFlaw_eq_some_iff {operation : Operation} {e : GenerateError} :
    g.operationFlaw operation = some e ↔
      ¬g.Resolves operation ∧ e = .unresolvedNamespace operation.targetNamespace := by
  simp [operationFlaw, eq_comm]

theorem portFlaw_eq_none_iff {service : Service} :
    g.portFlaw service = none ↔ ∀ o ∈ service.operations, g.Resolves o := by
  simp only [portFlaw, List.findSome?_eq_none_iff, operationFlaw_eq_none_iff]

theorem FirstUnresolved.portFlaw_eq {services : List Service} {p : Place services}
    (h : g.FirstUnresolved p) :
    g.portFlaw p.service = some (.unresolvedNamespace p.operation.targetNamespace) :=
  List.findSome?_eq_some_iff.mpr ⟨p.earlier, p.operation, p.later, p.operations_eq,
    operationFlaw_eq_some_iff.mpr ⟨h.unresolved, rfl⟩,
    fun o hm => operationFlaw_eq_none_iff.mpr (h.earlier o hm)⟩

theorem resolve_eq (g : Generator) (operation : Operation) :
    g.resolve operation.targetNamespace =
      verdict (g.operationFlaw operation) (g.hostOf operation) := by
  cases h : g.namespaces.find? operation.targetNamespace <;>
    simp [resolve, operationFlaw, Resolves, StringMap.mem_keys_iff, hostOf, verdict, h]

@[simp] theorem outcome_liftExcept {α : Type} (x : Except GenerateError α) :
    (operationMetadata.liftExcept x).outcome = x := rfl

@[simp] theorem events_liftExcept {α : Type} (x : Except GenerateError α) :
    (operationMetadata.liftExcept x).events = [] := rfl

theorem outcome_operationMetadata (g : Generator) (operation : Operation) :
    (g.operationMetadata operation).outcome =
      verdict (g.operationFlaw operation) (g.operationRecord operation) := by
  cases h : g.operationFlaw operation <;>
    simp [operationMetadata, resolve_eq, h, verdict, value_messageMetadata, operationRecord]

theorem step_operation (g : Generator) :
    Step
      (fun (table : StringMap OperationMetadata) (operation : Operation) =>
        return table.insert operation.name (← g.operationMetadata operation))
      g.operationFlaw
      (fun table operation => table.insert operation.name (g.operationRecord operation))
      (fun operation => (g.operationMetadata operation).events) where
  outcome table operation := by
    cases h : g.operationFlaw operation <;> simp [outcome_operationMetadata, h, verdict]
  events table operation := by
    cases h : g.operationFlaw operation <;> simp [outcome_operationMetadata, h, verdict]

theorem outcome_operationTable (g : Generator) (operations : List Operation) :
    (g.operationTable operations).outcome =
      verdict (operations.findSome? g.operationFlaw) (g.operationRecords operations) :=
  g.step_operation.outcome_foldlM ∅ operations

theorem outcome_portMetadata (g : Generator) (service : Service) :
    (g.portMetadata service).outcome = verdict (g.portFlaw service) (g.portRecord service) := by
  cases h : service.operations.findSome? g.operationFlaw <;>
    simp [portMetadata, outcome_operationTable, portFlaw, h, verdict, portRecord]

theorem step_service (g : Generator) :
    Step g.addService g.portFlaw (fun tree s => tree.record s.service s.port (g.portRecord s))
      (fun service => (g.portMetadata service).events) where
  outcome tree service := by
    cases h : g.portFlaw service <;> simp [addService, outcome_portMetadata, h, verdict]
  events tree service := by
    cases h : g.portFlaw service <;> simp [addService, outcome_portMetadata, h, verdict]

theorem outcome_generate (g : Generator) (services : List Service) :
    (g.generate services).outcome = verdict (services.findSome? g.portFlaw) (g.tree services) :=
  g.step_service.outcome_foldlM ∅ services

theorem generate_eq_ok_iff {services : List Service} {tree : Metadata} :
    (g.generate services).outcome = .ok tree ↔
      (∀ s ∈ services, ∀ o ∈ s.operations, g.Resolves o) ∧ tree = g.tree services := by
  rw [outcome_generate, verdict_eq_ok_iff, List.findSome?_eq_none_iff, eq_comm (a := tree)]
  simp only [portFlaw_eq_none_iff]

theorem generate_eq_error_iff {services : List Service} {e : GenerateError} :
    (g.generate services).outcome = .error e ↔
      ∃ p : Place services, g.FirstUnresolved p ∧
        e = .unresolvedNamespace p.operation.targetNamespace := by
  rw [outcome_generate, verdict_eq_error_iff, List.findSome?_eq_some_iff]
  constructor
  case mp =>
    intro ⟨before, service, after, hs, hf, hb⟩
    have ⟨earlier, operation, later, ho, hu, he⟩ := List.findSome?_eq_some_iff.mp hf
    have ⟨hu, he'⟩ := operationFlaw_eq_some_iff.mp hu
    let p : Place services := ⟨before, service, after, earlier, operation, later, hs, ho⟩
    have hp : g.FirstUnresolved p := {
      before     := fun s hm => portFlaw_eq_none_iff.mp (hb s hm)
      earlier    := fun o hm => operationFlaw_eq_none_iff.mp (he o hm)
      unresolved := hu
    }
    exact ⟨p, hp, he'⟩
  case mpr =>
    intro ⟨p, hp, he⟩
    exact ⟨p.before, p.service, p.after, p.services_eq, he ▸ hp.portFlaw_eq,
      fun s hm => portFlaw_eq_none_iff.mpr (hp.before s hm)⟩

-- A generation fails for any operation without a host namespace, also for one that a later entry
-- or a later operation takes the place of. The error has the namespace of the first one.
theorem generate_fails_iff (g : Generator) (services : List Service) :
    ((∃ e, (g.generate services).outcome = .error e) ↔
      ∃ s ∈ services, ∃ o ∈ s.operations, o.targetNamespace ∉ g.namespaces.keys) ∧
    ((∃ tree, (g.generate services).outcome = .ok tree) ↔
      ∀ s ∈ services, ∀ o ∈ s.operations, o.targetNamespace ∈ g.namespaces.keys) ∧
    ∀ e, (g.generate services).outcome = .error e ↔
      ∃ p : Place services, g.FirstUnresolved p ∧
        e = .unresolvedNamespace p.operation.targetNamespace := by
  have hok : (∃ tree, (g.generate services).outcome = .ok tree) ↔
      ∀ s ∈ services, ∀ o ∈ s.operations, g.Resolves o := by
    simp [generate_eq_ok_iff]
  refine ⟨?fails, hok, fun e => generate_eq_error_iff⟩
  case fails =>
    constructor
    case mp =>
      intro ⟨e, he⟩
      have ⟨p, hp, _⟩ := generate_eq_error_iff.mp he
      exact ⟨p.service, p.mem_services, p.operation, p.mem_operations, hp.unresolved⟩
    case mpr =>
      intro ⟨s, hs, o, ho, hn⟩
      cases h : (g.generate services).outcome
      case ok tree => exact absurd (hok.mp ⟨tree, h⟩ s hs o ho) hn
      case error e => exact ⟨e, rfl⟩

end Generator
end SoapBindings

import SoapBindings.Metadata.Format
import SoapBindings.Proofs.Generator.Script
-- Descriptions in another order. Where no port, operation or property is there twice, the order of
-- services, operations and parts is not seen in the tree.

namespace SoapBindings

-- A list in another order, whose members may be arranged differently in themselves as well.
def Rearranged {α : Type} (r : α → α → Prop) (l l' : List α) : Prop :=
  ∃ m, List.Forall₂ r l m ∧ m.Perm l'

structure Message.Rearranged (m m' : Message) : Prop where
  name  : m'.name = m.name
  parts : m.parts.Perm m'.parts

structure OperationMessage.Rearranged (m m' : OperationMessage) : Prop where
  operation : m'.operation = m.operation
  message   : m.message.Rearranged m'.message

structure Fault.Rearranged (f f' : Fault) : Prop where
  name    : f'.name = f.name
  message : Option.Rel Message.Rearranged f.message f'.message

structure Operation.Rearranged (o o' : Operation) : Prop where
  name            : o'.name = o.name
  action          : o'.action = o.action
  style           : o'.style = o.style
  targetNamespace : o'.targetNamespace = o.targetNamespace
  input           : o.input.Rearranged o'.input
  output          : o.output.Rearranged o'.output
  faults          : List.Forall₂ Fault.Rearranged o.faults o'.faults

structure Service.Rearranged (s s' : Service) : Prop where
  service    : s'.service = s.service
  port       : s'.port = s.port
  address    : s'.address = s.address
  operations : SoapBindings.Rearranged Operation.Rearranged s.operations s'.operations

-- No property is there twice in a message.
structure Operation.Separate (naming : NamingStrategy) (o : Operation) : Prop where
  input  : (o.input.message.parts.map naming.propertyName).Nodup
  output : (o.output.message.parts.map naming.propertyName).Nodup

-- No operation is there twice in a port.
structure Service.Separate (naming : NamingStrategy) (s : Service) : Prop where
  names    : (s.operations.map Operation.name).Nodup
  messages : ∀ o ∈ s.operations, o.Separate naming

-- No port is there twice in a list.
structure Separate (naming : NamingStrategy) (services : List Service) : Prop where
  ports      : (services.map fun s => (s.service, s.port)).Nodup
  operations : ∀ s ∈ services, s.Separate naming

section

variable (naming : NamingStrategy)

instance (o : Operation) : Decidable (o.Separate naming) :=
  decidable_of_iff (_ ∧ _) ⟨fun ⟨hi, ho⟩ => ⟨hi, ho⟩, fun ⟨hi, ho⟩ => ⟨hi, ho⟩⟩

instance (s : Service) : Decidable (s.Separate naming) :=
  decidable_of_iff (_ ∧ _) ⟨fun ⟨hn, hm⟩ => ⟨hn, hm⟩, fun ⟨hn, hm⟩ => ⟨hn, hm⟩⟩

instance (services : List Service) : Decidable (Separate naming services) :=
  decidable_of_iff (_ ∧ _) ⟨fun ⟨hp, ho⟩ => ⟨hp, ho⟩, fun ⟨hp, ho⟩ => ⟨hp, ho⟩⟩

end

-- Lists in another order.

section

variable {α β : Type} {r : α → α → Prop} {l l' : List α}

theorem map_eq_of_forall₂ {f : α → β} (h : List.Forall₂ r l l')
    (hf : ∀ a ∈ l, ∀ b, r a b → f b = f a) : l.map f = l'.map f := by
  induction h
  case nil => rfl
  case cons a b l l' hr _ hi =>
    have hl : l.map f = l'.map f := hi fun c hc => hf c (List.mem_cons_of_mem _ hc)
    rw [List.map_cons, List.map_cons, hf a List.mem_cons_self b hr, hl]

theorem flatMap_perm_of_forall₂ {f : α → List β} (h : List.Forall₂ r l l')
    (hf : ∀ a b, r a b → (f a).Perm (f b)) : (l.flatMap f).Perm (l'.flatMap f) := by
  induction h
  case nil => exact .rfl
  case cons a b l l' hr _ hi => exact (hf a b hr).append hi

theorem Rearranged.flatMap_perm {f : α → List β} (h : Rearranged r l l')
    (hf : ∀ a b, r a b → (f a).Perm (f b)) : (l.flatMap f).Perm (l'.flatMap f) := by
  have ⟨m, hr, hp⟩ := h
  exact (flatMap_perm_of_forall₂ hr hf).trans (hp.flatMap_right f)

theorem StringMap.tabulate_eq_of_rearranged {key : α → String} {value : α → β}
    (hn : (l.map key).Nodup) (h : Rearranged r l l')
    (hr : ∀ a ∈ l, ∀ b, r a b → key b = key a ∧ value b = value a) :
    tabulate key value l = tabulate key value l' := by
  have ⟨m, hf, hp⟩ := h
  have hm : l.map (fun a => (key a, value a)) = m.map fun a => (key a, value a) :=
    map_eq_of_forall₂ hf fun a ha b hab => Prod.ext (hr a ha b hab).left (hr a ha b hab).right
  have hk : l.map key = m.map key := map_eq_of_forall₂ hf fun a ha b hab => (hr a ha b hab).left
  rw [tabulate_eq_of_map_eq hm, tabulate_eq_of_perm (hk ▸ hn) hp]

end

-- The namespaces of all operations.
def targets (services : List Service) : List String :=
  services.flatMap fun s => s.operations.map Operation.targetNamespace

theorem mem_targets_iff {services : List Service} {nspace : String} :
    nspace ∈ targets services ↔ ∃ s ∈ services, ∃ o ∈ s.operations, o.targetNamespace = nspace := by
  simp [targets]

theorem targets_perm {services services' : List Service}
    (h : Rearranged Service.Rearranged services services') :
    (targets services).Perm (targets services') := by
  refine h.flatMap_perm fun s s' hs => ?_
  rw [List.map_eq_flatMap, List.map_eq_flatMap]
  exact hs.operations.flatMap_perm fun o o' ho => ho.targetNamespace ▸ .rfl

namespace Generator

variable {g : Generator} {services services' : List Service}

theorem messageRecord_rearranged {m m' : OperationMessage} (h : m.Rearranged m')
    (hn : (m.message.parts.map g.naming.propertyName).Nodup) (host : String)
    (direction : Direction) :
    g.messageRecord host m' direction = g.messageRecord host m direction := by
  have hp : g.partNames m.message.parts = g.partNames m'.message.parts :=
    StringMap.tabulate_eq_of_perm hn h.message.parts
  exact messageRecord_congr h.operation hp.symm host direction

theorem operationRecord_rearranged {o o' : Operation} (h : o.Rearranged o')
    (hs : o.Separate g.naming) : g.operationRecord o' = g.operationRecord o :=
  operationRecord_congr h.name h.action h.style h.targetNamespace
    (fun host => messageRecord_rearranged h.input hs.input host .input)
    (fun host => messageRecord_rearranged h.output hs.output host .output)

theorem portRecord_rearranged {s s' : Service} (h : s.Rearranged s')
    (hs : s.Separate g.naming) : g.portRecord s' = g.portRecord s := by
  have ho : g.operationRecords s.operations = g.operationRecords s'.operations :=
    StringMap.tabulate_eq_of_rearranged hs.names h.operations fun o hm o' hr =>
      ⟨hr.name, operationRecord_rearranged hr (hs.messages o hm)⟩
  rw [portRecord, portRecord, ho, h.service, h.port, h.address]

theorem tree_eq_of_perm (hn : (services.map fun s => (s.service, s.port)).Nodup)
    (hp : services.Perm services') : g.tree services = g.tree services' := by
  refine (g.populated_tree services).ext (g.populated_tree services') fun service port => ?_
  rw [port?_tree, port?_tree, findRev?_eq_of_perm hn hp]

theorem tree_rearranged (hs : Separate g.naming services)
    (h : Rearranged Service.Rearranged services services') :
    g.tree services' = g.tree services := by
  have ⟨l, hf, hp⟩ := h
  have hm : services.map (fun s => (s.service, s.port, g.portRecord s)) =
      l.map fun s => (s.service, s.port, g.portRecord s) := by
    refine map_eq_of_forall₂ hf fun s hm s' hr => ?_
    rw [hr.service, hr.port, portRecord_rearranged hr (hs.operations s hm)]
  have hk : services.map (fun s => (s.service, s.port)) = l.map fun s => (s.service, s.port) :=
    map_eq_of_forall₂ hf fun s _ s' hr => by rw [hr.service, hr.port]
  rw [tree_eq_of_map_eq hm, tree_eq_of_perm (hk ▸ hs.ports) hp]

theorem generate_eq_ok_iff_targets {tree : Metadata} :
    (g.generate services).outcome = .ok tree ↔
      (∀ nspace ∈ targets services, nspace ∈ g.namespaces.keys) ∧ tree = g.tree services := by
  have hr : (∀ s ∈ services, ∀ o ∈ s.operations, g.Resolves o) ↔
      ∀ nspace ∈ targets services, nspace ∈ g.namespaces.keys := by
    simp only [mem_targets_iff]
    constructor
    case mp =>
      rintro h nspace ⟨s, hs, o, ho, rfl⟩
      exact h s hs o ho
    case mpr => exact fun h s hs o ho => h _ ⟨s, hs, o, ho, rfl⟩
  rw [generate_eq_ok_iff, hr]

theorem target_of_generate_eq_error {e : GenerateError}
    (h : (g.generate services).outcome = .error e) :
    ∃ nspace ∈ targets services, nspace ∉ g.namespaces.keys ∧ e = .unresolvedNamespace nspace := by
  have ⟨p, hp, he⟩ := generate_eq_error_iff.mp h
  exact ⟨p.operation.targetNamespace,
    mem_targets_iff.mpr ⟨p.service, p.mem_services, p.operation, p.mem_operations, rfl⟩,
    hp.unresolved, he⟩

-- Where nothing is there twice, the tree and its text are the same in every order. A generation
-- that fails does so in every order, though another operation may then be the first that fails.
theorem generate_rearranged (g : Generator) (services services' : List Service)
    (hs : Separate g.naming services) (h : Rearranged Service.Rearranged services services') :
    (∀ tree, (g.generate services).outcome = .ok tree →
      ∃ tree', (g.generate services').outcome = .ok tree' ∧ tree' = tree ∧
        (Metadata.toJson tree').prettyText = (Metadata.toJson tree).prettyText) ∧
    ∀ e, (g.generate services).outcome = .error e →
      ∃ nspace, (g.generate services').outcome = .error (.unresolvedNamespace nspace) ∧
        nspace ∉ g.namespaces.keys ∧
        ∃ s ∈ services, ∃ o ∈ s.operations, o.targetNamespace = nspace := by
  have ht : ∀ nspace, nspace ∈ targets services ↔ nspace ∈ targets services' :=
    fun _ => (targets_perm h).mem_iff
  refine ⟨fun tree hg => ?ok, fun e hg => ?error⟩
  case ok =>
    have ⟨hr, hg⟩ := generate_eq_ok_iff_targets.mp hg
    refine ⟨tree, generate_eq_ok_iff_targets.mpr ⟨fun nspace hm => ?_, ?_⟩, rfl, rfl⟩
    case refine_1 => exact hr nspace ((ht nspace).mpr hm)
    case refine_2 => exact hg.trans (tree_rearranged hs h).symm
  case error =>
    have ⟨nspace, hm, hn, _⟩ := target_of_generate_eq_error hg
    cases hg' : (g.generate services').outcome
    case ok tree =>
      exact absurd ((generate_eq_ok_iff_targets.mp hg').left nspace ((ht nspace).mp hm)) hn
    case error e =>
      have ⟨nspace, hm, hn, he⟩ := target_of_generate_eq_error hg'
      exact ⟨nspace, he ▸ rfl, hn, mem_targets_iff.mp ((ht nspace).mpr hm)⟩

-- Two ports of the shop, one of which has two operations, and one of these a message of two parts.
namespace Shop

def named (name : String) (parts : List Part) : Operation :=
  { find name parts with name }

def byKey : Part :=
  .ofElement "key" ⟨"urn:shop", "key"⟩

def byName : Part :=
  .typed "name" ⟨"urn:shop", "text"⟩

def mail (nspace : String) : Service where
  service    := "Shop"
  port       := "Mail"
  address    := "http://mail"
  operations := [{ named "order" [] with targetNamespace := nspace }]

def sorted (nspace : String) : List Service := [
  mail nspace, entry "http://shop" [named "count" [], named "search" [byKey, byName]]]

def unsorted (nspace : String) : List Service := [
  entry "http://shop" [named "search" [byName, byKey], named "count" []], mail nspace]

theorem named_rearranged (name nspace : String) {parts parts' : List Part}
    (h : parts.Perm parts') :
    Operation.Rearranged { named name parts with targetNamespace := nspace }
      { named name parts' with targetNamespace := nspace } where
  name            := rfl
  action          := rfl
  style           := rfl
  targetNamespace := rfl
  input           := ⟨rfl, rfl, h⟩
  output          := ⟨rfl, rfl, .rfl⟩
  faults          := .nil

theorem sorted_rearranged (nspace : String) :
    Rearranged Service.Rearranged (sorted nspace) (unsorted nspace) := by
  have hm : (mail nspace).Rearranged (mail nspace) :=
    ⟨rfl, rfl, rfl, _, .cons (named_rearranged "order" nspace .rfl) .nil, .rfl⟩
  have hs : (entry "http://shop" [named "count" [], named "search" [byKey, byName]]).Rearranged
      (entry "http://shop" [named "search" [byName, byKey], named "count" []]) :=
    ⟨rfl, rfl, rfl, _, .cons (named_rearranged "count" "urn:shop" .rfl)
      (.cons (named_rearranged "search" "urn:shop" (.swap byName byKey [])) .nil), .swap ..⟩
  exact ⟨_, .cons hm (.cons hs .nil), .swap ..⟩

end Shop

theorem generate_rearranged_shop :
    Separate .short (Shop.sorted "urn:shop") ∧
    Rearranged Service.Rearranged (Shop.sorted "urn:shop") (Shop.unsorted "urn:shop") ∧
    (∃ tree, (Shop.generator.generate (Shop.sorted "urn:shop")).outcome = .ok tree ∧
      (Shop.generator.generate (Shop.unsorted "urn:shop")).outcome = .ok tree ∧
      ∀ s ∈ Shop.sorted "urn:shop",
        tree.port? s.service s.port = some (Shop.generator.portRecord s)) ∧
    (Shop.generator.generate (Shop.sorted "urn:other")).outcome =
      .error (.unresolvedNamespace "urn:other") ∧
    ∃ nspace, (Shop.generator.generate (Shop.unsorted "urn:other")).outcome =
      .error (.unresolvedNamespace nspace) := by
  have hs : Separate Shop.generator.naming (Shop.sorted "urn:shop") := by decide +kernel
  have ho : Separate Shop.generator.naming (Shop.sorted "urn:other") := by decide +kernel
  have hg : (Shop.generator.generate (Shop.sorted "urn:shop")).outcome =
      .ok (Shop.generator.tree (Shop.sorted "urn:shop")) :=
    generate_eq_ok_iff.mpr ⟨by decide, rfl⟩
  have he : (Shop.generator.generate (Shop.sorted "urn:other")).outcome =
      .error (.unresolvedNamespace "urn:other") := by decide +kernel
  have hr := Shop.sorted_rearranged
  have ⟨tree', ht', heq, _⟩ := (generate_rearranged _ _ _ hs (hr _)).left _ hg
  have ⟨nspace, hn, _⟩ := (generate_rearranged _ _ _ ho (hr _)).right _ he
  exact ⟨hs, hr _, ⟨_, hg, heq ▸ ht', fun s hm => port?_tree_of_nodup hs.ports hm⟩, he, nspace,
    hn⟩

end Generator
end SoapBindings

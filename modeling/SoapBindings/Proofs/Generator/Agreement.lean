import SoapBindings.Proofs.Generator.Order
-- Descriptions that agree in what metadata is made of. Faults, the names of abstract messages, the
-- namespaces of what parts refer to and the elements of parts with a type are seen in no tree and
-- in no error, so descriptions may differ in all of these.

namespace SoapBindings

-- Descriptions of one form, whose parts are related.

section

variable (r : Part → Part → Prop)

-- The abstract messages may have different names.
structure OperationMessage.Agrees (m m' : OperationMessage) : Prop where
  operation : m'.operation = m.operation
  parts     : List.Forall₂ r m.message.parts m'.message.parts

-- There may be different faults.
structure Operation.Agrees (o o' : Operation) : Prop where
  name            : o'.name = o.name
  action          : o'.action = o.action
  style           : o'.style = o.style
  targetNamespace : o'.targetNamespace = o.targetNamespace
  input           : o.input.Agrees r o'.input
  output          : o.output.Agrees r o'.output

structure Service.Agrees (s s' : Service) : Prop where
  service    : s'.service = s.service
  port       : s'.port = s.port
  address    : s'.address = s.address
  operations : List.Forall₂ (Operation.Agrees r) s.operations s'.operations

end

-- Parts with the same local names. An element counts only where there is no type.
structure Part.Agrees (p p' : Part) : Prop where
  name    : p'.name = p.name
  type    : p'.type.map QName.name = p.type.map QName.name
  element : p.type = none → p'.element.map QName.name = p.element.map QName.name

namespace NamingStrategy

-- Parts that a strategy gives the same names.
structure Equates (n : NamingStrategy) (p p' : Part) : Prop where
  property  : n.propertyName p' = n.propertyName p
  reference : n.referredName p' = n.referredName p

-- What a part refers to, by its local name.
theorem referredName_short (p : Part) :
    short.referredName p = match p.type.map QName.name, p.element.map QName.name with
      | some type, _            => withTypeSuffix (classify (dotless type))
      | none,      some element => classify (dotless element)
      | none,      none         => classify (dotless "") := by
  cases ht : p.type <;> cases he : p.element <;> simp [referredName, short, ht, he, QName.empty]

theorem short_equates {p p' : Part} (h : p.Agrees p') : short.Equates p p' where
  property := by
    simp only [short, h.name]
  reference := by
    rw [referredName_short, referredName_short, h.type]
    cases ht : p.type
    case some => rfl
    case none => rw [h.element ht]

end NamingStrategy

theorem findSome?_eq_of_map_eq {α β : Type} {f : α → Option β} {l l' : List α}
    (h : l.map f = l'.map f) : l.findSome? f = l'.findSome? f := by
  rw [← Function.id_comp f, ← List.findSome?_map, h, List.findSome?_map]

namespace Generator

variable {g : Generator} {r : Part → Part → Prop} {services services' : List Service}

-- A failure is up to the namespaces of operations, however the parts are related.
theorem portFlaw_agreeing {s s' : Service} (h : s.Agrees r s') : g.portFlaw s' = g.portFlaw s := by
  refine (findSome?_eq_of_map_eq (map_eq_of_forall₂ h.operations fun o _ o' ho => ?_)).symm
  have hr : g.Resolves o' ↔ g.Resolves o := by
    rw [Resolves, Resolves, ho.targetNamespace]
  simp only [operationFlaw, hr, ho.targetNamespace]

-- Parts are seen through the names that the strategy gives them.

section

variable (hr : ∀ p p', r p p' → g.naming.Equates p p')

include hr

theorem partNames_agreeing {parts parts' : List Part} (h : List.Forall₂ r parts parts') :
    g.partNames parts' = g.partNames parts := by
  refine (StringMap.tabulate_eq_of_map_eq (map_eq_of_forall₂ h fun p _ p' hp => ?_)).symm
  rw [(hr p p' hp).property, (hr p p' hp).reference]

theorem messageRecord_agreeing {m m' : OperationMessage} (h : m.Agrees r m') (host : String)
    (direction : Direction) :
    g.messageRecord host m' direction = g.messageRecord host m direction :=
  messageRecord_congr h.operation (partNames_agreeing hr h.parts) host direction

theorem operationRecord_agreeing {o o' : Operation} (h : o.Agrees r o') :
    g.operationRecord o' = g.operationRecord o :=
  operationRecord_congr h.name h.action h.style h.targetNamespace
    (fun host => messageRecord_agreeing hr h.input host .input)
    (fun host => messageRecord_agreeing hr h.output host .output)

theorem operationRecords_agreeing {operations operations' : List Operation}
    (h : List.Forall₂ (Operation.Agrees r) operations operations') :
    g.operationRecords operations' = g.operationRecords operations := by
  refine (StringMap.tabulate_eq_of_map_eq (map_eq_of_forall₂ h fun o _ o' ho => ?_)).symm
  rw [ho.name, operationRecord_agreeing hr ho]

theorem portRecord_agreeing {s s' : Service} (h : s.Agrees r s') :
    g.portRecord s' = g.portRecord s := by
  rw [portRecord, portRecord, operationRecords_agreeing hr h.operations, h.service, h.port,
    h.address]

theorem tree_agreeing (h : List.Forall₂ (Service.Agrees r) services services') :
    g.tree services' = g.tree services := by
  refine (tree_eq_of_map_eq (map_eq_of_forall₂ h fun s _ s' hs => ?_)).symm
  rw [hs.service, hs.port, portRecord_agreeing hr hs]

-- What a strategy does not tell apart, a generation with this strategy does not tell apart.
theorem outcome_generate_agreeing (h : List.Forall₂ (Service.Agrees r) services services') :
    (g.generate services').outcome = (g.generate services).outcome := by
  have hf : services.map g.portFlaw = services'.map g.portFlaw :=
    map_eq_of_forall₂ h fun s _ s' hs => portFlaw_agreeing hs
  rw [outcome_generate, outcome_generate, findSome?_eq_of_map_eq hf, tree_agreeing hr h]

end

-- Under short names a generation ends in the same way for all lists that agree: with the same tree
-- or with the same error.
theorem generate_agreeing (g : Generator) (hn : g.naming = .short)
    (services services' : List Service)
    (h : List.Forall₂ (Service.Agrees Part.Agrees) services services') :
    (g.generate services').outcome = (g.generate services).outcome := by
  have hr (p p' : Part) (hp : p.Agrees p') : g.naming.Equates p p' :=
    hn ▸ NamingStrategy.short_equates hp
  exact outcome_generate_agreeing hr h

-- A query of the shop, and one that differs from it in all that may be different.
namespace Shop

def query : Message where
  name  := "Query"
  parts := [.typed "id" ⟨"urn:shop", "item.id"⟩, .ofElement "key" ⟨"urn:shop", "key"⟩]

def adorned : Message where
  name  := "Request"
  parts := [
    ⟨"id", some ⟨"urn:other", "item.id"⟩, some ⟨"urn:other", "number"⟩⟩,
    .ofElement "key" ⟨"urn:other", "key"⟩]

def asking (nspace : String) (message : Message) (faults : List Fault) : List Service := [
  entry "http://shop" [{ find "find" [] with
    targetNamespace := nspace
    input           := { operation := "find_item", message }
    faults          := faults }]]

theorem asking_agrees (nspace : String) (faults faults' : List Fault) :
    List.Forall₂ (Service.Agrees Part.Agrees) (asking nspace query faults)
      (asking nspace adorned faults') := by
  have hp : List.Forall₂ Part.Agrees query.parts adorned.parts :=
    .cons ⟨rfl, rfl, nofun⟩ (.cons ⟨rfl, rfl, fun _ => rfl⟩ .nil)
  exact .cons ⟨rfl, rfl, rfl, .cons ⟨rfl, rfl, rfl, rfl, ⟨rfl, hp⟩, ⟨rfl, .nil⟩⟩ .nil⟩ .nil

end Shop

theorem generate_agreeing_shop :
    Shop.generator.naming = .short ∧
    List.Forall₂ (Service.Agrees Part.Agrees) (Shop.asking "urn:shop" Shop.query [])
      (Shop.asking "urn:shop" Shop.adorned [⟨"Closed", none⟩]) ∧
    (∃ tree, (Shop.generator.generate (Shop.asking "urn:shop" Shop.query [])).outcome = .ok tree ∧
      (Shop.generator.generate
        (Shop.asking "urn:shop" Shop.adorned [⟨"Closed", none⟩])).outcome = .ok tree ∧
      ∀ s ∈ Shop.asking "urn:shop" Shop.query [],
        tree.port? s.service s.port = some (Shop.generator.portRecord s)) ∧
    (Shop.generator.generate
      (Shop.asking "urn:other" Shop.adorned [⟨"Closed", none⟩])).outcome =
        .error (.unresolvedNamespace "urn:other") := by
  have ha (nspace : String) := Shop.asking_agrees nspace [] [⟨"Closed", none⟩]
  have ht : (Shop.generator.generate (Shop.asking "urn:shop" Shop.query [])).outcome =
      .ok (Shop.generator.tree (Shop.asking "urn:shop" Shop.query [])) :=
    generate_eq_ok_iff.mpr ⟨by decide, rfl⟩
  have he : (Shop.generator.generate (Shop.asking "urn:other" Shop.query [])).outcome =
      .error (.unresolvedNamespace "urn:other") := by decide +kernel
  have hg (nspace : String) := generate_agreeing Shop.generator rfl _ _ (ha nspace)
  exact ⟨rfl, ha "urn:shop", ⟨_, ht, (hg "urn:shop").trans ht,
    fun s hm => port?_tree_of_nodup (by decide) hm⟩, (hg "urn:other").trans he⟩

end Generator
end SoapBindings

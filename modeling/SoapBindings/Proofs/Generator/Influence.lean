import SoapBindings.Proofs.Generator.History
-- What each setting of a generator has an influence on. Whether a generation fails is up to the
-- namespaces alone, and every other setting has fields of its own in the tree.

namespace SoapBindings

open BaseNamespaces (Key)

namespace MessageMetadata

def classFor (m : MessageMetadata) : Key → String
  | .headers  => m.headersClass
  | .parts    => m.partClass
  | .messages => m.messageClass

def setClass (m : MessageMetadata) : Key → String → MessageMetadata
  | .headers,  name => { m with headersClass := name }
  | .parts,    name => { m with partClass := name }
  | .messages, name => { m with messageClass := name }

-- The classes of one kind live in another namespace below the same host namespace, and nothing else
-- is different.
def Rebased (key : Key) (former latter : String) (m₁ m₂ : MessageMetadata) : Prop :=
  ∃ host name, m₁.classFor key = host ++ former ++ name ∧
    m₂ = m₁.setClass key (host ++ latter ++ name)

-- Nothing but the parts is different.
def Renamed (m₁ m₂ : MessageMetadata) : Prop :=
  m₂ = { m₁ with parts := m₂.parts }

end MessageMetadata

-- The tree with another endpoint for a port, if it has this port.
def Metadata.redirect (tree : Metadata) (service port endpoint : String) : Metadata :=
  match tree.port? service port with
  | some data => tree.record service port { data with endpoint }
  | none      => tree

theorem Metadata.port?_redirect (tree : Metadata)
    (service port endpoint service' port' : String) :
    (tree.redirect service port endpoint).port? service' port' =
      (tree.port? service' port').map fun data =>
        if service' = service ∧ port' = port then { data with endpoint } else data := by
  rw [redirect]
  split
  case h_1 data hd =>
    rw [port?_record]
    split
    case isTrue h  => simp [h.left, h.right, hd]
    case isFalse h => exact Option.map_id'.symm
  case h_2 hd =>
    by_cases h : service' = service ∧ port' = port
    case pos => simp [h.left, h.right, hd]
    case neg => simp [h]

theorem Metadata.Populated.redirect {tree : Metadata} (h : tree.Populated)
    (service port endpoint : String) : (tree.redirect service port endpoint).Populated := by
  rw [Metadata.redirect]
  split
  case h_1 => exact h.record service port _
  case h_2 => exact h

namespace Generator

open Generating MessageMetadata

variable {g h : Generator} {services : List Service}

-- A generation that gives a tree of which something holds.
def Yields (g : Generator) (services : List Service) (p : Metadata → Prop) : Prop :=
  ∃ tree, (g.generate services).outcome = .ok tree ∧ p tree

theorem resolves_iff_of_namespaces (hn : h.namespaces = g.namespaces) (operation : Operation) :
    h.Resolves operation ↔ g.Resolves operation := by
  rw [Resolves, Resolves, hn]

theorem portFlaw_of_namespaces (hn : h.namespaces = g.namespaces) : h.portFlaw = g.portFlaw := by
  have ho : h.operationFlaw = g.operationFlaw := by
    funext operation
    simp only [operationFlaw, resolves_iff_of_namespaces hn]
  funext service
  rw [portFlaw, portFlaw, ho]

-- With the same namespaces, a generator gives a tree where another one does.
theorem yields_of_namespaces (h : Generator) {tree : Metadata}
    (ht : (g.generate services).outcome = .ok tree) (hn : h.namespaces = g.namespaces)
    {p : Metadata → Prop} (hp : p (h.tree services)) : h.Yields services p := by
  have hf : services.findSome? h.portFlaw = none := by
    rw [outcome_generate] at ht
    rw [portFlaw_of_namespaces hn, (verdict_eq_ok_iff.mp ht).left]
  refine ⟨h.tree services, ?_, hp⟩
  rw [outcome_generate, hf, verdict]

-- Trees of the same services are related port by port.
theorem eachPort_tree {r : PortMetadata → PortMetadata → Prop}
    (hr : ∀ service, r (g.portRecord service) (h.portRecord service)) (services : List Service) :
    (g.tree services).EachPort r (h.tree services) := by
  induction services using List.reverseRecOn
  case nil => exact StringMap.related_empty
  case append_singleton services s hi =>
    rw [tree_append_singleton, tree_append_singleton]
    exact hi.record s.service s.port (hr s)

theorem eachMessage_tree (g h : Generator) {r : MessageMetadata → MessageMetadata → Prop}
    (hn : h.namespaces = g.namespaces) (hu : h.unwrap = g.unwrap) (he : h.endpoints = g.endpoints)
    (hr : ∀ host message direction,
      r (g.messageRecord host message direction) (h.messageRecord host message direction))
    (services : List Service) : (g.tree services).EachMessage r (h.tree services) := by
  have hh : h.hostOf = g.hostOf := by
    funext operation
    rw [hostOf, hostOf, hn]
  have ho (operation : Operation) :
      (g.operationRecord operation).EachMessage r (h.operationRecord operation) := {
    rest   := rfl
    input  := by
      rw [operationRecord, operationRecord, hh]
      exact hr _ operation.input .input
    output := by
      rw [operationRecord, operationRecord, hh]
      exact hr _ operation.output .output
  }
  refine eachPort_tree (fun service => ?_) services
  exact {
    rest       := by
      rw [portRecord, portRecord, hu, endpoint?, endpoint?, he]
    operations := StringMap.related_tabulate fun operation _ => ho operation
  }

theorem tree_setUnwrap (g : Generator) (unwrap : Bool) (services : List Service) :
    (g.tree services).EachPort (fun p₁ p₂ => p₂ = { p₁ with unwrap })
      ((g.setUnwrap unwrap).tree services) := by
  refine eachPort_tree (fun service => ?_) services
  rfl

theorem portRecord_addAlternativeEndpoint (g : Generator) (service port endpoint : String)
    (s : Service) :
    (g.addAlternativeEndpoint service port endpoint).portRecord s =
      if s.service = service ∧ s.port = port then { g.portRecord s with endpoint }
      else g.portRecord s := by
  have ho : (g.addAlternativeEndpoint service port endpoint).operationRecords =
      g.operationRecords := rfl
  rw [portRecord, endpoint?_addAlternativeEndpoint, ho]
  split <;> rfl

theorem tree_addAlternativeEndpoint (g : Generator) (service port endpoint : String)
    (services : List Service) :
    (g.addAlternativeEndpoint service port endpoint).tree services =
      (g.tree services).redirect service port endpoint := by
  refine (populated_tree _ services).ext ((g.populated_tree services).redirect _ _ _) ?_
  intro service' port'
  rw [Metadata.port?_redirect, port?_tree, port?_tree]
  cases hf : services.findRev? fun s => (s.service, s.port) = (service', port')
  case none   => rfl
  case some s =>
    have ⟨hs, hp⟩ := Prod.mk.inj (findRev?_eq_some_iff.mp hf).holds
    simp only [Option.map_some, portRecord_addAlternativeEndpoint, hs, hp]

theorem rebased_messageRecord (g : Generator) (key : Key) (nspace host : String)
    (message : OperationMessage) (direction : Direction) :
    (g.messageRecord host message direction).Rebased key (g.base.get key) nspace
      ({ g with base := g.base.set key nspace }.messageRecord host message direction) := by
  refine ⟨host, "\\" ++ classify message.operation ++ direction.label, ?_⟩
  cases key <;>
    simp [MessageMetadata.classFor, MessageMetadata.setClass, messageRecord, className,
      BaseNamespaces.get, BaseNamespaces.set, String.append_assoc] <;> rfl

theorem value_setBaseNamespaces_singleton (g : Generator) (key : Key) (nspace : String) :
    (g.setBaseNamespaces [(key.name, nspace)]).value =
      { g with base := g.base.set key nspace } := by
  simp [value_setBaseNamespaces, BaseNamespaces.override, Key.ofString?_eq_some_iff.mpr rfl]

-- What resolves already resolves to the same host namespace.
theorem Resolves.find?_addNamespace {nspace : String} {o : Operation} (ho : g.Resolves o)
    (hn : nspace ∉ g.namespaces.keys) (host : String) :
    (g.namespaces.insert nspace host).find? o.targetNamespace =
      g.namespaces.find? o.targetNamespace := by
  have hne : o.targetNamespace ≠ nspace := fun he => hn (he ▸ ho)
  exact StringMap.find?_insert_of_ne hne ..

theorem portRecord_addNamespace {nspace : String} (hn : nspace ∉ g.namespaces.keys) (host : String)
    {s : Service} (hs : ∀ o ∈ s.operations, g.Resolves o) :
    { g with namespaces := g.namespaces.insert nspace host }.portRecord s = g.portRecord s := by
  have ho (o : Operation) (hm : o ∈ s.operations) :
      { g with namespaces := g.namespaces.insert nspace host }.operationRecord o =
        g.operationRecord o := by
    have hh : { g with namespaces := g.namespaces.insert nspace host }.hostOf o = g.hostOf o := by
      rw [hostOf, (hs o hm).find?_addNamespace hn, hostOf]
    rw [operationRecord, hh]
    rfl
  have ht : { g with namespaces := g.namespaces.insert nspace host }.operationRecords
      s.operations = g.operationRecords s.operations :=
    StringMap.tabulate_eq_of_map_eq (List.map_congr_left fun o hm => by rw [ho o hm])
  rw [portRecord, ht]
  rfl

theorem generate_addNamespace {nspace : String} (hn : nspace ∉ g.namespaces.keys) (host : String)
    {tree : Metadata} (ht : (g.generate services).outcome = .ok tree) :
    ({ g with namespaces := g.namespaces.insert nspace host }.generate services).outcome =
      .ok tree := by
  have ⟨hr, ht⟩ := generate_eq_ok_iff.mp ht
  refine generate_eq_ok_iff.mpr ⟨fun s hs o ho => ?resolves, ht.trans ?tree⟩
  case resolves =>
    rw [Resolves, StringMap.mem_keys_iff, (hr s hs o ho).find?_addNamespace hn,
      ← StringMap.mem_keys_iff]
    exact hr s hs o ho
  case tree =>
    refine tree_eq_of_map_eq (List.map_congr_left fun s hs => ?_)
    rw [portRecord_addNamespace hn host (hr s hs)]

-- A failure is up to the namespaces. Where there is a tree, the flag, the endpoints, the base
-- namespaces and the naming strategy each change their own fields of it, and a namespace that is
-- added changes nothing.
theorem generate_by_setting (g : Generator) (services : List Service) :
    (∀ h : Generator, h.namespaces = g.namespaces → ∀ e,
      (h.generate services).outcome = .error e ↔ (g.generate services).outcome = .error e) ∧
    ∀ tree, (g.generate services).outcome = .ok tree →
      (∀ unwrap, (g.setUnwrap unwrap).Yields services
        (tree.EachPort fun p₁ p₂ => p₂ = { p₁ with unwrap })) ∧
      (∀ service port endpoint, (g.addAlternativeEndpoint service port endpoint).Yields services
        (· = tree.redirect service port endpoint)) ∧
      (∀ (key : Key) nspace, (g.setBaseNamespaces [(key.name, nspace)]).value.Yields services
        (tree.EachMessage (Rebased key (g.base.get key) nspace))) ∧
      (∀ naming, { g with naming }.Yields services (tree.EachMessage Renamed)) ∧
      ∀ nspace host, nspace ∉ g.namespaces.keys →
        { g with namespaces := g.namespaces.insert nspace host }.Yields services (· = tree) := by
  refine ⟨fun h hn e => ?fails, fun tree ht => ?tree⟩
  case fails =>
    rw [outcome_generate, outcome_generate, portFlaw_of_namespaces hn, verdict_eq_error_iff,
      verdict_eq_error_iff]
  case tree =>
    have htree : tree = g.tree services := (generate_eq_ok_iff.mp ht).right
    subst htree
    refine ⟨fun unwrap => ?unwrap, fun service port endpoint => ?endpoint,
      fun key nspace => ?base, fun naming => ?naming, fun nspace host hn => ?namespaces⟩
    case unwrap =>
      exact yields_of_namespaces (g.setUnwrap unwrap) ht rfl (g.tree_setUnwrap unwrap services)
    case endpoint =>
      exact yields_of_namespaces (g.addAlternativeEndpoint service port endpoint) ht rfl
        (g.tree_addAlternativeEndpoint service port endpoint services)
    case base =>
      let h : Generator := { g with base := g.base.set key nspace }
      have hm := g.eachMessage_tree h rfl rfl rfl (g.rebased_messageRecord key nspace) services
      rw [value_setBaseNamespaces_singleton]
      exact yields_of_namespaces h ht rfl hm
    case naming =>
      let h : Generator := { g with naming }
      have hm : (g.tree services).EachMessage Renamed (h.tree services) :=
        g.eachMessage_tree h rfl rfl rfl (fun _ _ _ => rfl) services
      exact yields_of_namespaces h ht rfl hm
    case namespaces => exact ⟨_, generate_addNamespace hn host ht, rfl⟩

-- Names as they are, so the two parts in the shop have a property each.
def Shop.verbatim : NamingStrategy where
  propertyName := Part.name
  typeName     := QName.name
  itemName     := QName.name

-- The shop under another value of each setting. Its port is in the tree, with the second entry for
-- its record.
theorem generate_by_setting_shop :
    (Shop.settled.generate Shop.brokenOff).outcome = .error (.unresolvedNamespace "urn:other") ∧
    "urn:depot" ∉ Shop.generator.namespaces.keys ∧
    ∃ tree, (Shop.generator.generate [Shop.former, Shop.latter]).outcome = .ok tree ∧
      tree.port? "Shop" "Soap" = some (Shop.generator.portRecord Shop.latter) ∧
      (Shop.generator.setUnwrap true).Yields [Shop.former, Shop.latter]
        (tree.EachPort fun p₁ p₂ => p₂ = { p₁ with unwrap := true }) ∧
      (Shop.generator.addAlternativeEndpoint "Shop" "Soap" "http://new").Yields
        [Shop.former, Shop.latter] (· = tree.redirect "Shop" "Soap" "http://new") ∧
      (Shop.generator.setBaseNamespaces [("parts", "\\New")]).value.Yields
        [Shop.former, Shop.latter]
        (tree.EachMessage (Rebased .parts "\\SoapEnvelope\\Parts" "\\New")) ∧
      { Shop.generator with naming := Shop.verbatim }.Yields [Shop.former, Shop.latter]
        (tree.EachMessage Renamed) ∧
      { Shop.generator with
        namespaces := Shop.generator.namespaces.insert "urn:depot" "\\Depot" }.Yields
        [Shop.former, Shop.latter] (· = tree) := by
  have he : (Shop.generator.generate Shop.brokenOff).outcome =
      .error (.unresolvedNamespace "urn:other") := by decide +kernel
  have hn : "urn:depot" ∉ Shop.generator.namespaces.keys := by decide
  have ht : (Shop.generator.generate [Shop.former, Shop.latter]).outcome =
      .ok (Shop.generator.tree [Shop.former, Shop.latter]) :=
    generate_eq_ok_iff.mpr ⟨by decide, rfl⟩
  have hp : (Shop.generator.tree [Shop.former, Shop.latter]).port? "Shop" "Soap" =
      some (Shop.generator.portRecord Shop.latter) := port?_tree ..
  have ⟨hu, ha, hb, hm, hd⟩ := (generate_by_setting Shop.generator _).right _ ht
  exact ⟨((generate_by_setting Shop.generator _).left Shop.settled rfl _).mpr he, hn, _, ht, hp,
    hu true, ha "Shop" "Soap" "http://new", hb .parts "\\New", hm Shop.verbatim,
    hd "urn:depot" "\\Depot" hn⟩

end Generator
end SoapBindings

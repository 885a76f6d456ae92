import SoapBindings.Metadata
import SoapBindings.Proofs.StringMap
-- Trees of metadata: what recording a port changes, when two trees are the same, and trees that
-- differ in some places only.

namespace SoapBindings

-- Operations that agree in all but their messages, and whose messages are related.
structure OperationMetadata.EachMessage (r : MessageMetadata → MessageMetadata → Prop)
    (o₁ o₂ : OperationMetadata) : Prop where
  rest   : o₂ = { o₁ with input := o₂.input, output := o₂.output }
  input  : r o₁.input o₂.input
  output : r o₁.output o₂.output

-- Ports with the same operations, which agree in all but their messages.
structure PortMetadata.EachMessage (r : MessageMetadata → MessageMetadata → Prop)
    (p₁ p₂ : PortMetadata) : Prop where
  rest       : p₂ = { p₁ with operations := p₂.operations }
  operations : p₁.operations.Related (OperationMetadata.EachMessage r) p₂.operations

namespace Metadata

variable {tree t₁ t₂ : Metadata} {service service' port port' : String} {data : PortMetadata}

theorem find?_record :
    (tree.record service port data).find? service' =
      if service' = service then some (((tree.find? service).getD ∅).insert port data)
      else tree.find? service' :=
  StringMap.find?_insert ..

theorem port?_record :
    (tree.record service port data).port? service' port' =
      if service' = service ∧ port' = port then some data else tree.port? service' port' := by
  by_cases hs : service' = service
  case neg => simp [port?, find?_record, hs]
  case pos =>
    subst hs
    cases ht : tree.find? service' <;> simp [port?, find?_record, StringMap.find?_insert, ht]

theorem port?_of_find? {ports : StringMap PortMetadata} (h : tree.find? service = some ports)
    (port : String) : tree.port? service port = ports.find? port := by
  simp [port?, h]

-- No service is in the tree without a port.
def Populated (tree : Metadata) : Prop :=
  ∀ service ports, tree.find? service = some ports → ports.keys ≠ []

theorem populated_empty : Populated ∅ :=
  fun _ _ h => nomatch h

theorem Populated.record (h : tree.Populated) (service port : String) (data : PortMetadata) :
    (tree.record service port data).Populated := by
  intro service' ports hp
  rw [find?_record] at hp
  split at hp
  case isFalse => exact h service' ports hp
  case isTrue =>
    injection hp with hp
    have hk : port ∈ ports.keys := by
      rw [StringMap.mem_keys_iff, ← hp, StringMap.find?_insert_self]
      rfl
    exact List.ne_nil_of_mem hk

theorem Populated.exists_port (h : tree.Populated) {ports : StringMap PortMetadata}
    (hs : tree.find? service = some ports) : ∃ port data, tree.port? service port = some data := by
  have ⟨port, hp⟩ := List.exists_mem_of_ne_nil _ (h service ports hs)
  have ⟨data, hd⟩ := Option.isSome_iff_exists.mp (StringMap.mem_keys_iff.mp hp)
  exact ⟨port, data, (port?_of_find? hs port).trans hd⟩

-- Such a tree is determined by its ports.
theorem Populated.ext (h₁ : t₁.Populated) (h₂ : t₂.Populated)
    (h : ∀ service port, t₁.port? service port = t₂.port? service port) : t₁ = t₂ := by
  refine StringMap.ext_find? fun service => ?_
  cases hs₁ : t₁.find? service <;> cases hs₂ : t₂.find? service
  case none.none => rfl
  case none.some ports =>
    have ⟨port, data, hp⟩ := h₂.exists_port hs₂
    have hn := (h service port).trans hp
    simp [port?, hs₁] at hn
  case some.none ports =>
    have ⟨port, data, hp⟩ := h₁.exists_port hs₁
    have hn := (h service port).symm.trans hp
    simp [port?, hs₂] at hn
  case some.some ports₁ ports₂ =>
    refine congrArg some (StringMap.ext_find? fun port => ?_)
    rw [← port?_of_find? hs₁, ← port?_of_find? hs₂, h]

-- Trees with the same ports, in which the records of a port are related.
def EachPort (r : PortMetadata → PortMetadata → Prop) (t₁ t₂ : Metadata) : Prop :=
  StringMap.Related (StringMap.Related r) t₁ t₂

-- Trees that agree in all but the messages of their operations.
def EachMessage (r : MessageMetadata → MessageMetadata → Prop) (t₁ t₂ : Metadata) : Prop :=
  t₁.EachPort (PortMetadata.EachMessage r) t₂

theorem EachPort.record {r : PortMetadata → PortMetadata → Prop} (h : t₁.EachPort r t₂)
    (service port : String) {p₁ p₂ : PortMetadata} (hr : r p₁ p₂) :
    (t₁.record service port p₁).EachPort r (t₂.record service port p₂) := by
  refine StringMap.Related.insert h service (StringMap.Related.insert ?_ port hr)
  have hs := h service
  cases h₁ : t₁.find? service <;> cases h₂ : t₂.find? service <;> rw [h₁, h₂] at hs <;> cases hs
  case none.none           => exact StringMap.related_empty
  case some.some.some hs => exact hs

end Metadata
end SoapBindings

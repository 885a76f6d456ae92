import SoapBindings.Proofs.Generator.Influence
import SoapBindings.Proofs.Inflection.Letters
-- When two classes have one name. The parts of a name stand next to each other without a separator,
-- but the direction can be read off its end, and the class begins after the last backslash.

namespace SoapBindings

open BaseNamespaces (Key)

def Operation.message (operation : Operation) : Direction → OperationMessage
  | .input  => operation.input
  | .output => operation.output

def OperationMetadata.message (data : OperationMetadata) : Direction → MessageMetadata
  | .input  => data.input
  | .output => data.output

namespace Direction

-- Neither label ends in the other one.
theorem append_label_inj {a b : List Char} {d e : Direction}
    (h : a ++ d.label.toList = b ++ e.label.toList) : a = b ∧ d = e := by
  cases d <;> cases e
  case input.input   => exact ⟨List.append_cancel_right h, rfl⟩
  case output.output => exact ⟨List.append_cancel_right h, rfl⟩
  all_goals
    have hr := congrArg List.reverse h
    simp [label] at hr

end Direction

-- A text is cut in one way at the last occurrence of a character.
theorem append_cons_inj_of_last {α : Type} {c : α} {l₁ l₂ r₁ r₂ : List α} (h₁ : c ∉ r₁)
    (h₂ : c ∉ r₂) (h : l₁ ++ c :: r₁ = l₂ ++ c :: r₂) : l₁ = l₂ ∧ r₁ = r₂ := by
  obtain ⟨l, hl, hr⟩ | ⟨l, hl, hr⟩ := List.append_eq_append_iff.mp h
  all_goals
    cases l
    case nil => simp_all
    case cons d l =>
      have ⟨_, hr⟩ := List.cons.inj hr
      simp [hr] at h₁ h₂

namespace Generator

open Generating

-- One direction of an operation in a successful generation, with what the generation makes of it.
structure Descriptor (g : Generator) where
  services      : List Service
  tree          : Metadata
  service       : Service
  operation     : Operation
  host          : String
  record        : OperationMetadata
  direction     : Direction
  generated     : (g.generate services).outcome = .ok tree
  service_mem   : service ∈ services
  operation_mem : operation ∈ service.operations
  resolved      : g.namespaces.find? operation.targetNamespace = some host
  made          : (g.operationMetadata operation).outcome = .ok record

variable {g : Generator}

namespace Descriptor

-- The binding operation after which the classes are named.
def source (x : g.Descriptor) : String :=
  (x.operation.message x.direction).operation

def className (x : g.Descriptor) (kind : Key) : String :=
  (x.record.message x.direction).classFor kind

theorem record_eq (x : g.Descriptor) : x.record = g.operationRecord x.operation := by
  have hm := x.made
  rw [outcome_operationMetadata, verdict_eq_ok_iff] at hm
  exact hm.right.symm

theorem message_record (x : g.Descriptor) :
    x.record.message x.direction =
      g.messageRecord x.host (x.operation.message x.direction) x.direction := by
  have hh : g.hostOf x.operation = x.host := by simp [hostOf, x.resolved]
  rw [record_eq, ← hh]
  cases x.direction <;> rfl

theorem className_eq (x : g.Descriptor) (kind : Key) :
    x.className kind =
      x.host ++ g.base.get kind ++ "\\" ++ classify x.source ++ x.direction.label := by
  rw [className, message_record]
  cases kind <;> rfl

theorem toList_className (x : g.Descriptor) (kind : Key) :
    (x.className kind).toList =
      (x.host ++ g.base.get kind).toList ++ '\\' :: (classify x.source).toList ++
        x.direction.label.toList := by
  simp [className_eq]

theorem unlabelled_of_className_eq {x y : g.Descriptor} {k l : Key}
    (h : x.className k = y.className l) :
    (x.host ++ g.base.get k).toList ++ '\\' :: (classify x.source).toList =
      (y.host ++ g.base.get l).toList ++ '\\' :: (classify y.source).toList ∧
    x.direction = y.direction := by
  apply Direction.append_label_inj
  rw [← x.toList_className, ← y.toList_className, h]

theorem not_mem_classify_source {x : g.Descriptor} (h : '\\' ∉ x.source.toList) :
    '\\' ∉ (classify x.source).toList :=
  fun hm => h (mem_inflect (by decide) hm).left

end Descriptor

-- What stands in a tree is one of the descriptors.
theorem exists_descriptor {services : List Service} {tree : Metadata} {service port name : String}
    {data : PortMetadata} {record : OperationMetadata}
    (hg : (g.generate services).outcome = .ok tree) (hp : tree.port? service port = some data)
    (ho : data.operations.find? name = some record) (direction : Direction) :
    ∃ x : g.Descriptor, x.services = services ∧ x.service.service = service ∧
      x.service.port = port ∧ x.operation.name = name ∧ x.record = record ∧
      x.direction = direction := by
  obtain ⟨hr, ht⟩ := generate_eq_ok_iff.mp hg
  subst ht
  rw [port?_tree, Option.map_eq_some_iff] at hp
  obtain ⟨s, hs, hd⟩ := hp
  subst hd
  have hs := findRev?_eq_some_iff.mp hs
  obtain ⟨hn, hp⟩ := Prod.mk.inj hs.holds
  rw [portRecord, operationRecords, StringMap.find?_tabulate, Option.map_eq_some_iff] at ho
  obtain ⟨o, ho, he⟩ := ho
  have ho := findRev?_eq_some_iff.mp ho
  have hm := hr s hs.mem o ho.mem
  obtain ⟨host, hh⟩ := Option.isSome_iff_exists.mp (StringMap.mem_keys_iff.mp hm)
  let x : g.Descriptor := {
    services, tree := _, service := s, operation := o, host, record, direction
    generated     := hg
    service_mem   := hs.mem
    operation_mem := ho.mem
    resolved      := hh
    made          := by
      rw [outcome_operationMetadata, operationFlaw_eq_none_iff.mpr hm, he]
      rfl
  }
  exact ⟨x, rfl, hn, hp, ho.holds, rfl, rfl⟩

-- Classes of one direction never have the name of classes of the other one. Where binding
-- operations have no backslash in their names, classes that share a name have the same identifier,
-- and their namespaces are the same as a whole.
theorem classNames_eq_iff (g : Generator) :
    (∀ services tree, (g.generate services).outcome = .ok tree →
      ∀ service port data, tree.port? service port = some data →
      ∀ name record, data.operations.find? name = some record →
      ∀ direction, ∃ x : g.Descriptor, x.services = services ∧ x.service.service = service ∧
        x.service.port = port ∧ x.operation.name = name ∧ x.record = record ∧
        x.direction = direction) ∧
    ∀ (x y : g.Descriptor) (k l : Key),
      (x.direction ≠ y.direction → x.className k ≠ y.className l) ∧
      ('\\' ∉ x.source.toList → '\\' ∉ y.source.toList →
        (x.className k = y.className l ↔
          x.direction = y.direction ∧ classify x.source = classify y.source ∧
            x.host ++ g.base.get k = y.host ++ g.base.get l)) := by
  refine ⟨fun services tree hg service port data hp name record ho direction =>
    exists_descriptor hg hp ho direction, fun x y k l => ⟨?directions, ?names⟩⟩
  case directions => exact fun hd h => hd (Descriptor.unlabelled_of_className_eq h).right
  case names =>
    intro hx hy
    constructor
    case mp =>
      intro h
      have ⟨hu, hd⟩ := Descriptor.unlabelled_of_className_eq h
      have ⟨hn, hc⟩ := append_cons_inj_of_last (Descriptor.not_mem_classify_source hx)
        (Descriptor.not_mem_classify_source hy) hu
      exact ⟨hd, String.toList_inj.mp hc, String.toList_inj.mp hn⟩
    case mpr =>
      intro ⟨hd, hc, hn⟩
      rw [x.className_eq, y.className_eq, hd, hc, hn]

-- Two departments below one host namespace. The host namespace of one goes on where the base
-- namespaces of the other begin.
namespace Departments

def generator : Generator where
  naming     := .short
  namespaces := .ofList [("urn:shop", "\\Shop"), ("urn:depot", "\\Shop\\Depot")]
  base       := { headers := "", parts := "\\Kinds", messages := "\\Depot\\Kinds" }

def fetch (name nspace : String) : Operation where
  name            := name
  action          := ""
  style           := "document"
  targetNamespace := nspace
  input           := { operation := name, message := { name := "Query", parts := [] } }
  output          := { operation := name, message := { name := "Answer", parts := [] } }
  faults          := []

def catalogue : Service where
  service    := "Shop"
  port       := "Soap"
  address    := "http://localhost"
  operations := [fetch "get_item" "urn:shop", fetch "GetItem" "urn:depot"]

theorem generated :
    (generator.generate [catalogue]).outcome = .ok (generator.tree [catalogue]) :=
  generate_eq_ok_iff.mpr ⟨by decide, rfl⟩

def inShop (direction : Direction) : generator.Descriptor where
  services      := [catalogue]
  tree          := generator.tree [catalogue]
  service       := catalogue
  operation     := fetch "get_item" "urn:shop"
  host          := "\\Shop"
  record        := generator.operationRecord (fetch "get_item" "urn:shop")
  direction     := direction
  generated     := generated
  service_mem   := .head _
  operation_mem := .head _
  resolved      := by decide
  made          := by decide +kernel

def inDepot (direction : Direction) : generator.Descriptor where
  services      := [catalogue]
  tree          := generator.tree [catalogue]
  service       := catalogue
  operation     := fetch "GetItem" "urn:depot"
  host          := "\\Shop\\Depot"
  record        := generator.operationRecord (fetch "GetItem" "urn:depot")
  direction     := direction
  generated     := generated
  service_mem   := .head _
  operation_mem := .tail _ (.head _)
  resolved      := by decide
  made          := by decide +kernel

end Departments

open Departments in
theorem classNames_eq_iff_departments :
    (∃ x : generator.Descriptor, x.operation.name = "GetItem" ∧ x.direction = .output) ∧
    (inShop .input).className .messages = (inDepot .input).className .parts ∧
    (inShop .input).className .messages ≠ (inDepot .output).className .parts ∧
    (inShop .input).className .parts ≠ (inDepot .input).className .parts := by
  have ⟨ht, hn⟩ := classNames_eq_iff generator
  have hx : '\\' ∉ (inShop .input).source.toList := by decide
  have hy : '\\' ∉ (inDepot .input).source.toList := by decide
  refine ⟨?_, ?_, ?_, ?_⟩
  · have ⟨x, _, _, _, hn, _, hd⟩ := ht _ _ generated "Shop" "Soap" _ rfl "GetItem" _ rfl .output
    exact ⟨x, hn, hd⟩
  · exact ((hn _ _ _ _).right hx hy).mpr ⟨rfl, by decide, by decide⟩
  · exact (hn _ _ _ _).left (by decide)
  · intro h
    have ⟨_, _, hb⟩ := ((hn _ _ _ _).right hx hy).mp h
    exact absurd hb (by decide)

end Generator
end SoapBindings

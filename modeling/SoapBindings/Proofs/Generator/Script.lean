import SoapBindings.Proofs.Generator.Tree
-- What a generation shows of itself: records in the log and questions to the naming strategy. They
-- follow a script that can be written down from the services alone, and a generation that fails
-- breaks it off at the first operation that does not resolve.

namespace SoapBindings

inductive Sight where
  | logged (severity : Severity) (text : String)
  | asked (question : Inquiry)
  deriving DecidableEq, Repr

def Event.sight : Event → Sight
  | .notice n  => .logged n.severity n.text
  | .inquiry q => .asked q

namespace Script

def heading (service : Service) : Sight :=
  .logged .debug s!"Generating metadata for {service.service}/{service.port}"

def beginning (operation : Operation) : Sight :=
  .logged .trace s!"Generating operation {operation.name}"

def discarded (operation : Operation) (fault : Fault) : Sight :=
  .logged .debug s!"Discarding fault {fault.name} of operation {operation.name}"

def untyped (part : Part) : Sight :=
  .logged .warn s!"Part {part.name} has neither a type nor an element"

def replaced (part : Part) (name property : String) : Sight :=
  .logged .warn s!"Part {part.name} replaces {name} under property {property}"

-- A part that refers to nothing is warned of before the question for its name.
def reference (part : Part) : List Sight :=
  match part.type, part.element with
  | some type, _            => [.asked (.type type)]
  | none,      some element => [.asked (.item element)]
  | none,      none         => [untyped part, .asked (.item .empty)]

-- Of the earlier parts with the same property, the last one has its name replaced.
def replacement (naming : NamingStrategy) (earlier : List Part) (part : Part) : List Sight :=
  let property := naming.propertyName part
  match earlier.findRev? (naming.propertyName · = property) with
  | some previous => [replaced part (naming.referredName previous) property]
  | none          => []

def part (naming : NamingStrategy) (earlier : List Part) (part : Part) : List Sight :=
  .asked (.property part) :: (reference part ++ replacement naming earlier part)

def parts (naming : NamingStrategy) : (earlier : List Part) → List Part → List Sight
  | _,       []         => []
  | earlier, p :: later => part naming earlier p ++ parts naming (earlier ++ [p]) later

def message (naming : NamingStrategy) (message : OperationMessage) : List Sight :=
  parts naming [] message.message.parts

def opening (operation : Operation) : List Sight :=
  beginning operation :: operation.faults.map (discarded operation)

def operation (naming : NamingStrategy) (operation : Operation) : List Sight :=
  opening operation ++ (message naming operation.input ++ message naming operation.output)

def port (naming : NamingStrategy) (service : Service) : List Sight :=
  heading service :: service.operations.flatMap (operation naming)

end Script

def script (naming : NamingStrategy) (services : List Service) : List Sight :=
  services.flatMap (Script.port naming)

-- The script up to where the namespace of the operation at a place is asked for.
def Place.script {services : List Service} (p : Place services) (naming : NamingStrategy) :
    List Sight :=
  SoapBindings.script naming p.before ++ Script.heading p.service ::
    (p.earlier.flatMap (Script.operation naming) ++ Script.opening p.operation)

theorem Place.script_prefix {services : List Service} (p : Place services)
    (naming : NamingStrategy) : p.script naming <+: SoapBindings.script naming services := by
  have hs := p.services_eq
  have ho := p.operations_eq
  refine ⟨Script.message naming p.operation.input ++ Script.message naming p.operation.output ++
    p.later.flatMap (Script.operation naming) ++ SoapBindings.script naming p.after, ?_⟩
  simp [script, SoapBindings.script, hs, Script.port, ho, Script.operation]

theorem sight_generatingPort (s : Service) :
    (Event.notice (.generatingPort s.service s.port)).sight = Script.heading s := by
  delta Event.sight Notice.text
  rfl

theorem sight_generatingOperation (o : Operation) :
    (Event.notice (.generatingOperation o.name)).sight = Script.beginning o := by
  delta Event.sight Notice.text
  rfl

theorem sight_discardingFault (o : Operation) (f : Fault) :
    (Event.notice (.discardingFault f.name o.name)).sight = Script.discarded o f := by
  delta Event.sight Notice.text
  rfl

theorem sight_untypedPart (p : Part) :
    (Event.notice (.untypedPart p.name)).sight = Script.untyped p := by
  delta Event.sight Notice.text
  rfl

theorem sight_inquiry (q : Inquiry) : (Event.inquiry q).sight = .asked q := rfl

theorem sight_replacedName (p : Part) (name property : String) :
    (Event.notice (.replacedName p.name name property)).sight =
      Script.replaced p name property := by
  delta Event.sight Notice.text
  rfl

namespace Journaled

variable {α β : Type}

def sights (x : Journaled α) : List Sight :=
  x.events.map Event.sight

@[simp] theorem sights_pure (a : α) : (pure a : Journaled α).sights = [] := rfl

@[simp] theorem sights_bind (x : Journaled α) (f : α → Journaled β) :
    (x >>= f).sights = x.sights ++ (f x.value).sights :=
  List.map_append

@[simp] theorem sights_report (e : Event) : (report e).sights = [e.sight] := rfl

@[simp] theorem sights_note (n : Notice) : (note n).sights = [(Event.notice n).sight] := rfl

theorem sights_forM (step : α → Journaled Unit) (l : List α) :
    (forM l step).sights = l.flatMap fun a => (step a).sights := by
  induction l
  case nil => rfl
  case cons a l hi => rw [List.forM_cons, sights_bind, hi, List.flatMap_cons]

end Journaled

namespace Generator

open Generating

variable {g : Generator}

@[simp] theorem sights_propertyName (g : Generator) (part : Part) :
    (g.propertyName part).sights = [.asked (.property part)] := rfl

theorem sights_referenceName (g : Generator) (part : Part) :
    (g.referenceName part).sights = Script.reference part := by
  cases ht : part.type <;> cases he : part.element <;>
    simp [referenceName, Script.reference, ht, he, typeName, itemName, sight_untypedPart,
      sight_inquiry]

-- The table in which a part looks for its property has the names of the parts before it.
theorem sights_addPart (g : Generator) (earlier : List Part) (part : Part) :
    (g.addPart (g.partNames earlier) part).sights = Script.part g.naming earlier part := by
  rw [Script.part, Script.replacement]
  cases h : earlier.findRev? (g.naming.propertyName · = g.naming.propertyName part)
  case none =>
    have hf : (g.partNames earlier).find? (g.naming.propertyName part) = none := by
      rw [partNames, StringMap.find?_tabulate, h, Option.map_none]
    simp [addPart, value_propertyName, value_referenceName, hf, sights_referenceName]
  case some previous =>
    have hf : (g.partNames earlier).find? (g.naming.propertyName part) =
        some (g.naming.referredName previous) := by
      rw [partNames, StringMap.find?_tabulate, h, Option.map_some]
    simp [addPart, value_propertyName, value_referenceName, hf, sights_referenceName,
      sight_replacedName]

theorem sights_foldlM_addPart (g : Generator) (earlier parts : List Part) :
    (parts.foldlM g.addPart (g.partNames earlier)).sights =
      Script.parts g.naming earlier parts := by
  induction parts generalizing earlier
  case nil => rfl
  case cons part later hi =>
    have hv : (g.addPart (g.partNames earlier) part).value = g.partNames (earlier ++ [part]) := by
      rw [value_addPart, partNames, partNames, StringMap.tabulate_append_singleton]
    rw [List.foldlM_cons, Journaled.sights_bind, sights_addPart, hv, hi, Script.parts]

theorem sights_messageMetadata (g : Generator) (host : String) (message : OperationMessage)
    (direction : Direction) :
    (g.messageMetadata host message direction).sights = Script.message g.naming message := by
  have hp := g.sights_foldlM_addPart [] message.message.parts
  rw [messageMetadata, Journaled.sights_bind, Journaled.sights_pure, List.append_nil]
  exact hp

theorem sights_announce (operation : Operation) :
    (announce operation).sights = Script.opening operation := by
  simp [announce, Journaled.sights_forM, sight_generatingOperation, sight_discardingFault,
    Script.opening, List.map_eq_flatMap]

namespace Generating

variable {α β σ : Type}

-- Sights of a computation that may fail.
def sights (x : Generating α) : List Sight :=
  x.events.map Event.sight

@[simp] theorem sights_pure (a : α) : (pure a : Generating α).sights = [] := rfl

@[simp] theorem sights_liftM (x : Journaled α) : (liftM x : Generating α).sights = x.sights := by
  rw [sights, events_liftM, Journaled.sights]

@[simp] theorem sights_liftExcept (x : Except GenerateError α) :
    (operationMetadata.liftExcept x).sights = [] := rfl

@[simp] theorem sights_bind (x : Generating α) (f : α → Generating β) :
    (x >>= f).sights = x.sights ++ match x.outcome with
      | .ok a    => (f a).sights
      | .error _ => [] := by
  simp only [sights, events_bind, List.map_append]
  cases x.outcome <;> rfl

variable {step : σ → α → Generating σ} {flaw : α → Option GenerateError} {add : σ → α → σ}
variable {report : α → List Event} {act : α → List Sight}

theorem Step.sights_foldlM_flawless (h : Step step flaw add report) (s : σ) {l : List α}
    (hf : ∀ a ∈ l, flaw a = none) (ha : ∀ a ∈ l, (report a).map Event.sight = act a) :
    (l.foldlM step s).sights = l.flatMap act := by
  rw [sights, h.events_foldlM_flawless s hf, List.map_flatMap]
  exact List.flatMap_congr ha

theorem Step.sights_foldlM_flawed (h : Step step flaw add report) (s : σ) {before : List α}
    (hf : ∀ a ∈ before, flaw a = none) (hb : ∀ a ∈ before, (report a).map Event.sight = act a)
    {a : α} {e : GenerateError} (ha : flaw a = some e) (after : List α) :
    ((before ++ a :: after).foldlM step s).sights =
      before.flatMap act ++ (report a).map Event.sight := by
  rw [sights, h.events_foldlM_flawed s hf ha, List.map_append, List.map_flatMap]
  exact congrArg (· ++ _) (List.flatMap_congr hb)

end Generating

theorem sights_operationMetadata {operation : Operation} (h : g.Resolves operation) :
    (g.operationMetadata operation).sights = Script.operation g.naming operation := by
  have hf := operationFlaw_eq_none_iff.mpr h
  simp [operationMetadata, resolve_eq, hf, verdict, sights_announce, sights_messageMetadata,
    Script.operation]

-- Without a host namespace neither of the messages is looked at.
theorem sights_operationMetadata_unresolved {operation : Operation} (h : ¬g.Resolves operation) :
    (g.operationMetadata operation).sights = Script.opening operation := by
  have hf := operationFlaw_eq_some_iff.mpr ⟨h, rfl⟩
  simp [operationMetadata, resolve_eq, hf, verdict, sights_announce]

theorem sights_portMetadata_eq (g : Generator) (service : Service) :
    (g.portMetadata service).sights =
      Script.heading service :: (g.operationTable service.operations).sights := by
  cases h : (g.operationTable service.operations).outcome <;>
    simp [portMetadata, h, sight_generatingPort]

theorem sights_portMetadata {service : Service} (h : ∀ o ∈ service.operations, g.Resolves o) :
    (g.portMetadata service).sights = Script.port g.naming service := by
  have ho := g.step_operation.sights_foldlM_flawless ∅
    (fun o hm => operationFlaw_eq_none_iff.mpr (h o hm))
    fun o hm => sights_operationMetadata (h o hm)
  rw [sights_portMetadata_eq, Script.port]
  exact congrArg _ ho

theorem sights_portMetadata_unresolved {services : List Service} {p : Place services}
    (h : g.FirstUnresolved p) :
    (g.portMetadata p.service).sights = Script.heading p.service ::
      (p.earlier.flatMap (Script.operation g.naming) ++ Script.opening p.operation) := by
  have ho := g.step_operation.sights_foldlM_flawed ∅
    (fun o hm => operationFlaw_eq_none_iff.mpr (h.earlier o hm))
    (fun o hm => sights_operationMetadata (h.earlier o hm))
    (operationFlaw_eq_some_iff.mpr ⟨h.unresolved, rfl⟩) p.later
  have hu := sights_operationMetadata_unresolved h.unresolved
  rw [sights_portMetadata_eq, p.operations_eq, ← hu]
  exact congrArg _ ho

theorem sights_generate {services : List Service}
    (h : ∀ s ∈ services, ∀ o ∈ s.operations, g.Resolves o) :
    (g.generate services).sights = script g.naming services :=
  g.step_service.sights_foldlM_flawless ∅ (fun s hm => portFlaw_eq_none_iff.mpr (h s hm))
    fun s hm => sights_portMetadata (h s hm)

theorem sights_generate_unresolved {services : List Service} {p : Place services}
    (h : g.FirstUnresolved p) : (g.generate services).sights = p.script g.naming := by
  have hs := g.step_service.sights_foldlM_flawed ∅
    (fun s hm => portFlaw_eq_none_iff.mpr (h.before s hm))
    (fun s hm => sights_portMetadata (h.before s hm)) h.portFlaw_eq p.after
  have hu := sights_portMetadata_unresolved h
  rw [Place.script, ← hu]
  exact (congrArg (fun l => (g.generate l).sights) p.services_eq).trans hs

-- A generation that succeeds follows the whole script, also for what later entries take the place
-- of. One that fails stops after the opening of the first operation that does not resolve.
theorem generate_follows_script (g : Generator) (services : List Service) :
    (∀ tree, (g.generate services).outcome = .ok tree →
      (g.generate services).sights = script g.naming services) ∧
    ∀ e, (g.generate services).outcome = .error e → ∃ p : Place services,
      g.FirstUnresolved p ∧ e = .unresolvedNamespace p.operation.targetNamespace ∧
        (g.generate services).sights = p.script g.naming ∧
        p.script g.naming <+: script g.naming services := by
  constructor
  case left =>
    intro tree h
    exact sights_generate (generate_eq_ok_iff.mp h).left
  case right =>
    intro e h
    have ⟨p, hp, he⟩ := generate_eq_error_iff.mp h
    exact ⟨p, hp, he, sights_generate_unresolved hp, p.script_prefix g.naming⟩

-- The shop with an operation that does not resolve, between entries that do.
def Shop.brokenOff : List Service := [
  Shop.former,
  Shop.entry "http://broken" [
    Shop.find "first" [⟨"id", none, none⟩, ⟨"id", none, none⟩],
    { Shop.find "second" [] with targetNamespace := "urn:other", faults := [⟨"Closed", none⟩] }],
  Shop.latter]

theorem generate_follows_script_brokenOff :
    (Shop.generator.generate Shop.brokenOff).outcome = .error (.unresolvedNamespace "urn:other") ∧
    (∃ p : Place Shop.brokenOff, Shop.generator.FirstUnresolved p ∧
      (Shop.generator.generate Shop.brokenOff).sights = p.script Shop.generator.naming) ∧
    (Shop.generator.generate Shop.brokenOff).sights.getLast? =
      some (.logged .debug "Discarding fault Closed of operation find_item") := by
  have h : (Shop.generator.generate Shop.brokenOff).outcome =
      .error (.unresolvedNamespace "urn:other") := by decide +kernel
  have ⟨p, hp, _, hs, _⟩ := (generate_follows_script _ _).right _ h
  exact ⟨h, ⟨p, hp, hs⟩, by decide +kernel⟩

end Generator
end SoapBindings

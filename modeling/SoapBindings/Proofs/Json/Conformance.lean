import Mathlib.Data.List.Forall2
import SoapBindings.Json.Shape
import SoapBindings.Proofs.Json.Document
-- Which documents hold a value of a shape. A text holds itself, a list holds its items, and a
-- record holds what its fields do.

namespace SoapBindings.Json

namespace Document

variable {α : Type}

def IsText (d : Document) (s : String) : Prop :=
  d = .string s

def IsList (holds : Document → α → Prop) (d : Document) (l : List α) : Prop :=
  ∃ items, d = .array items ∧ List.Forall₂ holds items l

-- The values of all members with a name.
def named (name : String) (members : List (String × Document)) : List Document :=
  (members.filter (·.1 = name)).map Prod.snd

theorem named_cons (name key : String) (d : Document) (members : List (String × Document)) :
    named name ((key, d) :: members) =
      if key = name then d :: named name members else named name members := by
  by_cases h : key = name <;> simp [named, h]

-- What a document has for each of these fields. An object has it in members of their names, none of
-- which occurs twice, and its other members do not matter. An array has it in its items, in the
-- order of the fields, and there may be fewer items than fields but not more.
inductive HasFields (names : List String) : Document → List (Option Document) → Prop
  | object {members slots}
    (h : List.Forall₂ (fun name slot => named name members = slot.toList) names slots) :
    HasFields names (.object members) slots
  | array {items : List Document} {missing : Nat} (h : items.length + missing = names.length) :
    HasFields names (.array items) (items.map some ++ List.replicate missing none)

theorem hasFields_object_iff {names : List String} {members : List (String × Document)}
    {slots : List (Option Document)} :
    HasFields names (.object members) slots ↔
      List.Forall₂ (fun name slot => named name members = slot.toList) names slots :=
  ⟨fun h => match h with | .object h => h, .object⟩

theorem hasFields_array_iff {names : List String} {items : List Document}
    {slots : List (Option Document)} :
    HasFields names (.array items) slots ↔ ∃ missing, items.length + missing = names.length ∧
      slots = items.map some ++ List.replicate missing none :=
  ⟨fun h => match h with | .array h => ⟨_, h, rfl⟩, fun ⟨_, h, he⟩ => he ▸ .array h⟩

-- An array has the first field in its first item, and no field if it has no item.

theorem hasFields_array_nil_iff {name : String} {names : List String}
    {slots : List (Option Document)} :
    HasFields (name :: names) (.array []) slots ↔
      ∃ more, slots = none :: more ∧ HasFields names (.array []) more := by
  simp only [hasFields_array_iff, List.length_nil, List.length_cons, Nat.zero_add, List.map_nil,
    List.nil_append]
  constructor
  case mp  => exact fun ⟨_, h, he⟩ => ⟨_, he.trans (h ▸ rfl), _, rfl, rfl⟩
  case mpr => exact fun ⟨_, he, _, h, hm⟩ => ⟨_, rfl, he.trans (hm ▸ h ▸ rfl)⟩

theorem hasFields_array_cons_iff {name : String} {names : List String} {d : Document}
    {items : List Document} {slots : List (Option Document)} :
    HasFields (name :: names) (.array (d :: items)) slots ↔
      ∃ more, slots = some d :: more ∧ HasFields names (.array items) more := by
  simp only [hasFields_array_iff, List.length_cons, List.map_cons, List.cons_append]
  constructor
  case mp  => exact fun ⟨missing, h, he⟩ => ⟨_, he, missing, by omega, rfl⟩
  case mpr => exact fun ⟨_, he, missing, h, hm⟩ => ⟨missing, by omega, hm ▸ he⟩

-- What a field may hold for what there is of it.

def Required (holds : Document → α → Prop) (slot : Option Document) (a : α) : Prop :=
  ∃ d, slot = some d ∧ holds d a

def Defaulted (blank : α) (holds : Document → α → Prop) (slot : Option Document) (a : α) : Prop :=
  slot = none ∧ a = blank ∨ ∃ d, slot = some d ∧ holds d a

def Optional (holds : Document → α → Prop) (slot : Option Document) (a : Option α) : Prop :=
  (slot = none ∨ slot = some .null) ∧ a = none ∨
    ∃ d b, slot = some d ∧ holds d b ∧ a = some b

end Document

open Document

@[simp]
def Fields.names : Fields → List String
  | .nil                => []
  | .cons name _ _ rest => name :: rest.names

def Need.Holds {α : Type} (blank : α) (holds : Document → α → Prop) :
    (need : Need) → Option Document → need.Held α → Prop
  | .required  => Required holds
  | .defaulted => Defaulted blank holds
  | .optional  => Optional holds

mutual

def Shape.Holds : (shape : Shape) → Document → shape.Value → Prop
  | .text,            d, s     => IsText d s
  | .list item,       d, l     => IsList item.Holds d l
  | .record _ fields, d, value => ∃ slots, HasFields fields.names d slots ∧ fields.Holds slots value

def Fields.Holds : (fields : Fields) → List (Option Document) → fields.Value → Prop
  | .nil,                       slots, ()              => slots = []
  | .cons _ need shape rest, slots, (value, values) =>
    ∃ slot more, slots = slot :: more ∧ need.Holds shape.blank shape.Holds slot value ∧
      rest.Holds more values

end

-- What there is for the fields of a record, one after the other.

theorem Fields.exists_holds_nil_iff {p : List (Option Document) → Prop} :
    (∃ slots, p slots ∧ Fields.nil.Holds slots ()) ↔ p [] := by
  simp only [Holds, exists_eq_right]

theorem Fields.exists_holds_cons_iff {p : List (Option Document) → Prop} {name : String}
    {need : Need} {shape : Shape} {rest : Fields} {value : need.Held shape.Value}
    {values : rest.Value} :
    (∃ slots, p slots ∧ (Fields.cons name need shape rest).Holds slots (value, values)) ↔
      ∃ slot more, (p (slot :: more) ∧ need.Holds shape.blank shape.Holds slot value) ∧
        rest.Holds more values := by
  simp only [Holds]
  constructor
  case mp  => exact fun ⟨_, h, slot, more, he, hv, hvs⟩ => ⟨slot, more, ⟨he ▸ h, hv⟩, hvs⟩
  case mpr => exact fun ⟨slot, more, ⟨h, hv⟩, hvs⟩ => ⟨_, h, slot, more, rfl, hv, hvs⟩

-- Fields of a record have different names.
mutual

@[simp]
def Shape.Distinct : Shape → Prop
  | .text            => True
  | .list item       => item.Distinct
  | .record _ fields => fields.names.Nodup ∧ fields.Distinct

@[simp]
def Fields.Distinct : Fields → Prop
  | .nil                => True
  | .cons _ _ shape rest => shape.Distinct ∧ rest.Distinct

end

theorem Shape.not_holds_null (shape : Shape) (value : shape.Value) : ¬shape.Holds .null value := by
  intro h
  cases shape
  case text   => cases h
  case list   =>
    have ⟨_, h, _⟩ := h
    cases h
  case record =>
    have ⟨_, h, _⟩ := h
    cases h

end SoapBindings.Json

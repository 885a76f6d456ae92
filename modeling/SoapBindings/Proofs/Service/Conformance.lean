import SoapBindings.Proofs.Json.Writing
import SoapBindings.Service.Format
-- Which documents conform to a type of the service descriptions, and with which value. These are
-- the documents that are read, and this is the value that they are read as. What is written for a
-- value is one of them.

namespace SoapBindings

open Json Document

def QName.Conforms (d : Document) (q : QName) : Prop :=
  ∃ nspace name, HasFields ["namespace", "name"] d [nspace, name] ∧
    Required IsText nspace q.nspace ∧
    Required IsText name q.name

def Part.Conforms (d : Document) (p : Part) : Prop :=
  ∃ name type element, HasFields ["name", "type", "element"] d [name, type, element] ∧
    Required IsText name p.name ∧
    Document.Optional QName.Conforms type p.type ∧
    Document.Optional QName.Conforms element p.element

def Message.Conforms (d : Document) (m : Message) : Prop :=
  ∃ name parts, HasFields ["name", "parts"] d [name, parts] ∧
    Required IsText name m.name ∧
    Defaulted [] (IsList Part.Conforms) parts m.parts

def OperationMessage.Conforms (d : Document) (m : OperationMessage) : Prop :=
  ∃ operation message, HasFields ["operation", "message"] d [operation, message] ∧
    Required IsText operation m.operation ∧
    Required Message.Conforms message m.message

def Fault.Conforms (d : Document) (f : Fault) : Prop :=
  ∃ name message, HasFields ["name", "message"] d [name, message] ∧
    Required IsText name f.name ∧
    Document.Optional Message.Conforms message f.message

def Operation.Conforms (d : Document) (o : Operation) : Prop :=
  ∃ name action style targetNamespace input output faults,
    HasFields ["name", "action", "style", "target_namespace", "input", "output", "faults"] d
      [name, action, style, targetNamespace, input, output, faults] ∧
    Required IsText name o.name ∧
    Defaulted "" IsText action o.action ∧
    Required IsText style o.style ∧
    Required IsText targetNamespace o.targetNamespace ∧
    Required OperationMessage.Conforms input o.input ∧
    Required OperationMessage.Conforms output o.output ∧
    Defaulted [] (IsList Fault.Conforms) faults o.faults

def Service.Conforms (d : Document) (s : Service) : Prop :=
  ∃ service port address operations,
    HasFields ["service", "port", "address", "operations"] d
      [service, port, address, operations] ∧
    Required IsText service s.service ∧
    Required IsText port s.port ∧
    Required IsText address s.address ∧
    Defaulted [] (IsList Operation.Conforms) operations s.operations

-- A format whose shape holds the values that conform.
structure Format.Describes {α : Type} (f : Format α) (conforms : Document → α → Prop) : Prop where
  distinct  : f.shape.Distinct
  holds_iff : ∀ {d a}, f.shape.Holds d (f.toValue a) ↔ conforms d a

namespace Format

variable {α : Type} {f : Format α} {conforms : Document → α → Prop}

theorem toValue_eq_iff {a : α} {value : f.shape.Value} :
    f.toValue a = value ↔ a = f.ofValue value :=
  ⟨fun h => h ▸ (f.of_to a).symm, fun h => h ▸ f.to_of value⟩

theorem Describes.list (h : f.Describes conforms) : f.list.Describes (IsList conforms) where
  distinct := h.distinct
  holds_iff {d l} := by
    simp only [Format.list, Shape.Holds, IsList, List.forall₂_map_right_iff, h.holds_iff]

-- Fields of a described type.

theorem Describes.required_iff (h : f.Describes conforms) {slot : Option Document} {a : α} :
    Required f.shape.Holds slot (f.toValue a) ↔ Required conforms slot a := by
  simp only [Required, h.holds_iff]

theorem Describes.defaulted_list_iff (h : f.Describes conforms) {slot : Option Document}
    {l : List α} :
    Defaulted f.list.shape.blank f.list.shape.Holds slot (f.list.toValue l) ↔
      Defaulted [] (IsList conforms) slot l := by
  simp only [Defaulted, h.list.holds_iff, toValue_eq_iff]
  rfl

theorem Describes.optional_iff (h : f.Describes conforms) {slot : Option Document} {a : Option α} :
    Document.Optional f.shape.Holds slot (a.map f.toValue) ↔ Document.Optional conforms slot a := by
  cases a
  case none   => simp [Document.Optional]
  case some a => simp [Document.Optional, h.holds_iff]

-- Texts.

theorem Describes.read_eq_ok_iff (h : f.Describes conforms) {d : Document} {text : String}
    (ht : d.Spelling text) {a : α} : f.read text = .ok a ↔ conforms d a := by
  rw [read, Except.map_eq_ok_iff, ← h.holds_iff]
  simp only [Shape.readText_eq_ok_iff h.distinct ht]
  constructor
  case mp  => exact fun ⟨value, hv, he⟩ => he ▸ (f.to_of value).symm ▸ hv
  case mpr => exact fun hv => ⟨_, hv, f.of_to a⟩

theorem Describes.read_write (h : f.Describes conforms) (a : α) : f.read (f.write a) = .ok a := by
  rw [read, write, Shape.readText_writeText h.distinct]
  exact congrArg Except.ok (f.of_to a)

end Format

-- The types, one after the other.

theorem QName.describes : QName.format.Describes QName.Conforms where
  distinct := by simp [QName.format]
  holds_iff := by
    intros
    simp only [QName.format, Shape.Holds, Fields.names, Fields.exists_holds_cons_iff,
      Fields.exists_holds_nil_iff, Need.Holds]
    simp only [QName.Conforms, and_assoc]

theorem Part.describes : Part.format.Describes Part.Conforms where
  distinct := by simp [Part.format, QName.describes.distinct]
  holds_iff := by
    intros
    simp only [Part.format, Shape.Holds, Fields.names, Fields.exists_holds_cons_iff,
      Fields.exists_holds_nil_iff, Need.Holds, QName.describes.optional_iff]
    simp only [Part.Conforms, and_assoc]

theorem Message.describes : Message.format.Describes Message.Conforms where
  distinct := by simp [Message.format, Part.describes.list.distinct]
  holds_iff := by
    intros
    simp only [Message.format, Shape.Holds, Fields.names, Fields.exists_holds_cons_iff,
      Fields.exists_holds_nil_iff, Need.Holds, Part.describes.defaulted_list_iff]
    simp only [Message.Conforms, and_assoc]

theorem OperationMessage.describes :
    OperationMessage.format.Describes OperationMessage.Conforms where
  distinct := by simp [OperationMessage.format, Message.describes.distinct]
  holds_iff := by
    intros
    simp only [OperationMessage.format, Shape.Holds, Fields.names, Fields.exists_holds_cons_iff,
      Fields.exists_holds_nil_iff, Need.Holds, Message.describes.required_iff]
    simp only [OperationMessage.Conforms, and_assoc]

theorem Fault.describes : Fault.format.Describes Fault.Conforms where
  distinct := by simp [Fault.format, Message.describes.distinct]
  holds_iff := by
    intros
    simp only [Fault.format, Shape.Holds, Fields.names, Fields.exists_holds_cons_iff,
      Fields.exists_holds_nil_iff, Need.Holds, Message.describes.optional_iff]
    simp only [Fault.Conforms, and_assoc]

theorem Operation.describes : Operation.format.Describes Operation.Conforms where
  distinct := by
    simp [Operation.format, OperationMessage.describes.distinct, Fault.describes.list.distinct]
  holds_iff := by
    intros
    simp only [Operation.format, Shape.Holds, Fields.names, Fields.exists_holds_cons_iff,
      Fields.exists_holds_nil_iff, Need.Holds, Shape.blank,
      OperationMessage.describes.required_iff, Fault.describes.defaulted_list_iff]
    simp only [Operation.Conforms, and_assoc]

theorem Service.describes : Service.format.Describes Service.Conforms where
  distinct := by simp [Service.format, Operation.describes.list.distinct]
  holds_iff := by
    intros
    simp only [Service.format, Shape.Holds, Fields.names, Fields.exists_holds_cons_iff,
      Fields.exists_holds_nil_iff, Need.Holds, Operation.describes.defaulted_list_iff]
    simp only [Service.Conforms, and_assoc]

-- A type of the descriptions that can be read and written on its own.
inductive Description where
  | qname
  | part
  | message
  | operationMessage
  | fault
  | operation
  | service
  | services

namespace Description

def Carrier : Description → Type
  | qname            => QName
  | part             => Part
  | message          => Message
  | operationMessage => OperationMessage
  | fault            => Fault
  | operation        => Operation
  | service          => Service
  | services         => List Service

def format : (type : Description) → Format type.Carrier
  | qname            => QName.format
  | part             => Part.format
  | message          => Message.format
  | operationMessage => OperationMessage.format
  | fault            => Fault.format
  | operation        => Operation.format
  | service          => Service.format
  | services         => Service.format.list

def Conforms : (type : Description) → Document → type.Carrier → Prop
  | qname            => QName.Conforms
  | part             => Part.Conforms
  | message          => Message.Conforms
  | operationMessage => OperationMessage.Conforms
  | fault            => Fault.Conforms
  | operation        => Operation.Conforms
  | service          => Service.Conforms
  | services         => IsList Service.Conforms

theorem describes : (type : Description) → type.format.Describes type.Conforms
  | qname            => QName.describes
  | part             => Part.describes
  | message          => Message.describes
  | operationMessage => OperationMessage.describes
  | fault            => Fault.describes
  | operation        => Operation.describes
  | service          => Service.describes
  | services         => Service.describes.list

-- Every spelling of a document is read as the value that the document conforms with, and it is
-- rejected if there is none.
theorem read_conforming (type : Description) {d : Document} {text : String}
    (ht : d.Spelling text) :
    (∀ a, type.format.read text = .ok a ↔ type.Conforms d a) ∧
    ((∃ e, type.format.read text = .error e) ↔ ¬∃ a, type.Conforms d a) := by
  have hr {a : type.Carrier} := type.describes.read_eq_ok_iff ht (a := a)
  refine ⟨fun _ => hr, ?_⟩
  simp only [← hr]
  cases type.format.read text
  case error e => exact ⟨fun _ ⟨_, h⟩ => (nomatch h), fun _ => ⟨e, rfl⟩⟩
  case ok a    => exact ⟨fun ⟨_, h⟩ => (nomatch h), fun h => absurd ⟨a, rfl⟩ h⟩

theorem read_conforming_part :
    Document.Spelling (.object [("x", .array []), ("name", .string "/"), ("type", .null)])
      "\x7b\"x\":[ ],\t\"name\":\"\\/\",\"type\":null\x7d" ∧
    part.format.read "\x7b\"x\":[ ],\t\"name\":\"\\/\",\"type\":null\x7d" =
      .ok { name := "/", type := none, element := none } := by
  have hb : Blanks [' '] ∧ Blanks ['\t'] := by simp [Blanks]
  have hc : CharsSpelling "/".toList ['\\', '/'] := .cons (.short (by decide)) .nil
  have hx : (Lexeme.string "x").Spelling ['"', 'x', '"'] := Value.quote_spells "x"
  have hn : (Lexeme.string "name").Spelling ['"', 'n', 'a', 'm', 'e', '"'] :=
    Value.quote_spells "name"
  have ht : (Lexeme.string "type").Spelling ['"', 't', 'y', 'p', 'e', '"'] :=
    Value.quote_spells "type"
  have hv : (Lexeme.string "/").Spelling ['"', '\\', '/', '"'] := StringSpelling.intro hc
  have hz : Lexeme.null.Spelling ['n', 'u', 'l', 'l'] := rfl
  have hl : Lexeme.closeArray.Spelling [']'] := rfl
  have hs : Document.Spelling
      (.object [("x", .array []), ("name", .string "/"), ("type", .null)])
      "\x7b\"x\":[ ],\t\"name\":\"\\/\",\"type\":null\x7d" := by
    simp only [Document.Spelling, lexemes, memberLexemes, itemLexemes, List.cons_append,
      List.nil_append, String.reduceToList]
    refine .mark rfl (.tight hx (.mark rfl (.mark rfl (.cons hb.left hl ?_))))
    refine .mark rfl (.cons hb.right hn (.mark rfl (.tight hv ?_)))
    refine .mark rfl (.tight ht (.mark rfl (.tight hz (.mark rfl (.nil ?_)))))
    exact fun _ h => nomatch h
  refine ⟨hs, (read_conforming part hs).left _ |>.mpr ?_⟩
  refine ⟨some (.string "/"), some .null, none, hasFields_object_iff.mpr ?_, ?_⟩
  case refine_1 => simp [named]
  case refine_2 => exact ⟨⟨_, rfl, rfl⟩, .inl ⟨.inr rfl, rfl⟩, .inl ⟨.inl rfl, rfl⟩⟩

-- A text that is read need not be the one that is written for its value, but from there on neither
-- the value nor the text changes.
theorem round_trip (type : Description) :
    (∀ a, type.format.read (type.format.write a) = .ok a) ∧
    ∀ text a, type.format.read text = .ok a →
      type.format.read (type.format.write a) = .ok a ∧
      type.format.write <$> type.format.read (type.format.write a) = .ok (type.format.write a) := by
  have hr := type.describes.read_write
  refine ⟨hr, fun text a _ => ⟨hr a, ?_⟩⟩
  rw [hr]
  rfl

theorem round_trip_part :
    part.format.read " [\"\\u0041\\\"\\ud83d\\ude00\", null ]" =
      .ok { name := "A\"😀", type := none, element := none } ∧
    part.format.write { name := "A\"😀", type := none, element := none } =
      "\x7b\"name\":\"A\\\"😀\"\x7d" ∧
    part.format.read "\x7b\"name\":\"A\\\"😀\"\x7d" =
      .ok { name := "A\"😀", type := none, element := none } := by
  have hr : part.format.read " [\"\\u0041\\\"\\ud83d\\ude00\", null ]" =
      .ok { name := "A\"😀", type := none, element := none } := rfl
  exact ⟨hr, rfl, (round_trip part).right _ _ hr |>.left⟩

end Description
end SoapBindings

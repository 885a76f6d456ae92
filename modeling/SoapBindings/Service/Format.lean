import SoapBindings.Json.Format
import SoapBindings.Service
-- The JSON form of service descriptions. The names of the fields are those of the texts.

namespace SoapBindings

open Json

def QName.format : Format QName where
  shape := .record "QName" (
    .cons "namespace" .required .text <|
    .cons "name" .required .text .nil)
  ofValue := fun (nspace, name, ()) => { nspace, name }
  toValue q := (q.nspace, q.name, ())
  of_to _ := rfl
  to_of _ := rfl

def Part.format : Format Part where
  shape := .record "Part" (
    .cons "name" .required .text <|
    .cons "type" .optional QName.format.shape <|
    .cons "element" .optional QName.format.shape .nil)
  ofValue := fun (name, type, element, ()) =>
    { name, type := type.map QName.format.ofValue, element := element.map QName.format.ofValue }
  toValue p := (p.name, p.type.map QName.format.toValue, p.element.map QName.format.toValue, ())
  of_to p := by simp [Function.comp_def, QName.format.of_to]
  to_of v := by simp [Function.comp_def, QName.format.to_of]

def Message.format : Format Message where
  shape := .record "Message" (
    .cons "name" .required .text <|
    .cons "parts" .defaulted Part.format.list.shape .nil)
  ofValue := fun (name, parts, ()) => { name, parts := Part.format.list.ofValue parts }
  toValue m := (m.name, Part.format.list.toValue m.parts, ())
  of_to m := by simp [Part.format.list.of_to]
  to_of v := by simp [Part.format.list.to_of]

def OperationMessage.format : Format OperationMessage where
  shape := .record "OperationMessage" (
    .cons "operation" .required .text <|
    .cons "message" .required Message.format.shape .nil)
  ofValue := fun (operation, message, ()) =>
    { operation, message := Message.format.ofValue message }
  toValue m := (m.operation, Message.format.toValue m.message, ())
  of_to m := by simp [Message.format.of_to]
  to_of v := by simp [Message.format.to_of]

def Fault.format : Format Fault where
  shape := .record "Fault" (
    .cons "name" .required .text <|
    .cons "message" .optional Message.format.shape .nil)
  ofValue := fun (name, message, ()) => { name, message := message.map Message.format.ofValue }
  toValue f := (f.name, f.message.map Message.format.toValue, ())
  of_to f := by simp [Function.comp_def, Message.format.of_to]
  to_of v := by simp [Function.comp_def, Message.format.to_of]

def Operation.format : Format Operation where
  shape := .record "Operation" (
    .cons "name" .required .text <|
    .cons "action" .defaulted .text <|
    .cons "style" .required .text <|
    .cons "target_namespace" .required .text <|
    .cons "input" .required OperationMessage.format.shape <|
    .cons "output" .required OperationMessage.format.shape <|
    .cons "faults" .defaulted Fault.format.list.shape .nil)
  ofValue := fun (name, action, style, targetNamespace, input, output, faults, ()) => {
    name, action, style, targetNamespace
    input  := OperationMessage.format.ofValue input
    output := OperationMessage.format.ofValue output
    faults := Fault.format.list.ofValue faults
  }
  toValue o :=
    (o.name, o.action, o.style, o.targetNamespace, OperationMessage.format.toValue o.input,
      OperationMessage.format.toValue o.output, Fault.format.list.toValue o.faults, ())
  of_to o := by simp [OperationMessage.format.of_to, Fault.format.list.of_to]
  to_of v := by simp [OperationMessage.format.to_of, Fault.format.list.to_of]

def Service.format : Format Service where
  shape := .record "Service" (
    .cons "service" .required .text <|
    .cons "port" .required .text <|
    .cons "address" .required .text <|
    .cons "operations" .defaulted Operation.format.list.shape .nil)
  ofValue := fun (service, port, address, operations, ()) =>
    { service, port, address, operations := Operation.format.list.ofValue operations }
  toValue s := (s.service, s.port, s.address, Operation.format.list.toValue s.operations, ())
  of_to s := by simp [Operation.format.list.of_to]
  to_of v := by simp [Operation.format.list.to_of]

end SoapBindings

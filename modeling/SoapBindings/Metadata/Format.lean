import SoapBindings.Json.Value
import SoapBindings.Metadata
-- The JSON form of metadata. Maps are objects whose members are in the order of their names, and
-- records are objects of their fields.

namespace SoapBindings

open Json (Value)

def StringMap.toJson {α : Type} (write : α → Value) (m : StringMap α) : Value :=
  .object (m.entries.map fun (key, value) => (key, write value))

def MessageMetadata.toJson (m : MessageMetadata) : Value := .object [
  ("message_fqcn", .string m.messageClass),
  ("headers_fqcn", .string m.headersClass),
  ("part_fqcn",    .string m.partClass),
  ("parts",        m.parts.toJson .string)]

def OperationMetadata.toJson (o : OperationMetadata) : Value := .object [
  ("action", .string o.action),
  ("style",  .string o.style),
  ("name",   .string o.name),
  ("method", .string o.method),
  ("input",  o.input.toJson),
  ("output", o.output.toJson),
  ("fault",  o.fault.toJson .string)]

def PortMetadata.toJson (p : PortMetadata) : Value := .object [
  ("operations", p.operations.toJson OperationMetadata.toJson),
  ("unwrap",     .boolean p.unwrap),
  ("endpoint",   .string p.endpoint)]

def Metadata.toJson (tree : Metadata) : Value :=
  StringMap.toJson (StringMap.toJson PortMetadata.toJson) tree

end SoapBindings

import SoapBindings.Metadata.Format
import SoapBindings.Proofs.Json.Decoding
import SoapBindings.Proofs.Json.Pretty
import SoapBindings.Proofs.StringMap
import SoapBindings.Proofs.Text.Utf8
-- Metadata as it is written. The text is a JSON document of the whole tree and of nothing else, so
-- the tree is read back from it.

namespace SoapBindings

namespace Json.Document

variable {α : Type}

-- An object of the entries of a map, in the order of the bytes of their keys.
def IsMap (holds : Document → α → Prop) (d : Document) (m : StringMap α) : Prop :=
  ∃ members, d = .object members ∧
    members.Pairwise (fun a b => Text.utf8 a.1 < Text.utf8 b.1) ∧
    List.Forall₂ (fun member entry => member.1 = entry.1 ∧ holds member.2 entry.2)
      members m.entries

def IsMessage (d : Document) (m : MessageMetadata) : Prop :=
  ∃ parts, IsMap IsText parts m.parts ∧ d = .object [
    ("message_fqcn", .string m.messageClass),
    ("headers_fqcn", .string m.headersClass),
    ("part_fqcn",    .string m.partClass),
    ("parts",        parts)]

def IsOperation (d : Document) (o : OperationMetadata) : Prop :=
  ∃ input output fault, IsMessage input o.input ∧ IsMessage output o.output ∧
    IsMap IsText fault o.fault ∧ d = .object [
      ("action", .string o.action),
      ("style",  .string o.style),
      ("name",   .string o.name),
      ("method", .string o.method),
      ("input",  input),
      ("output", output),
      ("fault",  fault)]

def IsPort (d : Document) (p : PortMetadata) : Prop :=
  ∃ operations, IsMap IsOperation operations p.operations ∧ d = .object [
    ("operations", operations),
    ("unwrap",     .boolean p.unwrap),
    ("endpoint",   .string p.endpoint)]

def IsMetadata (d : Document) (tree : Metadata) : Prop :=
  IsMap (IsMap IsPort) d tree

-- Decoding. Fields are found by their names, and there must be one of each name.

def text? : Document → Option String
  | .string s => some s
  | _         => none

def boolean? : Document → Option Bool
  | .boolean b => some b
  | _          => none

def field? (name : String) : Document → Option Document
  | .object members =>
    match named name members with
    | [d] => some d
    | _   => none
  | _               => none

def map? (decode : Document → Option α) : Document → Option (StringMap α)
  | .object members => do
    let entries ← members.mapM fun (name, d) => do return (name, ← decode d)
    return .ofList entries
  | _               => none

def message? (d : Document) : Option MessageMetadata := do
  return {
    messageClass := ← d.field? "message_fqcn" >>= text?
    headersClass := ← d.field? "headers_fqcn" >>= text?
    partClass    := ← d.field? "part_fqcn" >>= text?
    parts        := ← d.field? "parts" >>= map? text?
  }

def operation? (d : Document) : Option OperationMetadata := do
  return {
    action := ← d.field? "action" >>= text?
    style  := ← d.field? "style" >>= text?
    name   := ← d.field? "name" >>= text?
    method := ← d.field? "method" >>= text?
    input  := ← d.field? "input" >>= message?
    output := ← d.field? "output" >>= message?
    fault  := ← d.field? "fault" >>= map? text?
  }

def port? (d : Document) : Option PortMetadata := do
  return {
    operations := ← d.field? "operations" >>= map? operation?
    unwrap     := ← d.field? "unwrap" >>= boolean?
    endpoint   := ← d.field? "endpoint" >>= text?
  }

def metadata? : Document → Option Metadata :=
  map? (map? port?)

-- What a document holds is what it is decoded to.
def Decodes (decode : Document → Option α) (holds : Document → α → Prop) : Prop :=
  ∀ ⦃d a⦄, holds d a → decode d = some a

theorem decodes_text : Decodes text? IsText := by
  intro d s h
  rw [h, text?]

theorem mapM_eq_some_of_forall₂ {β γ : Type} {f : β → Option γ} {l : List β} {m : List γ}
    (h : List.Forall₂ (fun b c => f b = some c) l m) : l.mapM f = some m := by
  induction h
  case nil => rfl
  case cons b c l m hb _ hi =>
    rw [List.mapM_cons, hb, hi]
    rfl

theorem decodes_map {decode : Document → Option α} {holds : Document → α → Prop}
    (h : Decodes decode holds) : Decodes (map? decode) (IsMap holds) := by
  intro d m ⟨members, hd, _, hm⟩
  have he : members.mapM (fun (name, d) => do return (name, ← decode d)) = some m.entries := by
    refine mapM_eq_some_of_forall₂ (hm.imp fun member entry ⟨hn, hv⟩ => ?_)
    have he : (member.1, entry.2) = entry := Prod.ext hn rfl
    simp [h hv, he]
  rw [hd, map?, he]
  exact congrArg some (StringMap.ofList_of_perm .rfl)

theorem decodes_message : Decodes message? IsMessage := by
  intro d m ⟨parts, hp, hd⟩
  subst hd
  simp [message?, field?, named, text?, decodes_map decodes_text hp]

theorem decodes_operation : Decodes operation? IsOperation := by
  intro d o ⟨input, output, fault, hi, ho, hf, hd⟩
  subst hd
  simp [operation?, field?, named, text?, decodes_message hi, decodes_message ho,
    decodes_map decodes_text hf]

theorem decodes_port : Decodes port? IsPort := by
  intro d p ⟨operations, ho, hd⟩
  subst hd
  simp [port?, field?, named, text?, boolean?, decodes_map decodes_operation ho]

theorem decodes_metadata : Decodes metadata? IsMetadata :=
  decodes_map (decodes_map decodes_port)

end Json.Document

open Json Document

theorem StringMap.isMap_toJson {α : Type} {write : α → Value} {holds : Document → α → Prop}
    (h : ∀ a, holds (write a).document a) (m : StringMap α) :
    IsMap holds (m.toJson write).document m := by
  refine ⟨_, rfl, ?ascending, ?entries⟩
  case ascending =>
    rw [Value.memberDocuments_eq, List.map_map, List.pairwise_map]
    exact m.ascending.imp Text.utf8_lt_of_lt
  case entries =>
    rw [Value.memberDocuments_eq, List.map_map, List.forall₂_map_left_iff, List.forall₂_same]
    exact fun entry _ => ⟨rfl, h entry.2⟩

theorem MessageMetadata.isMessage_toJson (m : MessageMetadata) : IsMessage m.toJson.document m :=
  ⟨_, m.parts.isMap_toJson fun _ => rfl, rfl⟩

theorem OperationMetadata.isOperation_toJson (o : OperationMetadata) :
    IsOperation o.toJson.document o :=
  ⟨_, _, _, o.input.isMessage_toJson, o.output.isMessage_toJson,
    o.fault.isMap_toJson fun _ => rfl, rfl⟩

theorem PortMetadata.isPort_toJson (p : PortMetadata) : IsPort p.toJson.document p :=
  ⟨_, p.operations.isMap_toJson OperationMetadata.isOperation_toJson, rfl⟩

namespace Metadata

theorem isMetadata_toJson (tree : Metadata) : IsMetadata (toJson tree).document tree :=
  StringMap.isMap_toJson (StringMap.isMap_toJson PortMetadata.isPort_toJson) tree

theorem read?_prettyText (tree : Metadata) :
    (Document.read? (toJson tree).prettyText >>= metadata?) = some tree := by
  rw [read?_of_spelling (toJson tree).spelling_prettyText]
  exact decodes_metadata tree.isMetadata_toJson

theorem prettyText_inj {t₁ t₂ : Metadata}
    (h : (toJson t₁).prettyText = (toJson t₂).prettyText) : t₁ = t₂ := by
  have hr := h ▸ read?_prettyText t₁
  exact Option.some.inj (hr.symm.trans t₂.read?_prettyText)

-- The text of a tree spells one document, which holds the tree as it is and with the keys of each
-- map in order. So the tree is read back from its text, and no other tree has this text.
theorem prettyText_faithful (tree : Metadata) :
    (∃ d : Document, d.Spelling (toJson tree).prettyText ∧
      (∀ d' : Document, d'.Spelling (toJson tree).prettyText → d' = d) ∧ d.IsMetadata tree) ∧
    (Document.read? (toJson tree).prettyText >>= metadata?) = some tree ∧
    ∀ tree', (toJson tree').prettyText = (toJson tree).prettyText → tree' = tree := by
  have hs := (toJson tree).spelling_prettyText
  exact ⟨⟨_, hs, fun d' h => eq_of_spelling h hs, tree.isMetadata_toJson⟩, tree.read?_prettyText,
    fun tree' h => prettyText_inj h⟩

-- Its names hold marks of the text itself and control characters.
def quaint (parts : List (String × String)) : Metadata :=
  let message : MessageMetadata := {
    messageClass := "\\Body\"",
    headersClass := "",
    partClass    := "\t/",
    parts        := .ofList parts
  }
  let operation : OperationMetadata := {
    action := "urn:\x00",
    style  := "document",
    name   := "say \"hi\"",
    method := "say",
    input  := message,
    output := message,
    fault  := ∅
  }
  record ∅ "\x7b\x7d" "],\n" {
    operations := .ofList [("say \"hi\"", operation)],
    unwrap     := true,
    endpoint   := "\": "
  }

-- The order of these two parts is another one in UTF-16.
theorem prettyText_faithful_quaint :
    (toJson (quaint [("😀", "a"), ("\uff61", "b")])).prettyText =
      (toJson (quaint [("\uff61", "b"), ("😀", "a")])).prettyText ∧
    quaint [("😀", "a"), ("\uff61", "b")] = quaint [("\uff61", "b"), ("😀", "a")] := by
  have h : (toJson (quaint [("😀", "a"), ("\uff61", "b")])).pretty 0 =
      (toJson (quaint [("\uff61", "b"), ("😀", "a")])).pretty 0 := by decide +kernel
  have ht := congrArg String.ofList h
  exact ⟨ht, (prettyText_faithful _).right.right _ ht⟩

end Metadata
end SoapBindings

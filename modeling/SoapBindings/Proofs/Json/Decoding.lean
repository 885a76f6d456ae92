import SoapBindings.Proofs.Json.Outline
-- The document that a text spells. A text spells one document at most, and it can be read off the
-- outline of the text.

namespace SoapBindings.Json

namespace Outline

mutual

-- An outline that breaks off, or with a string that stands for no text, has no document.
def document? : Outline → Option Document
  | null                   => some .null
  | boolean b              => some (.boolean b)
  | number n               => some (.number n)
  | string content         => (CodeUnit.text? content).map .string
  | array items .closed    => (documents? items).map .array
  | object members .closed => (memberDocuments? members).map .object
  | _                      => none

def documents? : List Outline → Option (List Document)
  | []            => some []
  | item :: items => do return (← document? item) :: (← documents? items)

def memberDocuments? : List (List CodeUnit × Outline) → Option (List (String × Document))
  | []                     => some []
  | (key, value) :: members => do
    return (← CodeUnit.text? key, ← document? value) :: (← memberDocuments? members)

end

end Outline

-- Reads a whole text, around whose value there may be blanks.
def Document.read? (text : String) : Option Document :=
  match Outline.ofChars text.toList with
  | (outline, false) => outline.document?
  | (_, true)        => none

mutual

theorem Depicts.document? : {d : Document} → {o : Outline} → Depicts d o → o.document? = some d
  | .null,           _, .null      => rfl
  | .boolean _,      _, .boolean _ => rfl
  | .number _,       _, .number _  => rfl
  | .string s,       _, .string h  => by rw [Outline.document?, h, Option.map_some]
  | .array items,    _, .array h   => by
    rw [Outline.document?, Depicts.documents? items h, Option.map_some]
  | .object members, _, .object h  => by
    rw [Outline.document?, Depicts.memberDocuments? members h, Option.map_some]

theorem Depicts.documents? : (items : List Document) → {outlines : List Outline} →
    List.Forall₂ Depicts items outlines → Outline.documents? outlines = some items
  | [],         _, .nil       => rfl
  | _ :: items, _, .cons hd h => by
    rw [Outline.documents?, hd.document?, Depicts.documents? items h]
    rfl

theorem Depicts.memberDocuments? : (members : List (String × Document)) →
    {outlines : List (List CodeUnit × Outline)} →
    List.Forall₂ DepictsMember members outlines → Outline.memberDocuments? outlines = some members
  | [],                _, .nil                     => rfl
  | (_, _) :: members, _, .cons (.intro hk hd) h => by
    rw [Outline.memberDocuments?, hk, hd.document?, Depicts.memberDocuments? members h]
    rfl

end

namespace Document

theorem read?_of_spelling {d : Document} {text : String} (h : d.Spelling text) :
    read? text = some d := by
  have ⟨o, hd, ho⟩ := ofChars_of_spells h
  rw [read?, ho]
  exact hd.document?

theorem eq_of_spelling {d d' : Document} {text : String} (h : d.Spelling text)
    (h' : d'.Spelling text) : d = d' :=
  Option.some.inj ((read?_of_spelling h).symm.trans (read?_of_spelling h'))

end Document
end SoapBindings.Json

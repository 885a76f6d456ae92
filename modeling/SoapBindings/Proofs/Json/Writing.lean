import SoapBindings.Json.Writer
import SoapBindings.Proofs.Json.Reading
-- A value that is written compactly is the spelling of a document that holds it, so it is read
-- back.

namespace SoapBindings.Json

namespace Value

mutual

def document : Value → Document
  | null           => .null
  | boolean b      => .boolean b
  | string s       => .string s
  | array items    => .array (itemDocuments items)
  | object members => .object (memberDocuments members)

def itemDocuments : List Value → List Document
  | []            => []
  | item :: items => document item :: itemDocuments items

def memberDocuments : List (String × Value) → List (String × Document)
  | []                       => []
  | (name, value) :: members => (name, document value) :: memberDocuments members

end

-- Characters.

theorem hexDigit_spells (n : Nat) : HexDigit (n % 16) (hexDigit n) :=
  ⟨Nat.mod_lt n (by decide), .inl rfl⟩

theorem escape_spells (c : Char) : CharSpelling c (escape c) := by
  unfold escape
  split
  case h_8 _ hq hb _ _ _ _ _ =>
    split
    case isTrue h =>
      have h₁ : c.toNat / 0x1000 = 0 := by omega
      have h₂ : c.toNat / 0x100 = 0 := by omega
      refine .hex (.intro ?_ ?_ (hexDigit_spells _) (hexDigit_spells _))
      case refine_1 => exact h₁ ▸ hexDigit_spells 0
      case refine_2 => exact h₂ ▸ hexDigit_spells 0
    case isFalse h => exact .plain (Nat.not_lt.mp h) hq hb
  all_goals exact .short (by decide)

theorem flatMap_escape_spells : (cs : List Char) → CharsSpelling cs (cs.flatMap escape)
  | []      => .nil
  | c :: cs => .cons (escape_spells c) (flatMap_escape_spells cs)

theorem quote_spells (s : String) : StringSpelling s (quote s) :=
  .intro (flatMap_escape_spells s.toList)

end Value

-- Lexemes without blanks between them.

theorem Spells.tight {lexeme : Lexeme} {spelling rest : List Char} {more : List Lexeme}
    (hl : lexeme.Spelling spelling) (hr : Spells more rest) :
    Spells (lexeme :: more) (spelling ++ rest) := by
  have hb : Blanks [] := fun _ h => nomatch h
  exact .cons hb hl hr

theorem Spells.mark {lexeme : Lexeme} {c : Char} {rest : List Char} {more : List Lexeme}
    (hl : lexeme.Spelling [c]) (hr : Spells more rest) : Spells (lexeme :: more) (c :: rest) :=
  hr.tight hl

namespace Value

open Document

mutual

theorem compact_spells : (v : Value) → {more : List Lexeme} → {rest : List Char} →
    Spells more rest → Spells (v.document.lexemes ++ more) (v.compact ++ rest)
  | null,           _, _, h => h.tight rfl
  | boolean true,   _, _, h => h.tight rfl
  | boolean false,  _, _, h => h.tight rfl
  | string s,       _, _, h => h.tight (quote_spells s)
  | array items,    _, _, h => by
    simp only [document, lexemes, compact, List.cons_append, List.append_assoc, List.nil_append]
    exact .mark rfl (compactItems_spells items (.mark rfl h))
  | object members, _, _, h => by
    simp only [document, lexemes, compact, List.cons_append, List.append_assoc, List.nil_append]
    exact .mark rfl (compactMembers_spells members (.mark rfl h))

theorem compactItems_spells : (items : List Value) → {more : List Lexeme} → {rest : List Char} →
    Spells more rest →
    Spells (itemLexemes (itemDocuments items) ++ more) (compactItems items ++ rest)
  | [],                    _, _, h => h
  | [item],                _, _, h => compact_spells item h
  | item :: next :: items, _, _, h => by
    simp only [itemDocuments, itemLexemes, compactItems, List.cons_append, List.append_assoc]
    exact compact_spells item (.mark rfl (compactItems_spells (next :: items) h))

theorem compactMembers_spells : (members : List (String × Value)) → {more : List Lexeme} →
    {rest : List Char} → Spells more rest →
    Spells (memberLexemes (memberDocuments members) ++ more) (compactMembers members ++ rest)
  | [],                              _, _, h => h
  | [(name, value)],                 _, _, h => by
    simp only [memberDocuments, memberLexemes, compactMembers, List.cons_append,
      List.append_assoc]
    exact .tight (quote_spells name) (.mark rfl (compact_spells value h))
  | (name, value) :: next :: members, _, _, h => by
    simp only [memberDocuments, memberLexemes, compactMembers, List.cons_append,
      List.append_assoc]
    have hm := compactMembers_spells (next :: members) h
    exact .tight (quote_spells name) (.mark rfl (compact_spells value (.mark rfl hm)))

end

theorem spelling_compactText (v : Value) : v.document.Spelling v.compactText := by
  have hb : Spells [] [] := .nil fun _ h => nomatch h
  have h := v.compact_spells hb
  rwa [List.append_nil, List.append_nil, ← String.toList_ofList (l := v.compact)] at h

end Value

-- What is written for a value is a document that holds it.

open Value Document

theorem Value.itemDocuments_eq (items : List Value) : itemDocuments items = items.map document := by
  induction items <;> simp_all [itemDocuments]

theorem Value.memberDocuments_eq (members : List (String × Value)) :
    memberDocuments members = members.map fun (name, value) => (name, value.document) := by
  induction members <;> simp_all [memberDocuments]

theorem Value.memberDocuments_append (members more : List (String × Value)) :
    memberDocuments (members ++ more) = memberDocuments members ++ memberDocuments more := by
  simp only [memberDocuments_eq, List.map_append]

-- Members for one field.
theorem Need.holds_members {α : Type} (need : Need) {name : String} {write : α → Value} {blank : α}
    {holds : Document → α → Prop} (h : ∀ a, holds (write a).document a) (value : need.Held α) :
    ∃ slot : Option Document,
      memberDocuments (need.members name write value) = slot.toList.map (name, ·) ∧
      need.Holds blank holds slot value := by
  cases need
  case required  => exact ⟨_, rfl, _, rfl, h value⟩
  case defaulted => exact ⟨_, rfl, .inr ⟨_, rfl, h value⟩⟩
  case optional  =>
    cases value
    case none   => exact ⟨none, rfl, .inl ⟨.inl rfl, rfl⟩⟩
    case some a => exact ⟨_, rfl, .inr ⟨_, _, rfl, h a, rfl⟩⟩

theorem Need.name_of_mem_members {α : Type} {need : Need} {name : String} {write : α → Value}
    {value : need.Held α} {member : String × Value} (h : member ∈ need.members name write value) :
    member.1 = name := by
  cases need
  case required  => exact List.mem_singleton.mp h ▸ rfl
  case defaulted => exact List.mem_singleton.mp h ▸ rfl
  case optional  =>
    cases value
    case none   => exact nomatch h
    case some a => exact List.mem_singleton.mp h ▸ rfl

theorem Fields.name_of_mem_write : (fields : Fields) → {value : fields.Value} →
    {member : String × Json.Value} → member ∈ fields.write value → member.1 ∈ fields.names
  | .nil, (), _, h => nomatch h
  | .cons name need shape rest, (value, values), member, h => by
    rcases List.mem_append.mp h with h | h
    case inl => exact Need.name_of_mem_members h ▸ List.mem_cons_self
    case inr => exact List.mem_cons_of_mem _ (rest.name_of_mem_write h)

theorem Fields.named_write_eq_nil {fields : Fields} {value : fields.Value} {name : String}
    (h : name ∉ fields.names) : named name (memberDocuments (fields.write value)) = [] := by
  rw [memberDocuments_eq, named, List.map_eq_nil_iff, List.filter_eq_nil_iff]
  intro member hm he
  obtain ⟨_, hw, hn⟩ := List.mem_map.mp hm
  have hk := of_decide_eq_true he
  exact h (hk ▸ hn ▸ name_of_mem_write fields hw)

mutual

theorem Shape.holds_write : (shape : Shape) → shape.Distinct → (value : shape.Value) →
    shape.Holds (shape.write value).document value
  | .text,            _, _      => rfl
  | .list item,       h, values => by
    refine ⟨_, rfl, ?_⟩
    rw [itemDocuments_eq, List.map_map, List.forall₂_map_left_iff, List.forall₂_same]
    exact fun value _ => item.holds_write h value
  | .record _ fields, h, value  =>
    (fields.holdsFrom_vacant _).mp (fields.holdsFrom_write h.right h.left value)

-- The members of the other fields have other names.
theorem Fields.holdsFrom_write : (fields : Fields) → fields.Distinct → fields.names.Nodup →
    (value : fields.Value) →
    fields.HoldsFrom fields.vacant (memberDocuments (fields.write value)) value
  | .nil,                       _, _,  ()              => trivial
  | .cons name need shape rest, h, hn, (value, values) => by
    have ⟨hm, hn⟩ := List.nodup_cons.mp hn
    have ⟨slot, hs, hv⟩ : ∃ slot : Option Document,
        memberDocuments (need.members name shape.write value) = slot.toList.map (name, ·) ∧
        need.Holds shape.blank shape.Holds slot value :=
      need.holds_members (shape.holds_write h.left) value
    have hvs := rest.holdsFrom_write h.right hn values
    have hr : named name (memberDocuments (rest.write values)) = [] :=
      Fields.named_write_eq_nil hm
    rw [Fields.write, memberDocuments_append, hs]
    cases slot
    case none   => exact ⟨⟨none, hr, hv⟩, hvs⟩
    case some d =>
      refine ⟨⟨some d, ?_, hv⟩, (rest.holdsFrom_cons_of_notMem hm).mpr hvs⟩
      rw [Option.toList_some, List.map_singleton, List.singleton_append, named_cons, if_pos rfl, hr]

end

theorem Shape.readText_writeText {shape : Shape} (h : shape.Distinct) (value : shape.Value) :
    shape.readText (shape.writeText value) = .ok value :=
  (readText_eq_ok_iff h (shape.write value).spelling_compactText).mpr (shape.holds_write h value)

end SoapBindings.Json

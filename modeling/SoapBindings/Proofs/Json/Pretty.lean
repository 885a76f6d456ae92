import SoapBindings.Proofs.Json.Writing
-- A value that is written on lines of its own is a spelling of the same document as one that is
-- written compactly. The line breaks and the blanks after them stand between lexemes.

namespace SoapBindings.Json

theorem Spells.blank {blanks rest : List Char} {lexemes : List Lexeme} (hb : Blanks blanks)
    (h : Spells lexemes rest) : Spells lexemes (blanks ++ rest) := by
  have ha {more : List Char} (hm : Blanks more) : Blanks (blanks ++ more) := fun c hc =>
    (List.mem_append.mp hc).elim (hb c) (hm c)
  cases h
  case nil hm => exact .nil (ha hm)
  case cons hm hl hr =>
    rw [← List.append_assoc]
    exact .cons (ha hm) hl hr

namespace Value

open Document

theorem blanks_newline (level : Nat) : Blanks (newline level) := by
  intro c hc
  cases hc
  case head    => decide
  case tail hc =>
    rw [(List.mem_replicate.mp hc).right]
    decide

theorem blanks_space : Blanks [' '] := by
  intro c hc
  rw [List.mem_singleton.mp hc]
  decide

mutual

theorem pretty_spells : (v : Value) → (level : Nat) → {more : List Lexeme} → {rest : List Char} →
    Spells more rest → Spells (v.document.lexemes ++ more) (v.pretty level ++ rest)
  | null,          _, _, _, h => h.tight rfl
  | boolean true,  _, _, _, h => h.tight rfl
  | boolean false, _, _, _, h => h.tight rfl
  | string s,      _, _, _, h => h.tight (quote_spells s)
  | array [],      _, _, _, h => .mark rfl (.mark rfl h)
  | object [],     _, _, _, h => .mark rfl (.mark rfl h)
  | array (item :: items), level, _, _, h => by
    simp only [document, lexemes, pretty, List.cons_append, List.append_assoc, List.nil_append]
    exact .mark rfl (prettyItems_spells (item :: items) (level + 1)
      (.blank (blanks_newline level) (.mark rfl h)))
  | object (member :: members), level, _, _, h => by
    simp only [document, lexemes, pretty, List.cons_append, List.append_assoc, List.nil_append]
    exact .mark rfl (prettyMembers_spells (member :: members) (level + 1)
      (.blank (blanks_newline level) (.mark rfl h)))

theorem prettyItems_spells : (items : List Value) → (level : Nat) → {more : List Lexeme} →
    {rest : List Char} → Spells more rest →
    Spells (itemLexemes (itemDocuments items) ++ more) (prettyItems level items ++ rest)
  | [],                    _,     _, _, h => h
  | [item],                level, _, _, h => by
    simp only [itemDocuments, itemLexemes, prettyItems, List.append_assoc]
    exact .blank (blanks_newline level) (pretty_spells item level h)
  | item :: next :: items, level, _, _, h => by
    have hi := prettyItems_spells (next :: items) level h
    simp only [itemDocuments, itemLexemes, prettyItems, List.cons_append, List.append_assoc]
    exact .blank (blanks_newline level) (pretty_spells item level (.mark rfl hi))

theorem prettyMembers_spells : (members : List (String × Value)) → (level : Nat) →
    {more : List Lexeme} → {rest : List Char} → Spells more rest →
    Spells (memberLexemes (memberDocuments members) ++ more) (prettyMembers level members ++ rest)
  | [],                               _,     _, _, h => h
  | [(name, value)],                  level, _, _, h => by
    have hv := (pretty_spells value level h).blank blanks_space
    simp only [memberDocuments, memberLexemes, prettyMembers, List.cons_append, List.append_assoc]
    exact .blank (blanks_newline level) (.tight (quote_spells name) (.mark rfl hv))
  | (name, value) :: next :: members, level, _, _, h => by
    have hm := prettyMembers_spells (next :: members) level h
    simp only [memberDocuments, memberLexemes, prettyMembers, List.cons_append, List.append_assoc]
    exact .blank (blanks_newline level) (.tight (quote_spells name) (.mark rfl
      (.blank blanks_space (pretty_spells value level (.mark rfl hm)))))

end

theorem spelling_prettyText (v : Value) : v.document.Spelling v.prettyText := by
  have hb : Spells [] [] := .nil fun _ h => nomatch h
  have h := v.pretty_spells 0 hb
  rwa [List.append_nil, List.append_nil, ← String.toList_ofList (l := v.pretty 0)] at h

end Value
end SoapBindings.Json

import SoapBindings.Json.Outline
import SoapBindings.Proofs.Json.Scanning
-- The outline of a text that spells a document depicts this document, and there is nothing after
-- it.

namespace SoapBindings.Json

-- An outline of a whole document, in which the content of each string stands for its text.
mutual

inductive Depicts : Document → Outline → Prop
  | null : Depicts .null .null
  | boolean (b : Bool) : Depicts (.boolean b) (.boolean b)
  | number (n : Numeral) : Depicts (.number n) (.number n)
  | string {s content} (h : CodeUnit.text? content = some s) :
    Depicts (.string s) (.string content)
  | array {items outlines} (h : List.Forall₂ Depicts items outlines) :
    Depicts (.array items) (.array outlines .closed)
  | object {members outlines} (h : List.Forall₂ DepictsMember members outlines) :
    Depicts (.object members) (.object outlines .closed)

inductive DepictsMember : String × Document → List CodeUnit × Outline → Prop
  | intro {name value key outline} (hk : CodeUnit.text? key = some name)
    (hv : Depicts value outline) : DepictsMember (name, value) (key, outline)

end

-- Lexemes of documents.

-- A number may stand before these lexemes.
structure Follows (lexemes : List Lexeme) : Prop where
  separated : Separated lexemes
  head      : ∀ l ∈ lexemes.head?, ¬l.IsNumber

theorem Separated.cons {l : Lexeme} {lexemes : List Lexeme} (h : Separated lexemes)
    (hl : ¬l.IsNumber) : Separated (l :: lexemes) :=
  List.isChain_cons.mpr ⟨fun _ _ hn => hl hn.left, h⟩

theorem Separated.follows {l : Lexeme} {lexemes : List Lexeme} (h : Separated lexemes)
    (hl : ¬l.IsNumber) : Follows (l :: lexemes) where
  separated := h.cons hl
  head _ hm := Option.some.inj hm ▸ hl

theorem Follows.cons {lexemes : List Lexeme} (h : Follows lexemes) (l : Lexeme) :
    Separated (l :: lexemes) :=
  List.isChain_cons.mpr ⟨fun l' hm hn => h.head l' hm hn.right, h.separated⟩

namespace Document

mutual

theorem separated_lexemes : (d : Document) → {more : List Lexeme} → Follows more →
    Separated (d.lexemes ++ more)
  | null,           _, h => h.cons _
  | boolean _,      _, h => h.cons _
  | number _,       _, h => h.cons _
  | string _,       _, h => h.cons _
  | array items,    _, h => by
    have hc := h.separated.follows (l := .closeArray) id
    rw [lexemes, List.cons_append, List.append_assoc]
    exact (separated_itemLexemes items hc).cons id
  | object members, _, h => by
    have hc := h.separated.follows (l := .closeObject) id
    rw [lexemes, List.cons_append, List.append_assoc]
    exact (separated_memberLexemes members hc).cons id

theorem separated_itemLexemes : (items : List Document) → {more : List Lexeme} → Follows more →
    Separated (itemLexemes items ++ more)
  | [],                   _, h => h.separated
  | [item],               _, h => separated_lexemes item h
  | item :: next :: rest, _, h => by
    have hc := (separated_itemLexemes (next :: rest) h).follows (l := .comma) id
    rw [itemLexemes, List.append_assoc]
    exact separated_lexemes item hc

theorem separated_memberLexemes : (members : List (String × Document)) → {more : List Lexeme} →
    Follows more → Separated (memberLexemes members ++ more)
  | [],                          _, h => h.separated
  | [(name, value)],             _, h => ((separated_lexemes value h).cons id).cons id
  | (name, value) :: next :: rest, _, h => by
    have hc := (separated_memberLexemes (next :: rest) h).follows (l := .comma) id
    rw [memberLexemes, List.cons_append, List.cons_append, List.append_assoc]
    exact ((separated_lexemes value hc).cons id).cons id

end

theorem lexemes_separated (d : Document) : Separated d.lexemes :=
  d.lexemes.append_nil ▸ d.separated_lexemes ⟨.nil, fun _ hm => nomatch hm⟩

end Document

theorem forall₂_append_left {α β : Type} {r : α → β → Prop} {l₁ l₂ : List α} {l : List β}
    (h : List.Forall₂ r (l₁ ++ l₂) l) :
    ∃ m₁ m₂, l = m₁ ++ m₂ ∧ List.Forall₂ r l₁ m₁ ∧ List.Forall₂ r l₂ m₂ := by
  induction l₁ generalizing l
  case nil => exact ⟨[], l, rfl, .nil, h⟩
  case cons a l₁ hi =>
    cases h
    case cons b l hb ht =>
      have ⟨m₁, m₂, hl, h₁, h₂⟩ := hi ht
      exact ⟨b :: m₁, m₂, congrArg _ hl, .cons hb h₁, h₂⟩

theorem Lexeme.Shows.eq_closeArray {l : Lexeme} {t : Token} (h : l.Shows t)
    (ht : t = .closeArray) : l = .closeArray := by
  subst ht
  cases l
  case closeArray => rfl
  case string s =>
    have ⟨_, hs, _⟩ := h
    cases hs
  all_goals cases h

namespace Document

open Outline.Reading (push receive)

theorem head_lexemes (d : Document) : ∃ l ls, d.lexemes = l :: ls ∧ l ≠ .closeArray := by
  cases d <;> exact ⟨_, _, rfl, Lexeme.noConfusion⟩

theorem head_itemLexemes (item : Document) (rest : List Document) :
    ∃ l ls, itemLexemes (item :: rest) = l :: ls ∧ l ≠ .closeArray := by
  have ⟨l, ls, hl, hn⟩ := item.head_lexemes
  cases rest
  case nil            => exact ⟨l, ls, hl, hn⟩
  case cons next rest =>
    exact ⟨l, ls ++ .comma :: itemLexemes (next :: rest), by rw [itemLexemes, hl]; rfl, hn⟩

theorem push_firstItem {t : Token} (ht : t ≠ .closeArray) (frames : List Outline.Frame) :
    push (.firstItem frames) t = push (.value (.array [] :: frames)) t := by
  cases t <;> first | rfl | exact absurd rfl ht

-- The first item of an array is read as any item, since it does not begin as the array ends.
theorem foldl_firstItem {item : Document} {rest : List Document} {tokens : List Token}
    (h : List.Forall₂ Lexeme.Shows (itemLexemes (item :: rest)) tokens)
    (frames : List Outline.Frame) :
    tokens.foldl push (.firstItem frames) = tokens.foldl push (.value (.array [] :: frames)) := by
  have ⟨l, ls, hl, hn⟩ := head_itemLexemes item rest
  rw [hl] at h
  cases h
  case cons t tokens ht h =>
    have hc : t ≠ .closeArray := fun he => hn (Lexeme.Shows.eq_closeArray ht he)
    rw [List.foldl_cons, List.foldl_cons, push_firstItem hc]

theorem push_firstKey {t : Token} (ht : t ≠ .closeObject) (frames : List Outline.Frame) :
    push (.firstKey frames) t = push (.nextKey [] frames) t := by
  cases t <;> first | rfl | exact absurd rfl ht

theorem head_memberLexemes (member : String × Document) (rest : List (String × Document)) :
    ∃ ls, memberLexemes (member :: rest) = .string member.1 :: ls := by
  cases rest <;> exact ⟨_, rfl⟩

-- The first key of an object is read as any key.
theorem foldl_firstKey {member : String × Document} {rest : List (String × Document)}
    {tokens : List Token} (h : List.Forall₂ Lexeme.Shows (memberLexemes (member :: rest)) tokens)
    (frames : List Outline.Frame) :
    tokens.foldl push (.firstKey frames) = tokens.foldl push (.nextKey [] frames) := by
  have ⟨ls, hl⟩ := head_memberLexemes member rest
  rw [hl] at h
  cases h
  case cons t tokens ht h =>
    obtain ⟨content, rfl, _⟩ := ht
    rw [List.foldl_cons, List.foldl_cons, push_firstKey Token.noConfusion]

mutual

-- The tokens of a document are read as one value, wherever it stands.
theorem foldl_lexemes : (d : Document) → {tokens : List Token} →
    List.Forall₂ Lexeme.Shows d.lexemes tokens →
    ∃ o, Depicts d o ∧ ∀ frames, tokens.foldl push (.value frames) = receive o frames
  | null,      _, .cons ht .nil => ⟨.null, .null, fun _ => ht ▸ rfl⟩
  | boolean b, _, .cons ht .nil => ⟨.boolean b, .boolean b, fun _ => ht ▸ rfl⟩
  | number n,  _, .cons ht .nil => ⟨.number n, .number n, fun _ => ht ▸ rfl⟩
  | string s,  _, .cons ⟨content, ht, hs⟩ .nil =>
    ⟨.string content, .string hs, fun _ => ht ▸ rfl⟩
  | array [],  _, .cons ho (.cons hc .nil) =>
    ⟨.array [] .closed, .array .nil, fun _ => ho ▸ hc ▸ rfl⟩
  | object [], _, .cons ho (.cons hc .nil) =>
    ⟨.object [] .closed, .object .nil, fun _ => ho ▸ hc ▸ rfl⟩
  | array (item :: rest), _, .cons ho h => by
    have ⟨ts, _, he, hts, .cons hc .nil⟩ := forall₂_append_left h
    have ⟨outlines, hd, hf⟩ := foldl_itemLexemes (item :: rest) (List.cons_ne_nil _ _) hts
    refine ⟨.array outlines .closed, .array hd, fun frames => ?_⟩
    rw [ho, he, hc, List.foldl_cons, List.foldl_append]
    have hi : push (.value frames) .openArray = .firstItem frames := rfl
    rw [hi, foldl_firstItem hts, hf, List.append_nil]
    simp [push]
  | object (member :: rest), _, .cons ho h => by
    have ⟨ts, _, he, hts, .cons hc .nil⟩ := forall₂_append_left h
    have ⟨outlines, hd, hf⟩ := foldl_memberLexemes (member :: rest) (List.cons_ne_nil _ _) hts
    refine ⟨.object outlines .closed, .object hd, fun frames => ?_⟩
    rw [ho, he, hc, List.foldl_cons, List.foldl_append]
    have hk : push (.value frames) .openObject = .firstKey frames := rfl
    rw [hk, foldl_firstKey hts, hf, List.append_nil]
    simp [push]

theorem foldl_itemLexemes : (ds : List Document) → ds ≠ [] → {tokens : List Token} →
    List.Forall₂ Lexeme.Shows (itemLexemes ds) tokens →
    ∃ outlines, List.Forall₂ Depicts ds outlines ∧ ∀ items frames,
      tokens.foldl push (.value (.array items :: frames)) =
        .nextItem (outlines.reverse ++ items) frames
  | [], hn, _, _ => absurd rfl hn
  | [item], _, _, h => by
    have ⟨o, hd, hf⟩ := foldl_lexemes item h
    exact ⟨[o], .cons hd .nil, fun items frames => hf _⟩
  | item :: next :: rest, _, _, h => by
    have ⟨ts, _, he, hts, .cons hc h⟩ := forall₂_append_left h
    have ⟨o, hd, hf⟩ := foldl_lexemes item hts
    have ⟨outlines, hds, hfs⟩ := foldl_itemLexemes (next :: rest) (List.cons_ne_nil _ _) h
    refine ⟨o :: outlines, .cons hd hds, fun items frames => ?_⟩
    have hv : push (receive o (.array items :: frames)) .comma =
        .value (.array (o :: items) :: frames) := rfl
    rw [he, hc, List.foldl_append, hf, List.foldl_cons, hv, hfs]
    simp

theorem foldl_memberLexemes : (ms : List (String × Document)) → ms ≠ [] → {tokens : List Token} →
    List.Forall₂ Lexeme.Shows (memberLexemes ms) tokens →
    ∃ outlines, List.Forall₂ DepictsMember ms outlines ∧ ∀ members frames,
      tokens.foldl push (.nextKey members frames) =
        .nextMember (outlines.reverse ++ members) frames
  | [], hn, _, _ => absurd rfl hn
  | [(name, value)], _, _, .cons ⟨key, hk, hs⟩ (.cons hc h) => by
    have ⟨o, hd, hf⟩ := foldl_lexemes value h
    refine ⟨[(key, o)], .cons (.intro hs hd) .nil, fun members frames => ?_⟩
    rw [hk, hc]
    exact hf _
  | (name, value) :: next :: rest, _, _, .cons ⟨key, hk, hs⟩ (.cons hc h) => by
    have ⟨ts, _, he, hts, .cons hm h⟩ := forall₂_append_left h
    have ⟨o, hd, hf⟩ := foldl_lexemes value hts
    have ⟨outlines, hds, hfs⟩ := foldl_memberLexemes (next :: rest) (List.cons_ne_nil _ _) h
    refine ⟨(key, o) :: outlines, .cons (.intro hs hd) hds, fun members frames => ?_⟩
    have hv : push (push (.nextKey members frames) (.string key)) .colon =
        .value (.object members key :: frames) := rfl
    have hn : push (receive o (.object members key :: frames)) .comma =
        .nextKey ((key, o) :: members) frames := rfl
    rw [hk, hc, he, hm, List.foldl_cons, List.foldl_cons, hv, List.foldl_append, hf,
      List.foldl_cons, hn, hfs]
    simp

end

theorem ofChars_of_spells {d : Document} {text : List Char} (h : Spells d.lexemes text) :
    ∃ o, Depicts d o ∧ Outline.ofChars text = (o, false) := by
  have ⟨tokens, ht, hf⟩ := Mode.feed_spells h d.lexemes_separated
  have ⟨o, hd, hr⟩ := d.foldl_lexemes ht
  refine ⟨o, hd, ?_⟩
  rw [Outline.ofChars, hf, hr]
  rfl

end Document
end SoapBindings.Json

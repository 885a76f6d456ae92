import SoapBindings.Proofs.Json.Outline
import SoapBindings.Proofs.Json.Truncated.Scanning
-- The outline of a text that is cut: it goes down to the cut and breaks off there, since the text
-- has ended.

namespace SoapBindings.Json

-- An outline of a document whose text is cut. What is before the cut is whole, and the container
-- around the cut does not count as closed.
mutual

inductive Truncates : Document → Outline → Prop
  | missing {d} : Truncates d (.broken .ended)
  | string {s content} (h : CodeUnit.flaw content .ended = .ended) :
    Truncates (.string s) (.brokenString content .ended)
  | array {items outlines ending} (h : TruncatesItems items outlines ending) :
    Truncates (.array items) (.array outlines ending)
  | object {members outlines ending} (h : TruncatesMembers members outlines ending) :
    Truncates (.object members) (.object outlines ending)

inductive TruncatesItems : List Document → List Outline → ArrayEnd → Prop
  | stop {items} : TruncatesItems items [] (.cut .ended)
  | item {d items o} (h : Truncates d o) : TruncatesItems (d :: items) [o] (.cut .malformed)
  | cons {d items o outlines ending} (hd : Depicts d o)
    (h : TruncatesItems items outlines ending) :
    TruncatesItems (d :: items) (o :: outlines) ending

inductive TruncatesMembers :
    List (String × Document) → List (List CodeUnit × Outline) → ObjectEnd → Prop
  | stop {members} : TruncatesMembers members [] (.cut .ended)
  | brokenKey {members key} (h : CodeUnit.flaw key .ended = .ended) :
    TruncatesMembers members [] (.brokenKey key .ended)
  | bareKey {name d members key} (hk : CodeUnit.text? key = some name) :
    TruncatesMembers ((name, d) :: members) [] (.bareKey key .ended)
  | value {name d members key o} (hk : CodeUnit.text? key = some name) (h : Truncates d o) :
    TruncatesMembers ((name, d) :: members) [(key, o)] (.cut .malformed)
  | cons {member members outline outlines ending} (hd : DepictsMember member outline)
    (h : TruncatesMembers members outlines ending) :
    TruncatesMembers (member :: members) (outline :: outlines) ending

end

theorem TruncatesItems.whole {items : List Document} {outlines : List Outline}
    (h : List.Forall₂ Depicts items outlines) : TruncatesItems items outlines (.cut .ended) := by
  induction h
  case nil          => exact .stop
  case cons hd _ hi => exact .cons hd hi

theorem TruncatesMembers.whole {members : List (String × Document)}
    {outlines : List (List CodeUnit × Outline)} (h : List.Forall₂ DepictsMember members outlines) :
    TruncatesMembers members outlines (.cut .ended) := by
  induction h
  case nil          => exact .stop
  case cons hd _ hi => exact .cons hd hi

-- Tokens of cut lexemes.

theorem Lexeme.Breaks.ne_close {l : Lexeme} {t : Token} (h : l.Breaks t) :
    t ≠ .closeArray ∧ t ≠ .closeObject := by
  cases l
  case string =>
    obtain ⟨_, rfl, _⟩ := h
    exact ⟨nofun, nofun⟩
  case null    => exact h ▸ ⟨nofun, nofun⟩
  case boolean => exact h ▸ ⟨nofun, nofun⟩
  all_goals cases h

theorem Cut.head {l : Lexeme} {ls : List Lexeme} {t : Token} {ts : List Token}
    (h : Cut (l :: ls) (t :: ts)) : l.Shows t ∨ l.Breaks t := by
  cases h
  case within h   => exact .inr h
  case after ht _ => exact .inl ht

-- A cut before a lexeme of one character.
theorem Cut.mark {l : Lexeme} {ts : List Token} (h : Cut [l] ts) (hl : ∀ t, ¬l.Breaks t) :
    ts = [] := by
  cases h
  case before    => rfl
  case within h  => exact absurd h (hl _)
  case after _ h => cases h

namespace Document

open Outline.Reading (push abandon receive finish)

theorem ne_closeArray_of_cut {item : Document} {rest : List Document} {t : Token}
    {ts : List Token} (h : Cut (itemLexemes (item :: rest)) (t :: ts)) : t ≠ .closeArray := by
  have ⟨l, ls, hl, hn⟩ := head_itemLexemes item rest
  cases Cut.head (hl ▸ h)
  case inl h => exact fun he => hn (h.eq_closeArray he)
  case inr h => exact h.ne_close.left

theorem ne_closeObject_of_cut {member : String × Document} {rest : List (String × Document)}
    {t : Token} {ts : List Token} (h : Cut (memberLexemes (member :: rest)) (t :: ts)) :
    t ≠ .closeObject := by
  have ⟨ls, hl⟩ := head_memberLexemes member rest
  cases Cut.head (hl ▸ h)
  case inl h =>
    obtain ⟨_, rfl, _⟩ := h
    nofun
  case inr h => exact h.ne_close.right

-- What is read of a document, and of items and of members in a row, wherever they stand. The text
-- ends with the tokens, and all containers around this place break off.

def Leaves (d : Document) (tokens : List Token) : Prop :=
  ∃ o, Truncates d o ∧ ∀ frames,
    (tokens.foldl push (.value frames)).finish = (abandon o frames, false)

def LeavesItems (ds : List Document) (tokens : List Token) : Prop :=
  ∃ outlines ending, TruncatesItems ds outlines ending ∧ ∀ items frames,
    (tokens.foldl push (.value (.array items :: frames))).finish =
      (abandon (.array (items.reverse ++ outlines) ending) frames, false)

def LeavesMembers (ms : List (String × Document)) (tokens : List Token) : Prop :=
  ∃ outlines ending, TruncatesMembers ms outlines ending ∧ ∀ members frames,
    (tokens.foldl push (.nextKey members frames)).finish =
      (abandon (.object (members.reverse ++ outlines) ending) frames, false)

section

variable {d : Document} {ds : List Document} {ms : List (String × Document)}
variable {name : String} {tokens : List Token}

theorem Leaves.item (h : d.Leaves tokens) : LeavesItems (d :: ds) tokens := by
  have ⟨o, ho, hf⟩ := h
  refine ⟨[o], _, .item ho, fun items frames => ?_⟩
  rw [hf, abandon, List.reverse_cons]

theorem Leaves.member {key : List CodeUnit} (h : d.Leaves tokens)
    (hk : CodeUnit.text? key = some name) :
    LeavesMembers ((name, d) :: ms) (.string key :: .colon :: tokens) := by
  have ⟨o, ho, hf⟩ := h
  refine ⟨[(key, o)], _, .value hk ho, fun members frames => (hf _).trans ?_⟩
  rw [abandon, List.reverse_cons]

-- After an item there may be no more tokens, or those of a comma and of more items.
theorem LeavesItems.cons {ls : List Lexeme} {ts more : List Token}
    (ht : List.Forall₂ Lexeme.Shows d.lexemes ts) (h : Cut (.comma :: ls) more)
    (hi : ∀ {more}, Cut ls more → LeavesItems ds more) : LeavesItems (d :: ds) (ts ++ more) := by
  obtain ⟨o, hd, hf⟩ := foldl_lexemes d ht
  cases h
  case before =>
    refine ⟨[o], _, .cons hd .stop, fun items frames => ?_⟩
    rw [List.append_nil, hf, receive, finish, List.reverse_cons]
  case within h => exact h.elim
  case after hc h =>
    obtain ⟨outlines, ending, hi, hfs⟩ := hi h
    refine ⟨o :: outlines, ending, .cons hd hi, fun items frames => ?_⟩
    have hv : push (receive o (.array items :: frames)) .comma =
        .value (.array (o :: items) :: frames) := rfl
    rw [hc, List.foldl_append, hf, List.foldl_cons, hv, hfs, List.reverse_cons, List.append_assoc]
    rfl

theorem LeavesMembers.cons {key : List CodeUnit} {ls : List Lexeme} {ts more : List Token}
    (hk : CodeUnit.text? key = some name) (ht : List.Forall₂ Lexeme.Shows d.lexemes ts)
    (h : Cut (.comma :: ls) more) (hm : ∀ {more}, Cut ls more → LeavesMembers ms more) :
    LeavesMembers ((name, d) :: ms) (.string key :: .colon :: (ts ++ more)) := by
  obtain ⟨o, hd, hf⟩ := foldl_lexemes d ht
  have hv members frames : push (push (.nextKey members frames) (.string key)) .colon =
      .value (.object members key :: frames) := rfl
  cases h
  case before =>
    refine ⟨[(key, o)], _, .cons (.intro hk hd) .stop, fun members frames => ?_⟩
    rw [List.append_nil, List.foldl_cons, List.foldl_cons, hv, hf, receive, finish,
      List.reverse_cons]
  case within h => exact h.elim
  case after hc h =>
    obtain ⟨outlines, ending, hm, hfs⟩ := hm h
    refine ⟨(key, o) :: outlines, ending, .cons (.intro hk hd) hm, fun members frames => ?_⟩
    have hn : push (receive o (.object members key :: frames)) .comma =
        .nextKey ((key, o) :: members) frames := rfl
    rw [hc, List.foldl_cons, List.foldl_cons, hv, List.foldl_append, hf, List.foldl_cons, hn, hfs,
      List.reverse_cons, List.append_assoc]
    rfl

-- A member breaks off before, in or after its key, or else in its value or after it.
theorem leavesMembers_or_cut {ls : List Lexeme} (h : Cut (.string name :: .colon :: ls) tokens) :
    LeavesMembers ((name, d) :: ms) tokens ∨
    ∃ key more, tokens = .string key :: .colon :: more ∧ CodeUnit.text? key = some name ∧
      Cut ls more := by
  have hs {ending} (h : TruncatesMembers ((name, d) :: ms) [] ending)
      (hf : ∀ members frames, (tokens.foldl push (.nextKey members frames)).finish =
        (abandon (.object members.reverse ending) frames, false)) :
      LeavesMembers ((name, d) :: ms) tokens :=
    ⟨[], ending, h, fun members frames => List.append_nil _ ▸ hf members frames⟩
  cases h
  case before => exact .inl (hs .stop fun _ _ => rfl)
  case within h =>
    obtain ⟨key, rfl, hk⟩ := h
    exact .inl (hs (.brokenKey hk) fun _ _ => rfl)
  case after ht h =>
    obtain ⟨key, rfl, hk⟩ := ht
    cases h
    case before     => exact .inl (hs (.bareKey hk) fun _ _ => rfl)
    case within h   => exact h.elim
    case after ht h => exact .inr ⟨key, _, ht ▸ rfl, hk, h⟩

-- In an array the first item is read as any item, and in an object the first member as any member.

theorem LeavesItems.array (h : Cut (itemLexemes ds ++ [.closeArray]) tokens)
    (hi : Cut (itemLexemes ds) tokens → LeavesItems ds tokens) :
    Leaves (.array ds) (.openArray :: tokens) := by
  have hl {outlines ending} (ho : TruncatesItems ds outlines ending)
      (hf : ∀ frames, (tokens.foldl push (.firstItem frames)).finish =
        (abandon (.array outlines ending) frames, false)) :
      Leaves (.array ds) (.openArray :: tokens) := ⟨_, .array ho, hf⟩
  match ds, tokens with
  | _,         []          => exact hl .stop fun _ => rfl
  | [],        t :: tokens => cases h.mark fun _ => id
  | d :: rest, t :: tokens =>
    cases Cut.append h
    case inl h =>
      obtain ⟨outlines, ending, ho, hf⟩ := hi h
      refine hl ho fun frames => ?_
      rw [List.foldl_cons, push_firstItem (ne_closeArray_of_cut h), ← List.foldl_cons]
      exact hf [] frames
    case inr h =>
      obtain ⟨ts, _, he, hts, h⟩ := h
      obtain ⟨outlines, hd, hf⟩ := foldl_itemLexemes (d :: rest) (List.cons_ne_nil _ _) hts
      refine hl (.whole hd) fun frames => ?_
      rw [he, h.mark fun _ => id, List.append_nil, foldl_firstItem hts, hf, finish,
        List.append_nil, List.reverse_reverse]

theorem LeavesMembers.object (h : Cut (memberLexemes ms ++ [.closeObject]) tokens)
    (hm : Cut (memberLexemes ms) tokens → LeavesMembers ms tokens) :
    Leaves (.object ms) (.openObject :: tokens) := by
  have hl {outlines ending} (ho : TruncatesMembers ms outlines ending)
      (hf : ∀ frames, (tokens.foldl push (.firstKey frames)).finish =
        (abandon (.object outlines ending) frames, false)) :
      Leaves (.object ms) (.openObject :: tokens) := ⟨_, .object ho, hf⟩
  match ms, tokens with
  | _,              []          => exact hl .stop fun _ => rfl
  | [],             t :: tokens => cases h.mark fun _ => id
  | member :: rest, t :: tokens =>
    cases Cut.append h
    case inl h =>
      obtain ⟨outlines, ending, ho, hf⟩ := hm h
      refine hl ho fun frames => ?_
      rw [List.foldl_cons, push_firstKey (ne_closeObject_of_cut h), ← List.foldl_cons]
      exact hf [] frames
    case inr h =>
      obtain ⟨ts, _, he, hts, h⟩ := h
      obtain ⟨outlines, hd, hf⟩ := foldl_memberLexemes (member :: rest) (List.cons_ne_nil _ _) hts
      refine hl (.whole hd) fun frames => ?_
      rw [he, h.mark fun _ => id, List.append_nil, foldl_firstKey hts, hf, finish,
        List.append_nil, List.reverse_reverse]

end

-- A cut of a document is between its parts or is a cut of one of them.
mutual

theorem leaves_lexemes : (d : Document) → {tokens : List Token} → Cut d.lexemes tokens →
    d.Leaves tokens
  | _,              [], _                       => ⟨_, .missing, fun _ => rfl⟩
  | null,           _,  .within h               => ⟨_, .missing, fun _ => h ▸ rfl⟩
  | boolean _,      _,  .within h               => ⟨_, .missing, fun _ => h ▸ rfl⟩
  | string _,       _,  .within ⟨_, h, hf⟩      => ⟨_, .string hf, fun _ => h ▸ rfl⟩
  | array items,    _,  .after ho h             =>
    ho ▸ LeavesItems.array h fun h => leaves_itemLexemes items h
  | object members, _,  .after ho h             =>
    ho ▸ LeavesMembers.object h fun h => leaves_memberLexemes members h

theorem leaves_itemLexemes : (ds : List Document) → {tokens : List Token} →
    Cut (itemLexemes ds) tokens → LeavesItems ds tokens
  | [item],               _, h => (leaves_lexemes item h).item
  | item :: next :: rest, _, h => by
    cases Cut.append h
    case inl h => exact (leaves_lexemes item h).item
    case inr h =>
      obtain ⟨ts, more, rfl, hts, h⟩ := h
      exact .cons hts h fun h => leaves_itemLexemes (next :: rest) h

theorem leaves_memberLexemes : (ms : List (String × Document)) → {tokens : List Token} →
    Cut (memberLexemes ms) tokens → LeavesMembers ms tokens
  | [(name, value)], _, h => by
    cases leavesMembers_or_cut h
    case inl h => exact h
    case inr h =>
      obtain ⟨key, more, rfl, hk, h⟩ := h
      exact (leaves_lexemes value h).member hk
  | (name, value) :: next :: rest, _, h => by
    cases leavesMembers_or_cut h
    case inl h => exact h
    case inr h =>
      obtain ⟨key, more, rfl, hk, h⟩ := h
      cases Cut.append h
      case inl h => exact (leaves_lexemes value h).member hk
      case inr h =>
        obtain ⟨ts, more, rfl, hts, h⟩ := h
        exact .cons hk hts h fun h => leaves_memberLexemes (next :: rest) h

end

end Document
end SoapBindings.Json

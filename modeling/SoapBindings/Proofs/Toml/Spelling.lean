import SoapBindings.Proofs.Json.Scanning
import SoapBindings.Toml.Document
-- The texts that spell keys and values of TOML: basic strings, bare keys and booleans. What is read
-- off the front of a text that begins with such a spelling is what it spells.

namespace SoapBindings.Toml

open Json (HexDigit)

-- The letters after a backslash, each with the character that it stands for.
def shortEscapes : List (Char × Char) := [
  ('b', '\x08'), ('t', '\t'), ('n', '\n'), ('f', '\x0c'), ('r', '\r'), ('"', '"'), ('\\', '\\')]

-- A number to the base of sixteen, with any zeros in front.
inductive HexSpelling : Nat → List Char → Prop
  | nil : HexSpelling 0 []
  | digit {n d ds c} (h : HexSpelling n ds) (hd : HexDigit d c) :
    HexSpelling (16 * n + d) (ds ++ [c])

-- Control characters except tabs.
def Control (c : Char) : Prop :=
  c ≠ '\t' ∧ (c.toNat < 0x20 ∨ c.toNat = 0x7F)

-- In a basic string control characters, quotes and backslashes have to be escaped.
inductive CharSpelling (c : Char) : List Char → Prop
  | plain (hc : ¬Control c) (hq : c ≠ '"') (hb : c ≠ '\\') : CharSpelling c [c]
  | short {e} (he : (e, c) ∈ shortEscapes) : CharSpelling c ['\\', e]
  | hex {ds} (hl : ds.length = 4) (h : HexSpelling c.toNat ds) : CharSpelling c ('\\' :: 'u' :: ds)
  | longHex {ds} (hl : ds.length = 8) (h : HexSpelling c.toNat ds) :
    CharSpelling c ('\\' :: 'U' :: ds)

inductive CharsSpelling : List Char → List Char → Prop
  | nil : CharsSpelling [] []
  | cons {c cs spelling rest} (h : CharSpelling c spelling) (hr : CharsSpelling cs rest) :
    CharsSpelling (c :: cs) (spelling ++ rest)

inductive StringSpelling (s : String) : List Char → Prop
  | intro {content} (h : CharsSpelling s.toList content) :
    StringSpelling s ('"' :: (content ++ ['"']))

def Bare (c : Char) : Prop :=
  c.isAlphanum ∨ c = '_' ∨ c = '-'

inductive KeySpelling (key : String) : List Char → Prop
  | bare (hn : key ≠ "") (hb : ∀ c ∈ key.toList, Bare c) : KeySpelling key key.toList
  | quoted {text} (h : StringSpelling key text) : KeySpelling key text

inductive ValueSpelling : Value → List Char → Prop
  | string {s text} (h : StringSpelling s text) : ValueSpelling (.string s) text
  | true                                        : ValueSpelling (.boolean true) ['t', 'r', 'u', 'e']
  | false                                       :
    ValueSpelling (.boolean false) ['f', 'a', 'l', 's', 'e']

theorem isPrintable_iff {c : Char} : isPrintable c ↔ ¬Control c := by
  simp [isPrintable, Control]
  grind

section Prefixes

variable {α : Type} {p : α → Bool} {front rest : List α}

-- Members of a kind up to the first one that is not of this kind.
theorem takeWhile_append_of_stop (hf : ∀ a ∈ front, p a) (hr : ∀ a ∈ rest.head?, ¬p a) :
    (front ++ rest).takeWhile p = front := by
  rw [List.takeWhile_append_of_pos hf]
  cases rest
  case nil         => exact List.append_nil front
  case cons a rest => simp [hr a rfl]

theorem dropWhile_append_of_stop (hf : ∀ a ∈ front, p a) (hr : ∀ a ∈ rest.head?, ¬p a) :
    (front ++ rest).dropWhile p = rest := by
  rw [List.dropWhile_append_of_pos hf]
  cases rest
  case nil         => rfl
  case cons a rest => simp [hr a rfl]

end Prefixes

namespace Strings

variable {c : Char} {rest : List Char}

theorem basic_plain (c : Char) (rest : List Char) :
    basic .plain (c :: rest) =
      if c = '"' then some ([], rest)
      else if c = '\\' then basic .escape rest
      else if isPrintable c then cons? c (basic .plain rest)
      else none := rfl

theorem basic_escape (c : Char) (rest : List Char) :
    basic .escape (c :: rest) =
      if c = 'u' then basic (.hex 4 0) rest
      else if c = 'U' then basic (.hex 8 0) rest
      else match simpleEscape? c with
        | some c => cons? c (basic .plain rest)
        | none   => none := rfl

theorem basic_hexDigit {d due value : Nat} (h : HexDigit d c) (hn : 1 < due) :
    basic (.hex due value) (c :: rest) = basic (.hex (due - 1) (16 * value + d)) rest := by
  rw [basic]
  simp only [Json.Mode.hexDigit?_eq_some h, Nat.not_le.mpr hn, if_false]

theorem basic_lastHexDigit {d value : Nat} {digit : Char} (h : HexDigit d digit)
    (hc : 16 * value + d = c.toNat) :
    basic (.hex 1 value) (digit :: rest) = cons? c (basic .plain rest) := by
  have hs : Text.scalar? c.toNat = some c := by
    have hv : c.toNat.isValidChar := c.valid
    rw [Text.scalar?, if_pos hv, Char.ofNat_toNat]
  rw [basic]
  simp only [Json.Mode.hexDigit?_eq_some h, Nat.le_refl, if_true, hc, hs]

-- So many digits more may be due.
theorem basic_hexDigits {n more : Nat} {ds : List Char} (h : HexSpelling n ds) (hm : 0 < more) :
    basic (.hex (ds.length + more) 0) (ds ++ rest) = basic (.hex more n) rest := by
  induction h generalizing more rest
  case nil => simp
  case digit n d ds c h hd hi =>
    have hl : (ds ++ [c]).length + more = ds.length + (more + 1) := by simp; omega
    rw [hl, List.append_assoc, hi (by omega), List.singleton_append, basic_hexDigit hd (by omega)]
    rfl

theorem basic_hex {ds : List Char} (h : HexSpelling c.toNat ds) (hl : 0 < ds.length) :
    basic (.hex ds.length 0) (ds ++ rest) = cons? c (basic .plain rest) := by
  generalize hn : c.toNat = n at h
  cases h
  case nil => simp at hl
  case digit n d ds digit h hd =>
    rw [List.length_append, List.append_assoc]
    exact (basic_hexDigits h (by simp)).trans (basic_lastHexDigit hd hn.symm)

theorem basic_char {spelling : List Char} (h : CharSpelling c spelling) (rest : List Char) :
    basic .plain (spelling ++ rest) = cons? c (basic .plain rest) := by
  cases h
  case plain hc hq hb =>
    rw [List.singleton_append, basic_plain, if_neg hq, if_neg hb, if_pos (isPrintable_iff.mpr hc)]
  case short e he =>
    have ⟨hu, hl, hs⟩ : e ≠ 'u' ∧ e ≠ 'U' ∧ simpleEscape? e = some c := by
      simp only [shortEscapes, List.mem_cons, List.not_mem_nil, or_false, Prod.mk.injEq] at he
      rcases he with h | h | h | h | h | h | h <;> rw [h.left, h.right] <;> decide
    refine (basic_escape e rest).trans ?_
    rw [if_neg hu, if_neg hl, hs]
  case hex ds hl hd =>
    refine (basic_escape 'u' (ds ++ rest)).trans ?_
    exact hl ▸ basic_hex hd (by omega)
  case longHex ds hl hd =>
    refine (basic_escape 'U' (ds ++ rest)).trans ?_
    exact hl ▸ basic_hex hd (by omega)

theorem basic_chars {cs text : List Char} (h : CharsSpelling cs text) (rest : List Char) :
    basic .plain (text ++ '"' :: rest) = some (cs, rest) := by
  induction h
  case nil => rfl
  case cons hc _ hi =>
    rw [List.append_assoc, basic_char hc, hi]
    rfl

theorem head?_chars {cs text : List Char} (h : CharsSpelling cs text) : text.head? ≠ some '"' := by
  cases h
  case nil => simp
  case cons h _ =>
    cases h
    case plain _ hq _ => simpa using hq
    all_goals simp

-- Quotes around nothing must not be followed by a third one.
theorem read?_string {s : String} {text : List Char} (h : StringSpelling s text)
    (hr : rest.head? ≠ some '"') : read? (text ++ rest) = some (s, rest) := by
  cases h
  case intro content h =>
    have hq := head?_chars h
    have hc : isClosing '"' ('"' :: (content ++ '"' :: rest)) = false := by
      cases content
      case nil => cases rest <;> simp_all [isClosing]
      case cons c content => cases hl : content ++ '"' :: rest <;> simp_all [isClosing]
    have hl : isClosing '\'' ('"' :: (content ++ '"' :: rest)) = false := by
      match content ++ '"' :: rest with
      | []          => rfl
      | [_]         => rfl
      | _ :: _ :: _ => rfl
    simp [read?, hc, hl, basic_chars h]

end Strings

namespace Key

theorem isBare_iff {c : Char} : isBare c ↔ Bare c := by
  have hd : isDigit c = c.isDigit := rfl
  have hl : (decide ('a' ≤ c) && decide (c ≤ 'z')) = c.isLower := rfl
  have hu : (decide ('A' ≤ c) && decide (c ≤ 'Z')) = c.isUpper :=
    (Bool.decide_and ('A' ≤ c) (c ≤ 'Z')).symm
  have ha : c.isAlphanum = (c.isUpper || c.isLower || c.isDigit) := rfl
  simp only [isBare, Bare, hd, hl, hu, ha, Bool.or_eq_true, decide_eq_true_eq]
  grind

theorem spelling_of_all {key : String} (hn : key ≠ "") (h : key.toList.all isBare) :
    KeySpelling key key.toList :=
  .bare hn fun c hc => isBare_iff.mp (List.all_eq_true.mp h c hc)

-- Where a key ends: nothing that follows can be a part of it.
theorem simple_key {key : String} {text rest : List Char} (h : KeySpelling key text)
    (hr : ∀ c ∈ rest.head?, ¬Bare c) : simple (text ++ rest) = some (key, rest) := by
  cases h
  case bare hn hb =>
    have hf : ∀ c ∈ key.toList, isBare c := fun c hc => isBare_iff.mpr (hb c hc)
    have hs : ∀ c ∈ rest.head?, ¬isBare c := fun c hc => isBare_iff.not.mpr (hr c hc)
    have he : key.toList ≠ [] := by simpa using hn
    have hh : ∀ c ∈ (key.toList ++ rest).head?, Bare c := by
      intro c hc
      rw [List.head?_append_of_ne_nil _ he] at hc
      exact hb c (List.mem_of_mem_head? hc)
    unfold simple
    split
    case h_1 heq => exact absurd (hh '"' (heq ▸ rfl)) (by simp [Bare])
    case h_2 heq => exact absurd (hh '\'' (heq ▸ rfl)) (by simp [Bare])
    case h_3     => simp [takeWhile_append_of_stop hf hs, dropWhile_append_of_stop hf hs, he]
  case quoted h =>
    cases h
    case intro content h => simp [simple, Strings.basic_chars h]

end Key

end SoapBindings.Toml

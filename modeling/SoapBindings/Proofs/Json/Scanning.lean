import Mathlib.Data.List.Chain
import Mathlib.Data.List.Forall2
import SoapBindings.Proofs.Json.Numeral
-- What the scanner finds in a text that spells lexemes: a token for each of them, in their order.

namespace SoapBindings.Json

-- The token for a lexeme. The content of a string depends on its spelling, and its text does not.
def Lexeme.Shows : Lexeme → Token → Prop
  | openArray,   t => t = .openArray
  | closeArray,  t => t = .closeArray
  | openObject,  t => t = .openObject
  | closeObject, t => t = .closeObject
  | comma,       t => t = .comma
  | colon,       t => t = .colon
  | null,        t => t = .null
  | boolean b,   t => t = .boolean b
  | number n,    t => t = .number n
  | string s,    t => ∃ content, t = .string content ∧ CodeUnit.text? content = some s

namespace Mode

variable {σ : Type} {push : σ → Token → σ} {state : σ}

-- Blanks.

theorem feed_blanks {blanks : List Char} (hb : Blanks blanks) (rest : List Char) :
    feed push state between (blanks ++ rest) = feed push state between rest := by
  induction blanks
  case nil => rfl
  case cons c blanks hi =>
    have hs : step between c (blanks ++ rest) = ([], some between) := by
      have hm := hb c (by simp)
      simp only [List.mem_cons, List.not_mem_nil, or_false] at hm
      rcases hm with hm | hm | hm | hm <;> subst hm <;> rfl
    rw [List.cons_append, feed_cons hs]
    exact hi fun c hm => hb c (List.mem_cons_of_mem _ hm)

-- Strings.

theorem hexDigit?_eq_some {n : Nat} {c : Char} (h : HexDigit n c) :
    Text.hexDigit? c = some n := by
  have hd : ∀ n < 16, Text.hexDigit? n.digitChar = some n ∧
      Text.hexDigit? n.digitChar.toUpper = some n := by decide
  have ⟨hn, hc⟩ := h
  cases hc
  case inl hc => exact hc ▸ (hd n hn).left
  case inr hc => exact hc ▸ (hd n hn).right

theorem feed_hexDigit {n count value : Nat} {c : Char} (h : HexDigit n c) (hn : count ≠ 3)
    (content : List CodeUnit) (rest : List Char) :
    feed push state (hex content count value) (c :: rest) =
      feed push state (hex content (count + 1) (16 * value + n)) rest := by
  have hs : step (hex content count value) c rest =
      ([], some (hex content (count + 1) (16 * value + n))) := by
    simp [step, inHex, hexDigit?_eq_some h, hn]
  exact feed_cons hs

theorem feed_lastHexDigit {n value : Nat} {c : Char} (h : HexDigit n c)
    (content : List CodeUnit) (rest : List Char) :
    feed push state (hex content 3 value) (c :: rest) =
      feed push state (string (.ofNat (16 * value + n) :: content)) rest := by
  have hs : step (hex content 3 value) c rest =
      ([], some (string (.ofNat (16 * value + n) :: content))) := by
    simp [step, inHex, hexDigit?_eq_some h]
  exact feed_cons hs

theorem feed_hex {n : Nat} {cs : List Char} (h : HexSpelling n cs) (content : List CodeUnit)
    (rest : List Char) :
    feed push state (string content) (cs ++ rest) =
      feed push state (string (.ofNat n :: content)) rest := by
  cases h
  case intro a b c d ha hb hc hd =>
    have hs : step (string content) '\\' ('u' :: a :: b :: c :: d :: rest) =
        ([], some (escape content)) := by simp [step, inString]
    have hu : step (escape content) 'u' (a :: b :: c :: d :: rest) =
        ([], some (hex content 0 0)) := by
      have hw : ¬byteCount [a, b, c, d] < 4 := by
        have := a.utf8Size_pos
        have := b.utf8Size_pos
        have := c.utf8Size_pos
        have := d.utf8Size_pos
        simp only [byteCount, List.foldl_cons, List.foldl_nil]
        omega
      simp [step, inEscape, hw]
    have hv : 16 * (16 * (16 * (16 * 0 + n / 0x1000) + n / 0x100 % 0x10) + n / 0x10 % 0x10) +
        n % 0x10 = n := by omega
    simp only [List.cons_append, List.nil_append]
    rw [feed_cons hs, feed_cons hu, List.foldl_nil, List.foldl_nil,
      feed_hexDigit ha (by decide), feed_hexDigit hb (by decide), feed_hexDigit hc (by decide),
      feed_lastHexDigit hd, hv]

end Mode

namespace CodeUnit

theorem ofNat_toNat (c : Char) : ofNat c.toNat = scalar c := by
  have hv : ¬(0xD800 ≤ c.toNat ∧ c.toNat < 0xE000) := by
    have hc : c.toNat < 0xD800 ∨ 0xDFFF < c.toNat ∧ c.toNat < 0x110000 := c.valid
    omega
  rw [ofNat, if_neg hv, Char.ofNat_toNat]

theorem ofNat_eq_surrogate {n : Nat} (h : 0xD800 ≤ n ∧ n < 0xE000) : ofNat n = surrogate n := by
  rw [ofNat, if_pos h]

-- The code units of a character that is spelled as a surrogate pair join to the character.
theorem decode_pair {c : Char} (hc : 0x10000 ≤ c.toNat) (us : List CodeUnit) :
    decode (ofNat (0xD800 + (c.toNat - 0x10000) / 0x400) ::
      ofNat (0xDC00 + (c.toNat - 0x10000) % 0x400) :: us) = (decode us).cons c := by
  have hv : c.toNat < 0xD800 ∨ 0xDFFF < c.toNat ∧ c.toNat < 0x110000 := c.valid
  have hh : ofNat (0xD800 + (c.toNat - 0x10000) / 0x400) = _ := ofNat_eq_surrogate (by omega)
  have hl : ofNat (0xDC00 + (c.toNat - 0x10000) % 0x400) = _ := ofNat_eq_surrogate (by omega)
  have hj : join (0xD800 + (c.toNat - 0x10000) / 0x400) (0xDC00 + (c.toNat - 0x10000) % 0x400) =
      c := by
    have hn : 0x10000 + (0xD800 + (c.toNat - 0x10000) / 0x400 - 0xD800) * 0x400 +
        (0xDC00 + (c.toNat - 0x10000) % 0x400 - 0xDC00) = c.toNat := by omega
    rw [join, hn, Char.ofNat_toNat]
  have hi : isHigh (0xD800 + (c.toNat - 0x10000) / 0x400) &&
      !isHigh (0xDC00 + (c.toNat - 0x10000) % 0x400) := by
    have : (c.toNat - 0x10000) / 0x400 < 0x400 := by omega
    simp only [isHigh, Bool.and_eq_true, Bool.not_eq_true', decide_eq_true_eq,
      decide_eq_false_iff_not]
    omega
  rw [hh, hl, decode, if_pos hi, hj]

end CodeUnit

namespace Mode

-- In a string, a text stands for code units, whatever comes before and after.
def Adds (text : List Char) (units : List CodeUnit) : Prop :=
  ∀ ⦃σ : Type⦄ (push : σ → Token → σ) (state : σ) (content : List CodeUnit) (rest : List Char),
    feed push state (string content) (text ++ rest) =
      feed push state (string (units.reverse ++ content)) rest

theorem Adds.append {text₁ text₂ : List Char} {units₁ units₂ : List CodeUnit}
    (h₁ : Adds text₁ units₁) (h₂ : Adds text₂ units₂) :
    Adds (text₁ ++ text₂) (units₁ ++ units₂) := by
  intro σ push state content rest
  rw [List.append_assoc, h₁, h₂, List.reverse_append, List.append_assoc]

theorem adds_hex {n : Nat} {cs : List Char} (h : HexSpelling n cs) : Adds cs [.ofNat n] :=
  fun _ _ _ => feed_hex h

theorem adds_char {c : Char} {spelling : List Char} (h : CharSpelling c spelling) :
    ∃ units, Adds spelling units ∧
      ∀ us, CodeUnit.decode (units ++ us) = (CodeUnit.decode us).cons c := by
  cases h
  case plain hc hq hb =>
    refine ⟨[.scalar c], fun _ push state content rest => ?_, fun _ => rfl⟩
    have hs : step (string content) c rest = ([], some (string (.scalar c :: content))) := by
      have hn : ¬c.toNat < 0x20 := by omega
      simp [step, inString, hq, hb, hn]
    exact feed_cons hs
  case short e he =>
    refine ⟨[.scalar c], fun _ push state content rest => ?_, fun _ => rfl⟩
    have hs : step (string content) '\\' (e :: rest) = ([], some (escape content)) := by
      simp [step, inString]
    have hu : step (escape content) e rest = ([], some (string (.scalar c :: content))) := by
      simp only [shortEscapes, List.mem_cons, List.not_mem_nil, or_false, Prod.mk.injEq] at he
      rcases he with h | h | h | h | h | h | h | h <;> rw [h.left, h.right] <;> rfl
    exact (feed_cons hs).trans (feed_cons hu)
  case hex hx => exact ⟨[.scalar c], CodeUnit.ofNat_toNat c ▸ adds_hex hx, fun _ => rfl⟩
  case pair high low hc hh hl =>
    exact ⟨[_, _], (adds_hex hh).append (adds_hex hl), CodeUnit.decode_pair hc⟩

theorem adds_chars {cs text : List Char} (h : CharsSpelling cs text) :
    ∃ units, Adds text units ∧ CodeUnit.decode units = .text cs := by
  induction h
  case nil => exact ⟨[], fun _ _ _ _ _ => rfl, rfl⟩
  case cons c cs spelling rest hc hr hi =>
    have ⟨units, ha, hd⟩ := adds_char hc
    have ⟨more, ha', hd'⟩ := hi
    refine ⟨units ++ more, ha.append ha', ?_⟩
    rw [hd, hd', CodeUnit.Decoded.cons]

-- Outside of tokens, a text is scanned as tokens in front of what comes after it.
def Scans (text rest : List Char) (tokens : List Token) : Prop :=
  ∀ ⦃σ : Type⦄ (push : σ → Token → σ) (state : σ),
    feed push state between (text ++ rest) = feed push (tokens.foldl push state) between rest

theorem scans_string {s : String} {spelling : List Char} (h : StringSpelling s spelling)
    (rest : List Char) :
    ∃ content, CodeUnit.text? content = some s ∧ Scans spelling rest [.string content] := by
  cases h
  case intro text ht =>
    have ⟨units, ha, hd⟩ := adds_chars ht
    refine ⟨units, by simp [CodeUnit.text?, hd], fun _ push state => ?_⟩
    have ho : step between '"' (text ++ '"' :: rest) = ([], some (string [])) := rfl
    have hc : step (string units.reverse) '"' rest = ([.string units], some between) := by
      simp [step, inString]
    simp only [List.cons_append, List.append_assoc, List.nil_append]
    rw [feed_cons ho, List.foldl_nil, ha, List.append_nil, feed_cons hc]

-- Lexemes.

theorem closes_blank {c : Char} (h : c ∈ [' ', '\t', '\n', '\r']) (rest : List Char) :
    Numeral.Closes (c :: rest) := by
  intro d hd
  cases hd
  simp only [List.mem_cons, List.not_mem_nil, or_false] at h
  rcases h with h | h | h | h <;> subst h <;> decide

end Mode

def Lexeme.IsNumber : Lexeme → Prop
  | number _ => True
  | _        => False

-- Between two numbers there is another lexeme.
def Separated (lexemes : List Lexeme) : Prop :=
  lexemes.IsChain fun l₁ l₂ => ¬(l₁.IsNumber ∧ l₂.IsNumber)

namespace Mode

open Numeral

-- The characters that other lexemes than numbers begin with.
theorem closes_spelling {lexeme : Lexeme} (hn : ¬lexeme.IsNumber) {spelling : List Char}
    (h : lexeme.Spelling spelling) (rest : List Char) : Closes (spelling ++ rest) := by
  intro c hc
  cases lexeme
  case number n => exact absurd trivial hn
  case string s =>
    cases h
    cases hc
    decide
  case boolean b =>
    cases b <;> cases h <;> cases hc <;> decide
  all_goals
    cases h
    cases hc
    decide

theorem closes_of_spells {lexemes : List Lexeme} {text : List Char} (h : Spells lexemes text)
    (hn : ∀ l ∈ lexemes.head?, ¬l.IsNumber) : Closes text := by
  cases h
  case nil hb =>
    cases text
    case nil => exact fun _ hc => nomatch hc
    case cons c text => exact closes_blank (hb c (by simp)) text
  case cons blanks spelling rest lexeme lexemes hb hl hr =>
    cases blanks
    case nil => exact closes_spelling (hn lexeme rfl) hl rest
    case cons c blanks => exact closes_blank (hb c (by simp)) _

theorem scans_lexeme {lexeme : Lexeme} {spelling rest : List Char} (h : lexeme.Spelling spelling)
    (hr : lexeme.IsNumber → Closes rest) : ∃ t, lexeme.Shows t ∧ Scans spelling rest [t] := by
  cases lexeme
  case number n => exact ⟨.number n, rfl, fun _ _ _ => feed_numeral h (hr trivial)⟩
  case string s =>
    have ⟨content, ht, hs⟩ := scans_string h rest
    exact ⟨.string content, ⟨content, rfl, ht⟩, hs⟩
  case boolean b =>
    refine ⟨.boolean b, rfl, fun _ push state => ?_⟩
    cases b <;> cases h <;> rfl
  all_goals
    cases h
    exact ⟨_, rfl, fun _ _ _ => rfl⟩

theorem feed_spells {lexemes : List Lexeme} {text : List Char} (h : Spells lexemes text)
    (hs : Separated lexemes) :
    ∃ tokens, List.Forall₂ Lexeme.Shows lexemes tokens ∧
      ∀ ⦃σ : Type⦄ (push : σ → Token → σ) (state : σ),
        feed push state between text = tokens.foldl push state := by
  induction h
  case nil blanks hb =>
    refine ⟨[], .nil, fun _ push state => ?_⟩
    rw [← blanks.append_nil, feed_blanks hb]
    rfl
  case cons blanks spelling rest lexeme lexemes hb hl hr hi =>
    have ⟨tokens, hts, hf⟩ := hi hs.tail
    have hc (hn : lexeme.IsNumber) : Closes rest :=
      closes_of_spells hr fun l hm hl => (List.isChain_cons.mp hs).left l hm ⟨hn, hl⟩
    have ⟨t, ht, hf'⟩ := scans_lexeme hl hc
    refine ⟨t :: tokens, .cons ht hts, fun _ push state => ?_⟩
    rw [feed_blanks hb, hf', hf]
    rfl

end Mode
end SoapBindings.Json

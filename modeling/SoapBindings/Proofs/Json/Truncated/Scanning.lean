import SoapBindings.Proofs.Json.Scanning
-- What the scanner finds in a text that is cut: the tokens of the lexemes before the cut, and one
-- more for what is left of a lexeme that the cut goes through. Numbers are left aside, since what
-- is left of a number may be a number.

namespace SoapBindings.Json

-- The token for the first part of a lexeme, which has characters on both sides of the cut.
def Lexeme.Breaks : Lexeme → Token → Prop
  | null,      t => t = .broken .ended
  | boolean _, t => t = .broken .ended
  | string _,  t => ∃ content, t = .brokenString content .ended ∧
    CodeUnit.flaw content .ended = .ended
  | _,         _ => False

-- The tokens of a text that is cut before its last lexeme ends.
inductive Cut : List Lexeme → List Token → Prop
  | before {l ls} : Cut (l :: ls) []
  | within {l ls t} (h : l.Breaks t) : Cut (l :: ls) [t]
  | after {l ls t ts} (ht : l.Shows t) (h : Cut ls ts) : Cut (l :: ls) (t :: ts)

theorem Cut.append {ls more : List Lexeme} {ts : List Token} (h : Cut (ls ++ more) ts) :
    Cut ls ts ∨ ∃ ts₁ ts₂, ts = ts₁ ++ ts₂ ∧ List.Forall₂ Lexeme.Shows ls ts₁ ∧ Cut more ts₂ := by
  induction ls generalizing ts
  case nil => exact .inr ⟨[], ts, rfl, .nil, h⟩
  case cons l ls hi =>
    cases h
    case before   => exact .inl .before
    case within h => exact .inl (.within h)
    case after t ts ht h =>
      cases hi h
      case inl h => exact .inl (.after ht h)
      case inr h =>
        have ⟨ts₁, ts₂, he, hs, hc⟩ := h
        exact .inr ⟨t :: ts₁, ts₂, congrArg _ he, .cons ht hs, hc⟩

-- What a cut of two texts leaves ends within the first one, or the first one is whole.
theorem append_cut {α : Type} {front back left right : List α}
    (h : front ++ back = left ++ right) :
    (∃ more, more ≠ [] ∧ left = front ++ more) ∨
      ∃ more, front = left ++ more ∧ right = more ++ back := by
  cases List.append_eq_append_iff.mp h
  case inl h =>
    have ⟨more, hl, hb⟩ := h
    by_cases hm : more = []
    case pos =>
      subst hm
      exact .inr ⟨[], by rw [hl, List.append_nil, List.append_nil], hb.symm⟩
    case neg => exact .inl ⟨more, hm, hl⟩
  case inr h => exact .inr h

-- Units that add a character change nothing about what is wrong after them.
theorem CodeUnit.flaw_append {units : List CodeUnit} {c : Char}
    (h : ∀ us, decode (units ++ us) = (decode us).cons c) (us : List CodeUnit) {f : Flaw} :
    flaw (units ++ us) f = flaw us f := by
  rw [flaw, flaw, h]
  cases decode us <;> rfl

-- The high half of a pair may still become one.
theorem CodeUnit.flaw_half (c : Char) {f : Flaw} :
    flaw [ofNat (0xD800 + (c.toNat - 0x10000) / 0x400)] f = f := by
  have hv : c.toNat < 0xD800 ∨ 0xDFFF < c.toNat ∧ c.toNat < 0x110000 := c.valid
  have hu : ofNat (0xD800 + (c.toNat - 0x10000) / 0x400) = _ := ofNat_eq_surrogate (by omega)
  have hi : isHigh (0xD800 + (c.toNat - 0x10000) / 0x400) := by
    simp only [isHigh, decide_eq_true_eq]
    omega
  rw [hu, flaw, decode, if_pos hi]

namespace Mode

-- In a string, a text breaks off after code units, whatever comes before.
def Breaks (text : List Char) (units : List CodeUnit) : Prop :=
  ∀ ⦃σ : Type⦄ (push : σ → Token → σ) (state : σ) (content : List CodeUnit),
    feed push state (string content) text =
      push state (.brokenString (content.reverse ++ units) .ended)

theorem breaks_nil : Breaks [] [] := by
  intro σ push state content
  rw [List.append_nil]
  rfl

theorem Adds.breaks {text rest : List Char} {units more : List CodeUnit} (h : Adds text units)
    (hr : Breaks rest more) : Breaks (text ++ rest) (units ++ more) := by
  intro σ push state content
  rw [h, hr, List.reverse_append, List.reverse_reverse, List.append_assoc]

theorem breaks_backslash : Breaks ['\\'] [] := by
  intro σ push state content
  have hs : step (string content) '\\' [] = ([], some (escape content)) := by
    simp [step, inString]
  rw [feed_cons hs, List.append_nil]
  rfl

theorem byteCount_eq_length {cs : List Char} (h : ∀ c ∈ cs, c.utf8Size = 1) :
    byteCount cs = cs.length := by
  have hf (n : Nat) : cs.foldl (fun n c => n + c.utf8Size) n = n + cs.length := by
    induction cs generalizing n
    case nil => rfl
    case cons c cs hi =>
      have ⟨hc, hcs⟩ := List.forall_mem_cons.mp h
      rw [List.foldl_cons, hi hcs, hc, List.length_cons]
      omega
  exact (hf 0).trans (Nat.zero_add _)

theorem utf8Size_of_hexDigit {n : Nat} {c : Char} (h : HexDigit n c) : c.utf8Size = 1 := by
  have hd : ∀ n < 16, n.digitChar.utf8Size = 1 ∧ n.digitChar.toUpper.utf8Size = 1 := by decide
  have ⟨hn, hc⟩ := h
  cases hc
  case inl hc => exact hc ▸ (hd n hn).left
  case inr hc => exact hc ▸ (hd n hn).right

theorem feed_stop {σ : Type} {push : σ → Token → σ} {state : σ} {mode : Mode} {c : Char}
    {cs : List Char} {tokens : List Token} (h : mode.step c cs = (tokens, none)) :
    feed push state mode (c :: cs) = tokens.foldl push state := by
  rw [feed, h]

-- Of the four digits of an escape, some are missing.
theorem breaks_digits {digits : List Char} (hd : ∀ c ∈ digits, c.utf8Size = 1)
    (hl : digits.length < 4) : Breaks ('\\' :: 'u' :: digits) [] := by
  intro σ push state content
  have hs : step (string content) '\\' ('u' :: digits) = ([], some (escape content)) := by
    simp [step, inString]
  have hu : step (escape content) 'u' digits = ([.brokenString content.reverse .ended], none) := by
    have hw : byteCount (digits.take 4) < 4 := by
      rw [List.take_of_length_le (Nat.le_of_lt hl), byteCount_eq_length hd]
      exact hl
    simp [step, inEscape, hw]
  rw [feed_cons hs, feed_stop hu, List.append_nil]
  rfl

theorem breaks_hex {n : Nat} {front back : List Char} (h : HexSpelling n (front ++ back))
    (hb : back ≠ []) : Breaks front [] := by
  generalize he : front ++ back = text at h
  cases h
  case intro a b c d h₁ h₂ h₃ h₄ =>
    match front, he with
    | [],                _  => exact breaks_nil
    | [_],               he => exact (List.cons.inj he).left ▸ breaks_backslash
    | _ :: _ :: digits, he =>
      obtain ⟨rfl, hu⟩ := List.cons.inj he
      obtain ⟨rfl, hr⟩ := List.cons.inj hu
      have hr : digits ++ back = [a, b, c, d] := hr
      have hl : digits.length + back.length = 4 := List.length_append ▸ congrArg List.length hr
      have hp := List.length_pos_of_ne_nil hb
      refine breaks_digits (fun e hm => ?_) (by omega)
      have hm : e ∈ [a, b, c, d] := hr ▸ List.mem_append_left _ hm
      simp only [List.mem_cons, List.not_mem_nil, or_false] at hm
      rcases hm with rfl | rfl | rfl | rfl
      · exact utf8Size_of_hexDigit h₁
      · exact utf8Size_of_hexDigit h₂
      · exact utf8Size_of_hexDigit h₃
      · exact utf8Size_of_hexDigit h₄

-- The spelling of a character breaks off with nothing of the character, or with half of it.
theorem breaks_char {c : Char} {front back : List Char} (h : CharSpelling c (front ++ back))
    (hb : back ≠ []) : ∃ units, Breaks front units ∧ CodeUnit.flaw units .ended = .ended := by
  generalize he : front ++ back = text at h
  cases h
  case plain =>
    have hf := (List.append_eq_singleton_iff.mp he).resolve_right fun h => hb h.right
    exact ⟨[], hf.left ▸ breaks_nil, rfl⟩
  case short e _ =>
    match front, he with
    | [],         _  => exact ⟨[], breaks_nil, rfl⟩
    | [_],        he => exact ⟨[], (List.cons.inj he).left ▸ breaks_backslash, rfl⟩
    | _ :: _ :: _, he =>
      have hn := List.append_eq_nil_iff.mp (List.cons.inj (List.cons.inj he).right).right
      exact absurd hn.right hb
  case hex h => exact ⟨[], breaks_hex (he ▸ h) hb, rfl⟩
  case pair high low hc hh hl =>
    cases append_cut he
    case inl h =>
      have ⟨_, hn, hh'⟩ := h
      exact ⟨[], breaks_hex (hh' ▸ hh) hn, rfl⟩
    case inr h =>
      have ⟨_, hf', hl'⟩ := h
      exact ⟨_, hf' ▸ (adds_hex hh).breaks (breaks_hex (hl' ▸ hl) hb), CodeUnit.flaw_half c⟩

theorem breaks_chars {cs front back : List Char} (h : CharsSpelling cs (front ++ back)) :
    ∃ units, Breaks front units ∧ CodeUnit.flaw units .ended = .ended := by
  generalize he : front ++ back = text at h
  induction h generalizing front
  case nil => exact ⟨[], (List.append_eq_nil_iff.mp he).left ▸ breaks_nil, rfl⟩
  case cons c cs spelling rest hc hr hi =>
    cases append_cut he
    case inl h =>
      have ⟨_, hn, hs⟩ := h
      exact breaks_char (hs ▸ hc) hn
    case inr h =>
      have ⟨_, hf, he⟩ := h
      have ⟨units, ha, hd⟩ := adds_char hc
      have ⟨more, hb, hm⟩ := hi he.symm
      exact ⟨units ++ more, hf ▸ ha.breaks hb, (CodeUnit.flaw_append hd more).trans hm⟩

-- Outside of tokens, a text is scanned up to its end as tokens.
def Ends (text : List Char) (tokens : List Token) : Prop :=
  ∀ ⦃σ : Type⦄ (push : σ → Token → σ) (state : σ),
    feed push state between text = tokens.foldl push state

theorem ends_blanks {blanks : List Char} (hb : Blanks blanks) : Ends blanks [] :=
  fun _ _ _ => blanks.append_nil ▸ feed_blanks hb []

theorem Scans.ends {text rest : List Char} {tokens more : List Token} (h : Scans text rest tokens)
    (hr : Ends rest more) : Ends (text ++ rest) (tokens ++ more) := by
  intro σ push state
  rw [h, hr, List.foldl_append]

-- Words and lexemes.

theorem feed_word {σ : Type} {push : σ → Token → σ} {state : σ} {token : Token} {next : Char}
    {more front back : List Char} (h : front ++ back = next :: more) (hb : back ≠ []) :
    feed push state (word token next more) front = push state (.broken .ended) := by
  induction front generalizing next more
  case nil => rfl
  case cons c front hi =>
    obtain ⟨rfl, hm⟩ := List.cons.inj h
    cases more
    case nil            => exact absurd (List.append_eq_nil_iff.mp hm).right hb
    case cons next more =>
      have hs : step (word token c (next :: more)) c front = ([], some (word token next more)) := by
        simp [step]
      exact (feed_cons hs).trans (hi hm)

theorem ends_word {c next : Char} {token : Token} {more front back : List Char}
    (hc : start c = ([], some (word token next more))) (h : front ++ back = next :: more)
    (hb : back ≠ []) : Ends (c :: front) [.broken .ended] := by
  intro σ push state
  have hs : step between c front = ([], some (word token next more)) := hc
  exact (feed_cons hs).trans (feed_word h hb)

theorem ends_string {s : String} {c : Char} {front back : List Char}
    (h : StringSpelling s (c :: front ++ back)) (hb : back ≠ []) :
    ∃ units, CodeUnit.flaw units .ended = .ended ∧
      Ends (c :: front) [.brokenString units .ended] := by
  generalize he : c :: front ++ back = text at h
  cases h
  case intro content h =>
    obtain ⟨rfl, hq⟩ := List.cons.inj he
    have ⟨left, hl⟩ : ∃ left, content = front ++ left := by
      cases append_cut hq
      case inl h =>
        have ⟨left, _, hl⟩ := h
        exact ⟨left, hl⟩
      case inr h =>
        have ⟨left, hl, hr⟩ := h
        have hn := (List.append_eq_singleton_iff.mp hr.symm).resolve_right fun h => hb h.right
        exact ⟨[], by rw [hl, hn.left, List.append_nil, List.append_nil]⟩
    have ⟨units, hu, hf⟩ := breaks_chars (hl ▸ h)
    exact ⟨units, hf, fun _ _ _ => (feed_cons rfl).trans (hu _ _ _)⟩

theorem ends_lexeme {lexeme : Lexeme} (hn : ¬lexeme.IsNumber) {front back : List Char}
    (h : lexeme.Spelling (front ++ back)) (hf : front ≠ []) (hb : back ≠ []) :
    ∃ t, lexeme.Breaks t ∧ Ends front [t] := by
  obtain ⟨c, front, rfl⟩ := List.exists_cons_of_ne_nil hf
  cases lexeme
  case number n => exact absurd trivial hn
  case null =>
    obtain ⟨rfl, hw⟩ := List.cons.inj h
    exact ⟨_, rfl, ends_word rfl hw hb⟩
  case boolean b =>
    cases b <;> obtain ⟨rfl, hw⟩ := List.cons.inj h <;> exact ⟨_, rfl, ends_word rfl hw hb⟩
  case string s =>
    have ⟨units, hf, he⟩ := ends_string h hb
    exact ⟨_, ⟨units, rfl, hf⟩, he⟩
  all_goals exact absurd (List.append_eq_nil_iff.mp (List.cons.inj h).right).right hb

-- The front of a text is scanned as a cut of its lexemes, unless nothing but blanks are missing.
theorem ends_front {lexemes : List Lexeme} (hn : ∀ l ∈ lexemes, ¬l.IsNumber)
    {front back : List Char} (h : Spells lexemes (front ++ back)) :
    Blanks back ∨ ∃ tokens, Cut lexemes tokens ∧ Ends front tokens := by
  generalize he : front ++ back = text at h
  induction h generalizing front
  case nil blanks hb => exact .inl fun c hc => hb c (he ▸ List.mem_append_right _ hc)
  case cons blanks spelling rest lexeme lexemes hb hl hr hi =>
    have ⟨hx, hn⟩ := List.forall_mem_cons.mp hn
    cases append_cut he
    case inl h =>
      have ⟨_, _, h⟩ := h
      exact .inr ⟨[], .before, ends_blanks fun c hc => hb c (h ▸ List.mem_append_left _ hc)⟩
    case inr h =>
      obtain ⟨front, rfl, ht⟩ := h
      have hs : Scans blanks front [] := fun _ _ _ => feed_blanks hb front
      cases append_cut ht.symm
      case inl h =>
        have ⟨left, hn, hs'⟩ := h
        by_cases hf : front = []
        case pos => exact .inr ⟨[], .before, hs.ends (hf ▸ ends_blanks nofun)⟩
        case neg =>
          have ⟨t, ht, h⟩ := ends_lexeme hx (hs' ▸ hl) hf hn
          exact .inr ⟨[t], .within ht, hs.ends h⟩
      case inr h =>
        obtain ⟨front, rfl, hr⟩ := h
        have ⟨t, ht, hs'⟩ : ∃ t, lexeme.Shows t ∧ Scans spelling front [t] :=
          scans_lexeme hl fun h => absurd h hx
        refine (hi hn hr.symm).imp_right fun ⟨tokens, hc, h⟩ => ?_
        exact ⟨t :: tokens, .after ht hc, hs.ends (hs'.ends h)⟩

end Mode
end SoapBindings.Json

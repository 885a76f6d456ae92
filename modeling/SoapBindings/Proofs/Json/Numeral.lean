import SoapBindings.Json.Token
import SoapBindings.Proofs.Json.Document
-- Scanning of numerals. A text that spells a numeral is scanned as this numeral in front of
-- anything that does not continue it.

namespace SoapBindings.Json

namespace Numeral

theorem isDigit_eq (c : Char) : isDigit c = c.isDigit := rfl

-- What may come after a numeral, so that it is scanned as it stands.
def Closes (rest : List Char) : Prop :=
  ∀ c ∈ rest.head?, isDigit c = false ∧ c ≠ '.' ∧ isExponentMark c = false

-- The stages of a whole number, after which a fraction or an exponent may come.
def Stage.IsWhole (stage : Stage) : Prop :=
  stage = .zero ∨ stage = .whole

end Numeral

namespace Mode

open Numeral

variable {σ : Type} {push : σ → Token → σ} {state : σ}

theorem feed_cons {mode mode' : Mode} {c : Char} {cs : List Char} {tokens : List Token}
    (h : mode.step c cs = (tokens, some mode')) :
    feed push state mode (c :: cs) = feed push (tokens.foldl push state) mode' cs := by
  rw [feed, h]

-- The first character of a token.
theorem feed_start {mode : Mode} {c : Char} (h : start c = ([], some mode)) (cs : List Char) :
    feed push state between (c :: cs) = feed push state mode cs := by
  have hs : step between c cs = ([], some mode) := h
  exact feed_cons hs

theorem feed_more {stage stage' : Stage} {n n' : Numeral} {c : Char}
    (h : n.step stage c = .more stage' n') (cs : List Char) :
    feed push state (number stage n) (c :: cs) = feed push state (number stage' n') cs := by
  have hs : step (number stage n) c cs = ([], some (number stage' n')) := by
    rw [step, h]
  exact feed_cons hs

-- A stage that takes any number of digits.
theorem feed_digits {stage : Stage} (add : Numeral → Char → Numeral)
    (h : ∀ (n : Numeral) (c : Char), c.isDigit → n.step stage c = .more stage (add n c))
    {ds : List Char}
    (hd : ∀ d ∈ ds, d.isDigit) (n : Numeral) (rest : List Char) :
    feed push state (number stage n) (ds ++ rest) =
      feed push state (number stage (ds.foldl add n)) rest := by
  induction ds generalizing n
  case nil => rfl
  case cons d ds hi =>
    rw [List.cons_append, feed_more (h n d (hd d (by simp)))]
    exact hi (fun d hm => hd d (List.mem_cons_of_mem _ hm)) _

theorem foldl_addWhole (n : Numeral) (ds : List Char) :
    ds.foldl addWhole n = { n with whole := n.whole ++ ds } := by
  induction ds generalizing n
  case nil => simp
  case cons d ds hi => simp [hi, addWhole]

theorem foldl_addFraction (n : Numeral) (ds : List Char) :
    ds.foldl addFraction n = { n with fraction := n.fraction ++ ds } := by
  induction ds generalizing n
  case nil => simp
  case cons d ds hi => simp [hi, addFraction]

theorem foldl_addExponent (n : Numeral) (negative : Bool) (before ds : List Char) :
    ds.foldl addExponent { n with exponent := some (negative, before) } =
      { n with exponent := some (negative, before ++ ds) } := by
  induction ds generalizing before
  case nil => simp
  case cons d ds hi =>
    have h := hi (before ++ [d])
    simpa [addExponent] using h

-- A complete numeral ends in front of what cannot continue it, and so does the text.
theorem feed_complete {stage : Stage} {n : Numeral} {rest : List Char}
    (h : stage.isComplete) (hr : Closes rest) :
    feed push state (number stage n) rest = feed push (push state (.number n)) between rest := by
  cases rest
  case nil => simp [feed, finish, h]
  case cons c cs =>
    have ⟨hd, hp, he⟩ := hr c rfl
    have hf : n.step stage c = .finished := by
      cases stage <;> simp_all [Numeral.step, step.tail, Stage.isComplete]
    rw [feed, feed]
    simp only [step, hf]
    cases h : start c
    case mk tokens mode => cases mode <;> rfl

theorem start_digit {d : Char} (hd : d.isDigit) (h0 : d ≠ '0') :
    start d = ([], some (number .whole { negative := false, whole := [d] })) := by
  have hm : d ∈ ['1', '2', '3', '4', '5', '6', '7', '8', '9'] := by
    have hn : ∀ n < 58, 49 ≤ n →
        Char.ofNat n ∈ ['1', '2', '3', '4', '5', '6', '7', '8', '9'] := by decide
    have hl : 48 ≤ d.toNat := (Char.isDigit_iff_toNat.mp hd).left
    have hu : d.toNat ≤ 57 := (Char.isDigit_iff_toNat.mp hd).right
    have h48 : d.toNat ≠ 48 := fun he => h0 (Char.toNat_inj.mp he)
    exact Char.ofNat_toNat d ▸ hn d.toNat (by omega) (by omega)
  simp only [List.mem_cons, List.not_mem_nil, or_false] at hm
  rcases hm with hm | hm | hm | hm | hm | hm | hm | hm | hm <;> subst hm <;> rfl

theorem feed_whole (push : σ → Token → σ) (state : σ) {negative : Bool} {sign whole : List Char}
    (hs : SignSpelling negative sign) (hw : WholeDigits whole) (rest : List Char) :
    ∃ stage : Stage, stage.IsWhole ∧ feed push state between (sign ++ (whole ++ rest)) =
      feed push state (number stage { negative, whole }) rest := by
  cases hw
  case inl hw =>
    subst hw
    refine ⟨.zero, .inl rfl, ?_⟩
    cases hs
    case positive => exact feed_start rfl rest
    case negative => exact (feed_start rfl _).trans (feed_more rfl rest)
  case inr hw =>
    have ⟨⟨hn, hd⟩, h0⟩ := hw
    have ⟨d, ds, he⟩ := List.exists_cons_of_ne_nil hn
    subst he
    have hd' := hd d (by simp)
    have h0' : d ≠ '0' := fun he => h0 (congrArg some he)
    refine ⟨.whole, .inr rfl, ?_⟩
    have ht (n : Numeral) : feed push state (number .whole n) (ds ++ rest) =
        feed push state (number .whole { n with whole := n.whole ++ ds }) rest := by
      rw [feed_digits addWhole ?_ fun c hm => hd c (List.mem_cons_of_mem _ hm), foldl_addWhole]
      exact fun n c hc => by simp [Numeral.step, isDigit_eq, hc]
    cases hs
    case positive => exact (feed_start (start_digit hd' h0') _).trans (ht _)
    case negative =>
      have hf : Numeral.step { negative := true, whole := [] } .sign d =
          .more .whole { negative := true, whole := [d] } := by
        simp [Numeral.step, isDigit_eq, hd', h0', addWhole]
      exact (feed_start rfl _).trans ((feed_more hf _).trans (ht _))

theorem feed_fraction (push : σ → Token → σ) (state : σ) {stage : Stage} (hs : stage.IsWhole)
    {n : Numeral} (hn : n.fraction = []) {fraction spelling : List Char}
    (hf : FractionSpelling fraction spelling) (rest : List Char) :
    ∃ stage' : Stage, (stage'.IsWhole ∨ stage' = .fraction) ∧
      feed push state (number stage n) (spelling ++ rest) =
        feed push state (number stage' { n with fraction }) rest := by
  cases hf
  case absent => exact ⟨stage, .inl hs, by cases n; cases hn; rfl⟩
  case present hd =>
    have ⟨hne, hd⟩ := hd
    have ⟨d, ds, he⟩ := List.exists_cons_of_ne_nil hne
    subst he
    have hp : n.step stage '.' = .more .point n := by
      rcases hs with hs | hs <;> subst hs <;> rfl
    have hq : n.step .point d = .more .fraction (n.addFraction d) := by
      simp [Numeral.step, isDigit_eq, hd d (by simp)]
    refine ⟨.fraction, .inr rfl, ?_⟩
    rw [List.cons_append, List.cons_append, feed_more hp, feed_more hq,
      feed_digits addFraction ?_ fun c hm => hd c (List.mem_cons_of_mem _ hm),
      foldl_addFraction]
    case _ => simp [addFraction, hn]
    case _ => exact fun n c hc => by simp [Numeral.step, isDigit_eq, hc]

theorem feed_mark {stage : Stage} (hs : stage.IsWhole ∨ stage = .fraction) {mark : Char}
    (hm : mark ∈ exponentMarks) (n : Numeral) (rest : List Char) :
    feed push state (number stage n) (mark :: rest) =
      feed push state (number .exponentMark (n.setExponent false)) rest := by
  refine feed_more ?_ rest
  simp only [exponentMarks, List.mem_cons, List.not_mem_nil, or_false] at hm
  rcases hs with (hs | hs) | hs <;> rcases hm with hm | hm <;> subst hs hm <;> rfl

theorem feed_exponentDigits {stage : Stage} (hs : stage = .exponentMark ∨ stage = .exponentSign)
    {ds : List Char} (hd : Digits ds) (n : Numeral) (negative : Bool) (rest : List Char) :
    feed push state (number stage (n.setExponent negative)) (ds ++ rest) =
      feed push state (number .exponent { n with exponent := some (negative, ds) }) rest := by
  have ⟨hne, hd⟩ := hd
  have ⟨d, ds, he⟩ := List.exists_cons_of_ne_nil hne
  subst he
  have hf : (n.setExponent negative).step stage d =
      .more .exponent { n with exponent := some (negative, [d]) } := by
    have hd' := hd d (by simp)
    have hm : d ≠ '-' := fun he => by simp [he] at hd'
    have hp : d ≠ '+' := fun he => by simp [he] at hd'
    rcases hs with hs | hs <;> subst hs <;>
      simp [Numeral.step, isDigit_eq, hd', hm, hp, setExponent, addExponent]
  rw [List.cons_append, feed_more hf,
    feed_digits addExponent ?_ fun c hm => hd c (List.mem_cons_of_mem _ hm),
    foldl_addExponent]
  case _ => rfl
  case _ => exact fun n c hc => by simp [Numeral.step, isDigit_eq, hc]

theorem feed_exponent {stage : Stage} (hs : stage.IsWhole ∨ stage = .fraction) {n : Numeral}
    (hn : n.exponent = none) {exponent : Option (Bool × List Char)} {spelling rest : List Char}
    (he : ExponentSpelling exponent spelling) (hr : Closes rest) :
    feed push state (number stage n) (spelling ++ rest) =
      feed push (push state (.number { n with exponent })) between rest := by
  cases he
  case absent =>
    have hc : stage.isComplete := by rcases hs with (hs | hs) | hs <;> subst hs <;> rfl
    have he : n = { n with exponent := none } := by rw [← hn]
    exact he ▸ feed_complete hc hr
  case unsigned mark ds hm hd =>
    rw [List.cons_append, feed_mark hs hm, feed_exponentDigits (.inl rfl) hd]
    exact feed_complete rfl hr
  case positive mark ds hm hd =>
    rw [List.cons_append, List.cons_append, feed_mark hs hm, feed_more rfl,
      feed_exponentDigits (.inr rfl) hd]
    exact feed_complete rfl hr
  case negative mark ds hm hd =>
    rw [List.cons_append, List.cons_append, feed_mark hs hm, feed_more rfl]
    exact (feed_exponentDigits (.inr rfl) hd n true rest).trans (feed_complete rfl hr)

theorem feed_numeral {n : Numeral} {spelling rest : List Char} (h : NumeralSpelling n spelling)
    (hr : Closes rest) :
    feed push state between (spelling ++ rest) =
      feed push (push state (.number n)) between rest := by
  cases h
  case intro sign fraction exponent hs hw hf he =>
    have ⟨stage, ht, h₁⟩ := feed_whole push state hs hw (fraction ++ (exponent ++ rest))
    let whole : Numeral := { negative := n.negative, whole := n.whole }
    have ⟨stage', ht', h₂⟩ := feed_fraction push state (n := whole) ht rfl hf (exponent ++ rest)
    simp only [List.append_assoc]
    exact h₁.trans (h₂.trans (feed_exponent ht' rfl he hr))

end Mode
end SoapBindings.Json

import SoapBindings.Inflection
import SoapBindings.Proofs.Text.Words
-- Identifiers are made of the words of a name and of nothing else.

namespace SoapBindings

namespace Inflection

open Text (Words)

def Separates (c : Char) : Prop :=
  c ∈ [' ', '_', '-']

instance : DecidablePred Separates := fun c =>
  inferInstanceAs (Decidable (c ∈ [' ', '_', '-']))

theorem separates_iff {c : Char} : Separates c ↔ isSeparator c := by
  simp [Separates, isSeparator, or_assoc]

-- The first word begins in the case of the identifier, and the other words are capitalised.
def ofWords (case : LeadingCase) : List (List Char) → List Char
  | []      => []
  | w :: ws => w.modifyHead case.apply ++ ws.flatMap (List.modifyHead Char.toUpper)

theorem ofWords_upper (ws : List (List Char)) :
    ofWords .upper ws = ws.flatMap (List.modifyHead Char.toUpper) := by
  cases ws <;> rfl

variable {w rest : List Char}

theorem continuation_append (hn : ∀ c ∈ w, ¬Separates c) (rest : List Char) :
    continuation false (w ++ rest) = w ++ continuation false rest := by
  induction w
  case nil => rfl
  case cons c w hi =>
    have ⟨hc, hw⟩ := List.forall_mem_cons.mp hn
    rw [List.cons_append, continuation, if_neg (mt separates_iff.mpr hc), hi hw]
    rfl

-- After a word the next letter begins a word, for there is a separator before it.
theorem continuation_fresh (hr : ∀ c ∈ rest.head?, Separates c) :
    continuation false rest = continuation true rest := by
  cases rest
  case nil => rfl
  case cons c rest =>
    have hc : isSeparator c := separates_iff.mp (hr c rfl)
    rw [continuation, continuation, if_pos hc, if_pos hc]

theorem letters_upper (cs : List Char) : letters .upper cs = continuation true cs := by
  induction cs
  case nil => rfl
  case cons c cs hi =>
    rw [letters, continuation, hi]
    rfl

theorem letters_word (hw : w ≠ []) (hn : ∀ c ∈ w, ¬Separates c)
    (hr : ∀ c ∈ rest.head?, Separates c) (case : LeadingCase) :
    letters case (w ++ rest) = w.modifyHead case.apply ++ continuation true rest := by
  cases w
  case nil => exact absurd rfl hw
  case cons c w =>
    have ⟨hc, hw⟩ := List.forall_mem_cons.mp hn
    rw [List.cons_append, letters, if_neg (mt separates_iff.mpr hc), continuation_append hw,
      continuation_fresh hr]
    rfl

theorem continuation_eq {cs : List Char} {ws : List (List Char)} (h : Words Separates cs ws) :
    continuation true cs = ws.flatMap (List.modifyHead Char.toUpper) := by
  induction h
  case nil => rfl
  case separator hc _ hi => rw [continuation, if_pos (separates_iff.mp hc), hi]
  case word hw hn hr _ hi =>
    rw [← letters_upper, letters_word hw hn hr, hi, List.flatMap_cons]
    rfl

theorem letters_eq {cs : List Char} {ws : List (List Char)} (h : Words Separates cs ws)
    (case : LeadingCase) : letters case cs = ofWords case ws := by
  induction h
  case nil => rfl
  case separator hc _ hi => rw [letters, if_pos (separates_iff.mp hc), hi]
  case word hw hn hr h _ => rw [letters_word hw hn hr, continuation_eq h, ofWords]

end Inflection

open Inflection in
-- Of the first word an identifier in lower case begins with the small letter, and all other words
-- are capitalised. A name without words has an empty identifier.
theorem inflect_by_words (name : String) :
    ∃ words, (∀ ws, Text.Words Separates name.toList ws ↔ ws = words) ∧
      (inflect .upper name).toList = words.flatMap (List.modifyHead Char.toUpper) ∧
      (inflect .lower name).toList = match words with
        | []      => []
        | w :: ws => w.modifyHead Char.toLower ++ ws.flatMap (List.modifyHead Char.toUpper) := by
  have hw : Text.Words Separates name.toList (Text.words Separates name.toList) :=
    Text.words_iff.mpr rfl
  have hi (case : LeadingCase) : (inflect case name).toList = ofWords case _ :=
    String.toList_ofList.trans (letters_eq hw case)
  refine ⟨_, fun _ => Text.words_iff, ?_, ?_⟩
  · rw [hi, ofWords_upper]
  · rw [hi]
    cases Text.words Separates name.toList <;> rfl

end SoapBindings

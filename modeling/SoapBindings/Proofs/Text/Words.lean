-- The words of a text are its longest pieces without a separator, in their order.

namespace SoapBindings.Text

variable {separates : Char → Prop}

-- A word ends where the text ends or a separator follows, so there is no longer piece around it.
inductive Words (separates : Char → Prop) : List Char → List (List Char) → Prop
  | nil : Words separates [] []
  | separator {c cs words} (hc : separates c) (h : Words separates cs words) :
    Words separates (c :: cs) words
  | word {w rest words} (hw : w ≠ []) (hn : ∀ c ∈ w, ¬separates c)
    (hr : ∀ c ∈ rest.head?, separates c) (h : Words separates rest words) :
    Words separates (w ++ rest) (w :: words)

theorem Words.ne_nil {cs : List Char} {ws : List (List Char)} (h : Words separates cs ws) :
    ∀ w ∈ ws, w ≠ [] := by
  induction h
  case nil              => simp
  case separator hi     => exact hi
  case word hw _ _ _ hi => exact List.forall_mem_cons.mpr ⟨hw, hi⟩

-- The pieces between separators, apart from the empty ones.
def words (separates : Char → Prop) [DecidablePred separates] (cs : List Char) :
    List (List Char) :=
  (cs.splitOnP (separates ·)).filter (· ≠ [])

variable [DecidablePred separates]

theorem words_nil : words separates [] = [] := by
  simp [words]

theorem words_separator {c : Char} (hc : separates c) (cs : List Char) :
    words separates (c :: cs) = words separates cs := by
  simp [words, List.splitOnP_cons_eq_if_modifyHead, hc]

theorem words_append_separator {c : Char} (hc : separates c) (cs rest : List Char) :
    words separates (cs ++ c :: rest) = words separates cs ++ words separates rest := by
  have hs : (separates · : Char → Bool) c = true := decide_eq_true hc
  rw [words, List.splitOnP_append_cons cs rest hs, List.filter_append]
  rfl

theorem words_append {w rest : List Char} (hw : w ≠ []) (hn : ∀ c ∈ w, ¬separates c)
    (hr : ∀ c ∈ rest.head?, separates c) :
    words separates (w ++ rest) = w :: words separates rest := by
  have hd : ∀ c ∈ w, decide (separates c) = false := by simpa using hn
  cases rest
  case nil =>
    rw [List.append_nil, words, List.splitOnP_eq_singleton hd]
    simp [words, hw]
  case cons c rest =>
    have hc : separates c := hr c rfl
    rw [words_separator hc, words, List.splitOnP_append_cons_of_forall_mem hd c (by simpa using hc)]
    simp [words, hw]

theorem Words.eq_words {cs : List Char} {ws : List (List Char)} (h : Words separates cs ws) :
    ws = words separates cs := by
  induction h
  case nil                => rfl
  case separator hc _ hi  => rw [words_separator hc, hi]
  case word hw hn hr _ hi => rw [words_append hw hn hr, hi]

-- A character in front of a text is a separator, belongs to the first word or is a word.
theorem exists_words (separates : Char → Prop) (cs : List Char) :
    ∃ ws, Words separates cs ws := by
  induction cs
  case nil => exact ⟨[], .nil⟩
  case cons c cs hi =>
    have ⟨ws, h⟩ := hi
    by_cases hc : separates c
    case pos => exact ⟨ws, .separator hc h⟩
    case neg =>
      have hs : ∀ d ∈ [c], ¬separates d := by simpa using hc
      cases h
      case nil => exact ⟨[[c]], .word (by simp) hs (by simp) .nil⟩
      case separator d cs hd h =>
        exact ⟨[c] :: ws, .word (by simp) hs (by simpa using hd) (.separator hd h)⟩
      case word w rest ws hw hn hr h =>
        have hn' : ∀ d ∈ c :: w, ¬separates d := List.forall_mem_cons.mpr ⟨hc, hn⟩
        exact ⟨(c :: w) :: ws, .word (by simp) hn' hr h⟩

-- There is one way to take a text apart.
theorem words_iff {cs : List Char} {ws : List (List Char)} :
    Words separates cs ws ↔ ws = words separates cs := by
  have ⟨ws', h⟩ := exists_words separates cs
  constructor
  case mp  => exact Words.eq_words
  case mpr => exact fun hw => hw ▸ h.eq_words ▸ h

end SoapBindings.Text

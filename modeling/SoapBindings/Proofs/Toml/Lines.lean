import SoapBindings.Proofs.Toml.Spelling
-- The lines of a document: statements, and lines that hold no more than a comment. Each statement
-- has a line of its own, and the statements of the document are read in the order of the lines.

namespace SoapBindings.Toml

def Blank (c : Char) : Prop :=
  c = ' ' ∨ c = '\t'

-- A key with the keys before it, joined by dots.
inductive PathSpelling : List String → String → List Char → Prop
  | last {key text} (h : KeySpelling key text) : PathSpelling [] key text
  | dot {outer path key text rest} (h : KeySpelling outer text) (hr : PathSpelling path key rest) :
    PathSpelling (outer :: path) key (text ++ '.' :: rest)

inductive Statement.Spelling : Statement → List Char → Prop
  | assign {path key keys value text before after} (hk : PathSpelling path key keys)
    (hl : path.length < depthLimit) (hv : ValueSpelling value text) (hb : ∀ c ∈ before, Blank c)
    (ha : ∀ c ∈ after, Blank c) :
    Spelling (.assign { path, key, value }) (keys ++ (before ++ '=' :: (after ++ text)))
  | header {path key keys} (hk : PathSpelling path key keys) (hl : path.length < depthLimit) :
    Spelling (.header .table path key) ('[' :: (keys ++ [']']))

inductive Comment : List Char → Prop
  | none                                         : Comment []
  | some {remark} (h : ∀ c ∈ remark, ¬Control c) : Comment ('#' :: remark)

inductive LineBreak : List Char → Prop
  | lineFeed       : LineBreak ['\n']
  | carriageReturn : LineBreak ['\r', '\n']

-- A line break with what may stand before it after a statement, or alone on a line.
inductive Ending : List Char → Prop
  | intro {blanks comment lineBreak} (hb : ∀ c ∈ blanks, Blank c) (hc : Comment comment)
    (hl : LineBreak lineBreak) : Ending (blanks ++ (comment ++ lineBreak))

inductive Lines : List Statement → List Char → Prop
  | nil : Lines [] []
  | idle {ending ss text} (he : Ending ending) (h : Lines ss text) : Lines ss (ending ++ text)
  | statement {line ending s ss text} (hs : s.Spelling line) (he : Ending ending)
    (h : Lines ss text) : Lines (s :: ss) (line ++ (ending ++ text))

variable {cs rest : List Char}

theorem isBlank_iff {c : Char} : isBlank c ↔ Blank c := by
  simp [isBlank, Blank]

theorem skipBlanks_append {blanks : List Char} (hb : ∀ c ∈ blanks, Blank c)
    (h : ∀ c ∈ cs.head?, ¬Blank c) : skipBlanks (blanks ++ cs) = cs :=
  dropWhile_append_of_stop (fun c hc => isBlank_iff.mpr (hb c hc))
    (fun c hc => isBlank_iff.not.mpr (h c hc))

theorem skipBlanks_of_head? (h : ∀ c ∈ cs.head?, ¬Blank c) : skipBlanks cs = cs :=
  skipBlanks_append (List.forall_mem_nil _) h

theorem Comment.of_all {remark : List Char} (h : remark.all isPrintable) :
    Comment ('#' :: remark) :=
  .some fun c hc => isPrintable_iff.mp (List.all_eq_true.mp h c hc)

-- A comment lasts up to the end of the line.
theorem skipComment_append {comment lineBreak : List Char} (hc : Comment comment)
    (hl : LineBreak lineBreak) :
    skipComment (comment ++ (lineBreak ++ rest)) = lineBreak ++ rest := by
  have hs : ∀ c ∈ (lineBreak ++ rest).head?, ¬isPrintable c := by
    cases hl <;> simp [isPrintable]
  cases hc
  case none   => cases hl <;> rfl
  case some h => exact dropWhile_append_of_stop (fun c hc => isPrintable_iff.mpr (h c hc)) hs

-- What a line without a statement begins with, apart from blanks.
def BreaksOff (c : Char) : Prop :=
  c = '#' ∨ c = '\n' ∨ c = '\r'

theorem BreaksOff.not_blank {c : Char} (h : BreaksOff c) : ¬Blank c := by
  rcases h with rfl | rfl | rfl <;> simp [Blank]

theorem Comment.breaksOff {comment lineBreak : List Char} (hc : Comment comment)
    (hl : LineBreak lineBreak) :
    ∃ c cs, comment ++ lineBreak = c :: cs ∧ BreaksOff c := by
  cases hc
  case none          => cases hl <;> exact ⟨_, _, rfl, .inr (by simp)⟩
  case some remark _ => exact ⟨'#', remark ++ lineBreak, rfl, .inl rfl⟩

-- What is left of a line after its blanks.
theorem Ending.skipBlanks {ending : List Char} (h : Ending ending) :
    ∃ c cs, BreaksOff c ∧ Ending (c :: cs) ∧
      ∀ rest, skipBlanks (ending ++ rest) = c :: (cs ++ rest) := by
  cases h
  case intro blanks comment lineBreak hb hc hl =>
    have ⟨c, cs, he, ho⟩ := hc.breaksOff hl
    refine ⟨c, cs, ho, he ▸ .intro (List.forall_mem_nil _) hc hl, fun rest => ?_⟩
    rw [he, List.append_assoc, List.cons_append]
    exact skipBlanks_append hb fun _ hc => Option.some.inj hc ▸ ho.not_blank

theorem Ending.eq_cons {ending : List Char} (h : Ending ending) :
    ∃ c cs, ending = c :: cs ∧ (Blank c ∨ BreaksOff c) := by
  cases h
  case intro blanks comment lineBreak hb hc hl =>
    cases blanks
    case nil =>
      have ⟨c, cs, he, ho⟩ := hc.breaksOff hl
      exact ⟨c, cs, he, .inr ho⟩
    case cons c blanks => exact ⟨c, _, rfl, .inl (hb c List.mem_cons_self)⟩

theorem Ending.length_pos {ending : List Char} (h : Ending ending) : 0 < ending.length := by
  have ⟨_, _, he, _⟩ := h.eq_cons
  simp [he]

theorem Ending.head?_append {ending : List Char} (h : Ending ending) (rest : List Char) :
    (ending ++ rest).head? ≠ some '"' := by
  have ⟨c, cs, he, hc⟩ := h.eq_cons
  rw [he]
  rintro ⟨⟩
  simp [Blank, BreaksOff] at hc

theorem restOfLine_ending {ending : List Char} (h : Ending ending) (rest : List Char) :
    restOfLine (ending ++ rest) = some rest := by
  cases h
  case intro blanks comment lineBreak hb hc hl =>
    have ⟨c, cs, he, ho⟩ := hc.breaksOff hl
    have hs : Toml.skipBlanks (blanks ++ (comment ++ lineBreak ++ rest)) =
        comment ++ (lineBreak ++ rest) := by
      rw [← List.append_assoc comment]
      refine skipBlanks_append hb ?_
      rw [he]
      exact fun _ hc => Option.some.inj hc ▸ ho.not_blank
    rw [List.append_assoc, restOfLine, hs, skipComment_append hc hl]
    cases hl <;> rfl

-- What the keys that are spelled begin with.
def BeginsKey (c : Char) : Prop :=
  c = '"' ∨ Bare c

theorem Blank.not_bare {c : Char} (h : Blank c) : ¬Bare c := by
  rcases h with rfl | rfl <;> simp [Bare]

namespace BeginsKey

variable {c : Char}

theorem not_blank (h : BeginsKey c) : ¬Blank c := by
  rintro (rfl | rfl) <;> simp [BeginsKey, Bare] at h

theorem not_breaksOff (h : BeginsKey c) : ¬BreaksOff c := by
  rintro (rfl | rfl | rfl) <;> simp [BeginsKey, Bare] at h

theorem ne_bracket (h : BeginsKey c) : c ≠ '[' := by
  rintro rfl
  simp [BeginsKey, Bare] at h

theorem not_mark (h : BeginsKey c) : c ≠ '\uFEFF' := by
  rintro rfl
  simp [BeginsKey, Bare] at h

end BeginsKey

namespace KeySpelling

variable {key : String} {text : List Char}

theorem eq_cons (h : KeySpelling key text) : ∃ c cs, text = c :: cs ∧ BeginsKey c := by
  cases h
  case bare hn hb =>
    have he : key.toList ≠ [] := by simpa using hn
    have ⟨c, cs, hk⟩ := List.exists_cons_of_ne_nil he
    exact ⟨c, cs, hk, .inr (hb c (hk ▸ List.mem_cons_self))⟩
  case quoted h =>
    cases h
    exact ⟨'"', _, rfl, .inl rfl⟩

theorem length_pos (h : KeySpelling key text) : 0 < text.length := by
  have ⟨c, cs, ht, _⟩ := h.eq_cons
  exact ht ▸ Nat.succ_pos cs.length

theorem skipBlanks (h : KeySpelling key text) (rest : List Char) :
    skipBlanks (text ++ rest) = text ++ rest := by
  have ⟨c, cs, ht, hc⟩ := h.eq_cons
  refine skipBlanks_of_head? fun d hd hb => ?_
  rw [ht, List.cons_append] at hd
  cases hd
  exact hc.not_blank hb

end KeySpelling

theorem PathSpelling.eq_cons {path : List String} {key : String} {text : List Char}
    (h : PathSpelling path key text) : ∃ c cs, text = c :: cs ∧ BeginsKey c := by
  cases h
  case last h => exact h.eq_cons
  case dot h _ =>
    have ⟨c, cs, ht, hc⟩ := h.eq_cons
    exact ⟨c, _, by rw [ht, List.cons_append], hc⟩

namespace Key

-- A path ends where nothing that follows can be a part of it.
theorem joined_path {path : List String} {key : String} {text blanks : List Char} {fuel : Nat}
    {stop : Char} (h : PathSpelling path key text) (hf : text.length ≤ fuel)
    (hb : ∀ c ∈ blanks, Blank c) (hs : stop = '=' ∨ stop = ']') :
    joined fuel (text ++ (blanks ++ stop :: rest)) = some (path ++ [key], stop :: rest) := by
  obtain ⟨hn, hx⟩ : ¬Blank stop ∧ ¬Bare stop := by
    rcases hs with rfl | rfl <;> simp [Blank, Bare]
  have hr : ∀ c ∈ (blanks ++ stop :: rest).head?, ¬Bare c := by
    cases blanks
    case nil      => simpa using hx
    case cons c _ => simpa using (hb c List.mem_cons_self).not_bare
  have hk : skipBlanks (blanks ++ stop :: rest) = stop :: rest :=
    skipBlanks_append hb fun _ hc => Option.some.inj hc ▸ hn
  induction h generalizing fuel
  case last key text h =>
    have hp := h.length_pos
    obtain ⟨n, hn⟩ : ∃ n, fuel = n + 1 := ⟨fuel - 1, by omega⟩
    rw [hn, joined, h.skipBlanks, simple_key h hr]
    simp only [bind, Option.bind, hk]
    rcases hs with rfl | rfl <;> rfl
  case dot outer path key text more h _ hi =>
    have hp := h.length_pos
    rw [List.length_append, List.length_cons] at hf
    obtain ⟨n, hn⟩ : ∃ n, fuel = n + 1 := ⟨fuel - 1, by omega⟩
    have hd (cs : List Char) : skipBlanks ('.' :: cs) = '.' :: cs := rfl
    have hj : joined n (more ++ (blanks ++ stop :: rest)) = some (path ++ [key], stop :: rest) :=
      hi (by omega)
    rw [hn, joined, List.append_assoc, h.skipBlanks, List.cons_append,
      simple_key h (by simp [Bare])]
    simp only [bind, Option.bind, hd, hj]
    rfl

theorem path_spelled {path : List String} {key : String} {text blanks : List Char}
    {stop : Char} (h : PathSpelling path key text) (hl : path.length < depthLimit)
    (hb : ∀ c ∈ blanks, Blank c) (hs : stop = '=' ∨ stop = ']') :
    Key.path (text ++ (blanks ++ stop :: rest)) = some ((path, key), stop :: rest) := by
  have hf : text.length ≤ (text ++ (blanks ++ stop :: rest)).length := by
    rw [List.length_append]
    exact Nat.le_add_right _ _
  rw [Key.path, joined_path h hf hb hs]
  simp [Nat.not_lt.mpr (Nat.succ_le_of_lt hl)]

end Key

theorem ValueSpelling.head?_append {v : Value} {text : List Char} (h : ValueSpelling v text)
    (rest : List Char) : ∀ c ∈ (text ++ rest).head?, ¬Blank c := by
  cases h
  case string h =>
    cases h
    simp [Blank]
  all_goals simp [Blank]

theorem value_spelled {levels : Nat} {v : Value} {text : List Char} (h : ValueSpelling v text)
    (hr : rest.head? ≠ some '"') : value (levels + 1) (text ++ rest) = some (v, rest) := by
  cases h
  case string s hs =>
    have hv := Strings.read?_string hs hr
    cases hs
    case intro content _ =>
      have hd : value (levels + 1) ('"' :: (content ++ ['"']) ++ rest) =
        (Strings.read? ('"' :: (content ++ ['"']) ++ rest)).map
          fun r => (.string r.fst, r.snd) := rfl
      rw [hd, hv]
      rfl
  case true  => rfl
  case false => rfl

namespace Statement

theorem Spelling.eq_cons {s : Statement} {text : List Char} (h : s.Spelling text) :
    ∃ c cs, text = c :: cs ∧ ¬Blank c ∧ ¬BreaksOff c ∧ c ≠ '\uFEFF' := by
  cases h
  case assign hk _ _ _ _ =>
    have ⟨c, cs, ht, hc⟩ := hk.eq_cons
    exact ⟨c, _, by rw [ht, List.cons_append], hc.not_blank, hc.not_breaksOff, hc.not_mark⟩
  case header => exact ⟨'[', _, rfl, by simp [Blank], by simp [BreaksOff], by simp⟩

theorem read?_of_assignment {c : Char} {cs : List Char} {a : Assignment} (hc : c ≠ '[')
    (h : assignment (value depthLimit) (c :: cs) = some (a, rest)) :
    read? (c :: cs) = some (.assign a, rest) := by
  rw [read?, h]
  · rfl
  · exact fun _ he => hc (List.cons.inj he).left
  · exact fun _ he => hc (List.cons.inj he).left

theorem read?_of_path {c : Char} {cs : List Char} {path : List String} {key : String}
    (hc : c ≠ '[') (h : Key.path (c :: cs) = some ((path, key), ']' :: rest)) :
    read? ('[' :: c :: cs) = some (.header .table path key, rest) := by
  rw [read?, h]
  · rfl
  · exact fun _ he => hc (List.cons.inj he).left

theorem read?_spelled {s : Statement} {text : List Char} (h : s.Spelling text)
    (hr : rest.head? ≠ some '"') : read? (text ++ rest) = some (s, rest) := by
  cases h
  case assign path key keys v text before after hk hl hv hb ha =>
    have hp : Key.path (keys ++ (before ++ '=' :: (after ++ (text ++ rest)))) =
        some ((path, key), '=' :: (after ++ (text ++ rest))) := Key.path_spelled hk hl hb (.inl rfl)
    have he : assignment (value depthLimit) (keys ++ (before ++ '=' :: (after ++ (text ++ rest)))) =
        some ({ path, key, value := v }, rest) := by
      rw [assignment, hp]
      simp only [bind, Option.bind, skipBlanks_append ha (hv.head?_append rest)]
      rw [depthLimit, value_spelled hv hr]
      rfl
    have ⟨c, cs, ht, hc⟩ := hk.eq_cons
    rw [ht, List.cons_append] at he
    simp only [ht, List.append_assoc, List.cons_append]
    exact read?_of_assignment hc.ne_bracket he
  case header path key keys hk hl =>
    have hp : Key.path (keys ++ ([] ++ ']' :: rest)) = some ((path, key), ']' :: rest) :=
      Key.path_spelled hk hl (List.forall_mem_nil _) (.inr rfl)
    have ⟨c, cs, ht, hc⟩ := hk.eq_cons
    rw [ht, List.cons_append] at hp
    simp only [ht, List.append_assoc, List.cons_append]
    exact read?_of_path hc.ne_bracket hp

-- One line.

theorem readAll_idle {fuel : Nat} {c : Char} {text : List Char} (ht : skipBlanks text = c :: cs)
    (hc : BreaksOff c) (hl : restOfLine (c :: cs) = some rest) :
    readAll (fuel + 1) text = readAll fuel rest := by
  have hb : (c = '#' || c = '\n' || c = '\r') = true := by
    simpa [BreaksOff, or_assoc] using hc
  simp only [readAll, ht, hb, if_true, hl, bind, Option.bind]

theorem readAll_statement {fuel : Nat} {c : Char} {text line : List Char} {s : Statement}
    {ss : List Statement} (ht : skipBlanks text = c :: cs) (hc : ¬BreaksOff c)
    (hs : read? (c :: cs) = some (s, line)) (hl : restOfLine line = some rest)
    (hr : readAll fuel rest = some ss) : readAll (fuel + 1) text = some (s :: ss) := by
  have hb : (c = '#' || c = '\n' || c = '\r') = false := by
    simpa [BreaksOff, and_assoc] using hc
  simp only [readAll, ht, hb, hs, hl, hr, bind, Option.bind]
  rfl

-- Each line takes up fuel once, and there are at least as many characters as lines.
theorem readAll_lines {ss : List Statement} {text : List Char} {fuel : Nat} (h : Lines ss text)
    (hf : text.length < fuel) : readAll fuel text = some ss := by
  induction h generalizing fuel
  case nil =>
    have ⟨n, hn⟩ := Nat.exists_eq_succ_of_ne_zero (Nat.ne_zero_of_lt hf)
    exact hn ▸ rfl
  case idle ending ss text he _ hi =>
    have ⟨n, hn⟩ := Nat.exists_eq_succ_of_ne_zero (Nat.ne_zero_of_lt hf)
    have ⟨c, cs, hc, hl, ht⟩ := he.skipBlanks
    have hp := he.length_pos
    rw [List.length_append] at hf
    rw [hn, readAll_idle (ht text) hc (restOfLine_ending hl text)]
    exact hi (by omega)
  case statement line ending s ss text hs he _ hi =>
    have ⟨n, hn⟩ := Nat.exists_eq_succ_of_ne_zero (Nat.ne_zero_of_lt hf)
    have ⟨c, cs, hl, hb, ho, _⟩ := hs.eq_cons
    have ht : skipBlanks (line ++ (ending ++ text)) = c :: (cs ++ (ending ++ text)) := by
      rw [hl, List.cons_append]
      exact skipBlanks_of_head? fun _ hc => Option.some.inj hc ▸ hb
    have hr : read? (c :: (cs ++ (ending ++ text))) = some (s, ending ++ text) := by
      rw [← List.cons_append, ← hl]
      exact read?_spelled hs (he.head?_append text)
    have hp := he.length_pos
    rw [List.length_append, List.length_append] at hf
    rw [hn]
    exact readAll_statement ht ho hr (restOfLine_ending he text) (hi (by omega))

end Statement

theorem withoutMark_of_head? {text : List Char} (h : text.head? ≠ some '\uFEFF') :
    withoutMark text = text := by
  rw [withoutMark]
  rintro _ rfl
  exact h rfl

theorem Lines.head? {ss : List Statement} {text : List Char} (h : Lines ss text) :
    text.head? ≠ some '\uFEFF' := by
  cases h
  case nil => simp
  case idle he _ =>
    have ⟨c, cs, hc, hb⟩ := he.eq_cons
    rw [hc]
    rintro ⟨⟩
    simp [Blank, BreaksOff] at hb
  case statement hs _ _ =>
    have ⟨c, cs, hc, _, _, hm⟩ := hs.eq_cons
    rw [hc]
    exact fun he => hm (Option.some.inj he)

-- A text says what the table of its statements holds.
theorem parse?_lines {ss : List Statement} {text : String} {root : Table}
    (h : Lines ss text.toList) (hr : Table.ofStatements? ss = some root) :
    parse? text = some (Item.entries root) := by
  rw [parse?, withoutMark_of_head? h.head?, Statement.readAll_lines h (Nat.lt_succ_self _)]
  simp only [bind, Option.bind, hr]
  rfl

end SoapBindings.Toml

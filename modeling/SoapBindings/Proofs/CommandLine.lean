import Mathlib.Data.List.Perm.Basic
import SoapBindings.CommandLine
-- Command lines made of options with a value each and of inputs. What such a line says is the list
-- of these values, and the arguments depend on nothing else.

namespace SoapBindings.CommandLine

namespace OptionName

def name : OptionName → String
  | config => "config"
  | output => "output"
  | unwrap => "unwrap"

def letter? : OptionName → Option Char
  | config => some 'c'
  | output => some 'o'
  | unwrap => none

end OptionName

-- A value or an input that cannot be taken for an option or for a part of one.
structure Word where
  text     : String
  nonempty : text ≠ ""
  noHyphen : text.toList.head? ≠ some '-'
  noSign   : text.toList.head? ≠ some '='

-- How an option and its value are written: `--config v`, `--config=v`, `-c v`, `-cv` or `-c=v`.
inductive Spelling (o : OptionName) where
  | longSeparate
  | longJoined
  | shortSeparate (letter : Char) (h : o.letter? = some letter)
  | shortAttached (letter : Char) (h : o.letter? = some letter)
  | shortJoined (letter : Char) (h : o.letter? = some letter)

def Spelling.arguments {o : OptionName} (value : String) : Spelling o → List String
  | longSeparate           => ["--" ++ o.name, value]
  | longJoined             => ["--" ++ o.name ++ "=" ++ value]
  | shortSeparate letter _ => [.ofList ['-', letter], value]
  | shortAttached letter _ => [.ofList ['-', letter] ++ value]
  | shortJoined letter _   => [.ofList ['-', letter, '='] ++ value]

inductive Piece where
  | option (o : OptionName) (spelling : Spelling o) (value : Word)
  | input (value : Word)

namespace Piece

def arguments : Piece → List String
  | option _ spelling value => spelling.arguments value.text
  | input value             => [value.text]

-- A value with the option that it is for. An input is for no option.
def meaning : Piece → Option OptionName × String
  | option o _ value => (some o, value.text)
  | input value      => (none, value.text)

end Piece

-- After `--` there may be one more input, which may look like an option.
structure Line where
  pieces : List Piece
  last   : Option String

abbrev Meanings := List (Option OptionName × String)

namespace Line

def arguments (l : Line) : List String :=
  l.pieces.flatMap Piece.arguments ++ l.last.elim [] (["--", ·])

def meanings (l : Line) : Meanings :=
  l.pieces.map Piece.meaning ++ l.last.toList.map (none, ·)

end Line

def Meanings.values (ms : Meanings) (place : Option OptionName) : List String :=
  (ms.filter (·.1 = place)).map Prod.snd

@[simp]
theorem Meanings.values_append (ms₁ ms₂ : Meanings) (place : Option OptionName) :
    Meanings.values (ms₁ ++ ms₂) place =
      Meanings.values ms₁ place ++ Meanings.values ms₂ place := by
  simp [Meanings.values]

theorem Word.dropWhile_eq (v : Word) : v.text.toList.dropWhile (· = '=') = v.text.toList := by
  have hs := v.noSign
  cases h : v.text.toList
  case nil => rfl
  case cons c cs => simp_all

namespace Progress

variable {p q r : Progress} {o : OptionName} {letter : Char}

-- What one argument does.

theorem add_word (hp : p.plain = false) (v : Word) :
    p.add v.text = p.addValueOrInput v.text := by
  cases h : v.text.toList
  case nil => exact absurd (String.toList_eq_nil_iff.mp h) v.nonempty
  case cons c cs =>
    have hc : c ≠ '-' := by simpa [h] using v.noHyphen
    rw [add, hp, h]
    simp [hc]

theorem add_separate (hp : p.plain = false) (o : OptionName) :
    p.add ("--" ++ o.name) = .ok (p.addOption o none) := by
  cases o <;> simp [add, hp, OptionName.name, addLong, OptionName.ofLong?]

theorem add_joined (hp : p.plain = false) (o : OptionName) (v : Word) :
    p.add ("--" ++ o.name ++ "=" ++ v.text) = .ok (p.addOption o (some v.text.toList)) := by
  cases o <;> simp [add, hp, OptionName.name, addLong, OptionName.ofLong?]

theorem add_short (hp : p.plain = false) (h : o.letter? = some letter) {arg : String}
    {value : List Char} (ha : arg.toList = '-' :: letter :: value) :
    p.add arg = .ok (p.addOption o (if value.isEmpty then none else some value)) := by
  cases o <;> cases h <;> simp [add, hp, ha, addShort, OptionName.ofShort?]

-- Signs of equality in front of a value do not belong to it.
theorem addOption_sign (p : Progress) (o : OptionName) (value : List Char) :
    p.addOption o (some ('=' :: value)) = p.addOption o (some value) := by
  simp [addOption]

theorem addValue_addOption (p : Progress) (o : OptionName) (v : Word) :
    (p.addOption o none).addValue o v.text = p.addOption o (some v.text.toList) := by
  simp only [addOption, v.dropWhile_eq, String.ofList_toList]
  cases o <;> rfl

theorem add_awaited (hp : p.plain = false) (o : OptionName) (v : Word) :
    (p.addOption o none).add v.text = .ok (p.addOption o (some v.text.toList)) := by
  have hp' : (p.addOption o none).plain = false := by cases o <;> exact hp
  rw [add_word hp', ← addValue_addOption]
  rfl

theorem foldlM_one {a : String} (h : p.add a = .ok q) : [a].foldlM add p = .ok q := by
  rw [List.foldlM_cons, h]
  rfl

theorem foldlM_two {a b : String} (ha : p.add a = .ok q) (hb : q.add b = .ok r) :
    [a, b].foldlM add p = .ok r := by
  rw [List.foldlM_cons, ha]
  exact foldlM_one hb

-- All spellings of an option do the same.
theorem foldlM_spelling (hp : p.plain = false) (s : Spelling o) (v : Word) :
    (s.arguments v.text).foldlM add p = .ok (p.addOption o (some v.text.toList)) := by
  cases s
  case longSeparate => exact foldlM_two (add_separate hp o) (add_awaited hp o v)
  case longJoined   => exact foldlM_one (add_joined hp o v)
  case shortSeparate letter h =>
    exact foldlM_two (add_short hp h String.toList_ofList) (add_awaited hp o v)
  case shortAttached letter h =>
    have ht : (String.ofList ['-', letter] ++ v.text).toList = '-' :: letter :: v.text.toList := by
      simp
    refine foldlM_one ((add_short hp h ht).trans ?_)
    simp [v.nonempty]
  case shortJoined letter h =>
    have ht : (String.ofList ['-', letter, '='] ++ v.text).toList =
        '-' :: letter :: '=' :: v.text.toList := by
      simp
    exact foldlM_one ((add_short hp h ht).trans (congrArg _ (addOption_sign p o _)))

-- What the arguments so far mean.
structure Reached (plain : Bool) (ms : Meanings) (p : Progress) : Prop where
  waiting : p.waiting = none
  plain   : p.plain = plain
  given   : ∀ o, p.given o = ⟨(ms.values (some o)).length, ms.values (some o)⟩
  input   : p.input.toList = ms.values none

variable {ms : Meanings} {plain : Bool}

theorem given_addOption (p : Progress) (o : OptionName) (v : Word) (o' : OptionName) :
    (p.addOption o (some v.text.toList)).given o' =
      if o' = o then ⟨(p.given o).count + 1, (p.given o).values ++ [v.text]⟩ else p.given o' := by
  simp only [addOption, v.dropWhile_eq, String.ofList_toList]
  cases o <;> cases o' <;> rfl

theorem Reached.addOption (h : Reached plain ms p) (o : OptionName) (v : Word) :
    Reached plain (ms ++ [(some o, v.text)]) (p.addOption o (some v.text.toList)) where
  waiting := by cases o <;> rfl
  plain   := by cases o <;> exact h.plain
  given o' := by
    rw [given_addOption, h.given, h.given]
    by_cases ho : o' = o
    case pos => simp [ho, Meanings.values]
    case neg => simp [ho, Ne.symm ho, Meanings.values]
  input   := by
    have hi : (p.addOption o (some v.text.toList)).input = p.input := by cases o <;> rfl
    simp [hi, h.input, Meanings.values]

-- A second input is refused at once.
inductive Answers (plain : Bool) (ms : Meanings) : Except Stop Progress → Prop
  | reached {p : Progress} (h : Reached plain ms p) : Answers plain ms (.ok p)
  | refused (h : 1 < (Meanings.values ms none).length) :
    Answers plain ms (.error (.usage .unknownArgument))

theorem Reached.addInput (h : Reached plain ms p) (arg : String) :
    Answers plain (ms ++ [(none, arg)]) (p.addInput arg) := by
  have hi := h.input
  have hv : Meanings.values (ms ++ [(none, arg)]) none = ms.values none ++ [arg] := by
    simp [Meanings.values]
  rw [Progress.addInput]
  cases hp : p.input
  case some input =>
    refine .refused ?_
    simp [hv, ← hi, hp]
  case none =>
    refine .reached ⟨h.waiting, h.plain, fun o => ?_, ?_⟩
    · have hg : ({ p with input := some arg } : Progress).given o = p.given o := by cases o <;> rfl
      simp [hg, h.given, Meanings.values]
    · simp [hv, ← hi, hp]

theorem Answers.bind {plain' : Bool} {ms' : Meanings} {x : Except Stop Progress}
    {f : Progress → Except Stop Progress} (h : Answers plain ms x)
    (hf : ∀ p, Reached plain ms p → Answers plain' (ms ++ ms') (f p)) :
    Answers plain' (ms ++ ms') (x >>= f) := by
  cases h
  case reached p h => exact hf p h
  case refused h   => exact .refused (by simp; omega)

theorem Reached.foldlM_piece (h : Reached false ms p) (piece : Piece) :
    Answers false (ms ++ [piece.meaning]) (piece.arguments.foldlM add p) := by
  cases piece
  case option o s v =>
    rw [Piece.arguments, foldlM_spelling h.plain]
    exact .reached (h.addOption o v)
  case input v =>
    have ha : p.add v.text = p.addInput v.text := by
      rw [add_word h.plain, addValueOrInput, h.waiting]
    have hf : (Piece.input v).arguments.foldlM add p = p.addInput v.text >>= pure := by
      rw [Piece.arguments, List.foldlM_cons, ha]
      rfl
    rw [hf, bind_pure]
    exact h.addInput v.text

theorem Reached.foldlM_pieces (h : Reached false ms p) (pieces : List Piece) :
    Answers false (ms ++ pieces.map Piece.meaning)
      ((pieces.flatMap Piece.arguments).foldlM add p) := by
  induction pieces generalizing ms p
  case nil => simpa using .reached h
  case cons piece pieces hi =>
    rw [List.flatMap_cons, List.foldlM_append, List.map_cons, List.append_cons]
    exact (h.foldlM_piece piece).bind fun _ h => hi h

theorem reached_start : Reached false [] {} where
  waiting := rfl
  plain   := rfl
  given o := by cases o <;> rfl
  input   := rfl

-- After `--` nothing is an option.
theorem Reached.foldlM_last (h : Reached false ms p) (last : Option String) :
    Answers last.isSome (ms ++ last.toList.map (none, ·))
      ((last.elim [] (["--", ·])).foldlM add p) := by
  cases last
  case none => simpa using .reached h
  case some arg =>
    have ha : p.add "--" = .ok { p with plain := true } := by simp [add, h.plain]
    have hr : Reached true ms { p with plain := true } :=
      ⟨h.waiting, rfl, fun o => (by cases o <;> rfl : _ = p.given o).trans (h.given o), h.input⟩
    have hf : ["--", arg].foldlM add p =
        ({ p with plain := true } : Progress).addInput arg >>= pure := by
      rw [List.foldlM_cons, ha]
      rfl
    rw [Option.elim_some, hf, bind_pure]
    exact hr.addInput arg

theorem answers_line (l : Line) :
    Answers l.last.isSome l.meanings (l.arguments.foldlM add {}) := by
  rw [Line.arguments, List.foldlM_append]
  exact (reached_start.foldlM_pieces l.pieces).bind fun _ h => h.foldlM_last l.last

-- The end of a command line.

theorem refused_unless {ε α : Type} {c : Prop} [Decidable c] {e : ε} {x : Except ε α} {a : α} :
    (if c then (do throw e; x) else x) = .ok a ↔ ¬c ∧ x = .ok a := by
  by_cases h : c
  case pos => simp [h, throw, throwThe, MonadExceptOf.throw, bind, Except.bind]
  case neg => simp [h]

structure Completes (p : Progress) (a : Arguments) : Prop where
  input  : p.input = some a.input
  config : p.config.values.head? = some a.config
  output : p.output.values.head?.getD defaultOutput = a.output
  unwrap : p.unwrap.values.head? >>= boolean? = a.unwrap
  given  : p.config.count ≠ 0 ∧ p.unwrap.isBare = false
  flags  : ∀ v ∈ p.unwrap.values, boolean? v ≠ none
  once   : p.config.count ≤ 1 ∧ p.output.count ≤ 1 ∧ p.unwrap.count ≤ 1

theorem finish_eq_ok_iff {a : Arguments} : p.finish = .ok a ↔ p.Completes a := by
  have hn {e : UsageError} : (throw e : Except UsageError Arguments) ≠ .ok a := nofun
  cases hi : p.input
  case none =>
    have hf : ¬p.Completes a := fun h => by simpa [hi] using h.input
    simp [finish, hi, hn, hf]
  case some input =>
    cases hc : p.config.values.head?
    case none =>
      have hf : ¬p.Completes a := fun h => by simpa [hc] using h.config
      simp [finish, hi, hc, refused_unless, hn, hf]
    case some config =>
      simp only [finish, hi, hc, refused_unless]
      constructor
      case mp =>
        intro ⟨hg, hb, hf, ho, ha⟩
        cases ha
        exact ⟨hi, hc, rfl, rfl, ⟨hg, by simpa using hb⟩, by simpa using hf, by simp at ho; omega⟩
      case mpr =>
        intro ⟨hi', hc', ho, hu, hg, hf, h1⟩
        refine ⟨hg.left, by simp [hg.right], by simpa using hf, by simp; omega, ?_⟩
        cases hi.symm.trans hi'
        cases hc.symm.trans hc'
        rw [ho, hu]
        rfl

end Progress

theorem eq_nil_or_singleton {α : Type} {l : List α} (h : l.length ≤ 1) :
    l = [] ∨ ∃ a, l = [a] := by
  match l with
  | []          => exact .inl rfl
  | [a]         => exact .inr ⟨a, rfl⟩
  | _ :: _ :: _ => simp at h

def flag : Bool → String
  | true  => "true"
  | false => "false"

-- The arguments that values determine: one for the config and one for the input, and one at most
-- for each of the others.
structure Meanings.Settles (ms : Meanings) (a : Arguments) : Prop where
  config : ms.values (some .config) = [a.config]
  output : ms.values (some .output) = [] ∧ a.output = "./metadata.json" ∨
    ms.values (some .output) = [a.output]
  unwrap : ms.values (some .unwrap) = [] ∧ a.unwrap = none ∨
    ∃ b, ms.values (some .unwrap) = [flag b] ∧ a.unwrap = some b
  input  : ms.values none = [a.input]

theorem boolean?_eq_some_iff {s : String} {b : Bool} : boolean? s = some b ↔ s = flag b := by
  unfold boolean?
  cases b <;> split <;> simp_all [flag]

variable {ms ms' : Meanings} {a : Arguments}

theorem Progress.Reached.completes_iff {plain : Bool} {p : Progress} (h : p.Reached plain ms) :
    p.Completes a ↔ ms.Settles a := by
  have hi := h.input
  have hc : p.config = _ := h.given .config
  have ho : p.output = _ := h.given .output
  have hu : p.unwrap = _ := h.given .unwrap
  constructor
  case mp =>
    intro ⟨hi', hc', ho', hu', _, hf, h1⟩
    simp only [hc, ho, hu] at hc' ho' hu' hf h1
    constructor
    case config =>
      rcases eq_nil_or_singleton h1.left with hl | ⟨v, hl⟩ <;> simp_all
    case output =>
      rcases eq_nil_or_singleton h1.right.left with hl | ⟨v, hl⟩
      · exact .inl ⟨hl, by simpa [hl, defaultOutput] using ho'.symm⟩
      · exact .inr (by simpa [hl] using ho')
    case unwrap =>
      rcases eq_nil_or_singleton h1.right.right with hl | ⟨v, hl⟩
      · exact .inl ⟨hl, by simpa [hl] using hu'.symm⟩
      · have ⟨b, hb⟩ := Option.ne_none_iff_exists'.mp (hf v (by simp [hl]))
        exact .inr ⟨b, boolean?_eq_some_iff.mp hb ▸ hl, by simpa [hl, hb] using hu'.symm⟩
    case input => rw [← hi, hi', Option.toList_some]
  case mpr =>
    intro ⟨hc', ho', hu', hi'⟩
    have hb (b : Bool) : boolean? (flag b) = some b := boolean?_eq_some_iff.mpr rfl
    rcases ho' with ⟨hol, hoa⟩ | hol <;> rcases hu' with ⟨hul, hua⟩ | ⟨b, hul, hua⟩
    all_goals
      constructor
      case input => simpa [hi'] using hi
      all_goals simp [*, defaultOutput, Given.isBare]

-- What a line means settles its arguments.
theorem parse_eq_ok_iff (l : Line) : parse l.arguments = .ok a ↔ l.meanings.Settles a := by
  have ha := Progress.answers_line l
  rw [parse]
  cases hf : l.arguments.foldlM Progress.add {} <;> rw [hf] at ha
  case error e =>
    cases ha
    case refused h =>
      have hn : ¬l.meanings.Settles a := fun hs => by simp [hs.input] at h
      simp [bind, Except.bind, hn]
  case ok p =>
    cases ha
    case reached h =>
      rw [← h.completes_iff, ← Progress.finish_eq_ok_iff]
      cases hp : p.finish <;> simp [bind, Except.bind, hp]

-- The number of values is right, and what is given for unwrap is a flag.
structure Meanings.Sound (ms : Meanings) : Prop where
  config : (ms.values (some .config)).length = 1
  output : (ms.values (some .output)).length ≤ 1
  unwrap : (ms.values (some .unwrap)).length ≤ 1
  flags  : ∀ v ∈ ms.values (some .unwrap), v = "true" ∨ v = "false"
  input  : (ms.values none).length = 1

theorem Meanings.exists_settles_iff : (∃ a, ms.Settles a) ↔ ms.Sound := by
  constructor
  case mp =>
    intro ⟨a, hc, ho, hu, hi⟩
    constructor
    case config => simp [hc]
    case output => rcases ho with ⟨ho, _⟩ | ho <;> simp [ho]
    case unwrap => rcases hu with ⟨hu, _⟩ | ⟨b, hu, _⟩ <;> simp [hu]
    case flags  => rcases hu with ⟨hu, _⟩ | ⟨b, hu, _⟩ <;> simp [hu, flag]; cases b <;> simp
    case input  => simp [hi]
  case mpr =>
    intro ⟨hc, ho, hu, hf, hi⟩
    have ⟨config, hc⟩ := List.length_eq_one_iff.mp hc
    have ⟨input, hi⟩ := List.length_eq_one_iff.mp hi
    have ⟨output, ho⟩ : ∃ output, ms.values (some .output) = [] ∧ output = "./metadata.json" ∨
        ms.values (some .output) = [output] := by
      rcases eq_nil_or_singleton ho with ho | ⟨output, ho⟩
      · exact ⟨_, .inl ⟨ho, rfl⟩⟩
      · exact ⟨output, .inr ho⟩
    have ⟨unwrap, hu⟩ : ∃ unwrap, ms.values (some .unwrap) = [] ∧ unwrap = none ∨
        ∃ b, ms.values (some .unwrap) = [flag b] ∧ unwrap = some b := by
      rcases eq_nil_or_singleton hu with hu | ⟨v, hu⟩
      · exact ⟨_, .inl ⟨hu, rfl⟩⟩
      · rcases hf v (by simp [hu]) with hv | hv
        · exact ⟨_, .inr ⟨true, hu.trans (congrArg ([·]) hv), rfl⟩⟩
        · exact ⟨_, .inr ⟨false, hu.trans (congrArg ([·]) hv), rfl⟩⟩
    exact ⟨⟨config, output, unwrap, input⟩, hc, ho, hu, hi⟩

theorem Meanings.Settles.perm (h : ms.Settles a) (hp : ms.Perm ms') : ms'.Settles a := by
  have hv (place : Option OptionName) : (ms.values place).Perm (ms'.values place) :=
    (hp.filter _).map _
  have hnil {place : Option OptionName} (h : ms.values place = []) : ms'.values place = [] :=
    List.perm_nil.mp (h ▸ (hv place).symm)
  have hone {place : Option OptionName} {v : String} (h : ms.values place = [v]) :
      ms'.values place = [v] :=
    List.perm_singleton.mp (h ▸ (hv place).symm)
  constructor
  case config => exact hone h.config
  case output => exact h.output.imp (.imp_left hnil) hone
  case unwrap => exact h.unwrap.imp (.imp_left hnil) fun ⟨b, hb, ha⟩ => ⟨b, hone hb, ha⟩
  case input  => exact hone h.input

-- A line has arguments when there is a config, an input, and nothing more than once. They are the
-- same for all lines that mean the same, in whatever order and spelling.
theorem parse_line (l : Line) :
    ((∃ a, parse l.arguments = .ok a) ↔ l.meanings.Sound) ∧
    (∀ a, parse l.arguments = .ok a ↔ l.meanings.Settles a) ∧
    ∀ l' : Line, l.meanings.Perm l'.meanings →
      ∀ a, parse l.arguments = .ok a ↔ parse l'.arguments = .ok a := by
  refine ⟨?_, fun a => parse_eq_ok_iff l, fun l' hp a => ?_⟩
  · simp only [parse_eq_ok_iff, Meanings.exists_settles_iff]
  · rw [parse_eq_ok_iff, parse_eq_ok_iff]
    exact ⟨fun h => h.perm hp, fun h => h.perm hp.symm⟩

-- Two lines for the same arguments.
namespace Line

def config : Word where
  text     := "c=d"
  nonempty := by decide
  noHyphen := by decide
  noSign   := by decide

def flagged : Word where
  text     := "true"
  nonempty := by decide
  noHyphen := by decide
  noSign   := by decide

def services : Word where
  text     := "in.json"
  nonempty := by decide
  noHyphen := by decide
  noSign   := by decide

def terse : Line where
  pieces := [.option .unwrap .longJoined flagged, .input services,
    .option .config (.shortAttached 'c' rfl) config]
  last   := none

def verbose : Line where
  pieces := [.option .config .longSeparate config, .option .unwrap .longSeparate flagged]
  last   := some "in.json"

end Line

theorem parse_line_terse :
    Line.terse.arguments = ["--unwrap=true", "in.json", "-cc=d"] ∧
    Line.verbose.arguments = ["--config", "c=d", "--unwrap", "true", "--", "in.json"] ∧
    parse Line.terse.arguments = .ok ⟨"c=d", "./metadata.json", some true, "in.json"⟩ ∧
    parse Line.verbose.arguments = .ok ⟨"c=d", "./metadata.json", some true, "in.json"⟩ := by
  have ⟨_, hs, hp⟩ := parse_line Line.terse
  have hm : Line.terse.meanings.Perm Line.verbose.meanings := by decide
  have ht := (hs ⟨"c=d", "./metadata.json", some true, "in.json"⟩).mpr
    ⟨rfl, .inl ⟨rfl, rfl⟩, .inr ⟨true, rfl, rfl⟩, rfl⟩
  exact ⟨by decide, by decide, ht, (hp Line.verbose hm _).mp ht⟩

end SoapBindings.CommandLine

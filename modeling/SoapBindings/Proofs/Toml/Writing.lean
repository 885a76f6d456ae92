import SoapBindings.Proofs.Json.Writing
import SoapBindings.Proofs.Toml.Lines
import SoapBindings.Proofs.Toml.Sections
-- Every document of strings and booleans can be written down, whatever its keys and strings are.

namespace SoapBindings.Toml

open Json.Value (hexDigit hexDigit_spells)

-- Nothing is escaped without need.
def escape (c : Char) : List Char :=
  if c = '"' then ['\\', '"']
  else if c = '\\' then ['\\', '\\']
  else if isPrintable c then [c]
  else ['\\', 'u', '0', '0', hexDigit (c.toNat / 16), hexDigit c.toNat]

def quote (s : String) : List Char :=
  '"' :: (s.toList.flatMap escape ++ ['"'])

theorem HexSpelling.byte {n : Nat} (h : n < 0x100) :
    HexSpelling n ['0', '0', hexDigit (n / 16), hexDigit n] := by
  have hz : HexSpelling 0 ['0', '0'] :=
    (HexSpelling.nil.digit (hexDigit_spells 0)).digit (hexDigit_spells 0)
  have hn : 16 * (16 * 0 + n / 16 % 16) + n % 16 = n := by omega
  have hs := (hz.digit (hexDigit_spells (n / 16))).digit (hexDigit_spells n)
  rwa [hn] at hs

theorem escape_spells (c : Char) : CharSpelling c (escape c) := by
  unfold escape
  split
  case isTrue hq => exact .short (by rw [hq]; decide)
  case isFalse hq =>
    split
    case isTrue hb => exact .short (by rw [hb]; decide)
    case isFalse hb =>
      split
      case isTrue hp => exact .plain (isPrintable_iff.mp hp) hq hb
      case isFalse hp =>
        have ⟨_, hc⟩ := not_not.mp (isPrintable_iff.not.mp hp)
        exact .hex rfl (.byte (by omega))

theorem flatMap_escape_spells : (cs : List Char) → CharsSpelling cs (cs.flatMap escape)
  | []      => .nil
  | c :: cs => .cons (escape_spells c) (flatMap_escape_spells cs)

theorem quote_spells (s : String) : StringSpelling s (quote s) :=
  .intro (flatMap_escape_spells s.toList)

theorem exists_path : (path : List String) → (key : String) →
    ∃ text, PathSpelling path key text
  | [],            key => ⟨_, .last (.quoted (quote_spells key))⟩
  | outer :: path, key =>
    have ⟨_, h⟩ := exists_path path key
    ⟨_, .dot (.quoted (quote_spells outer)) h⟩

-- Values without parts of other kinds.
inductive Value.Plain : Value → Prop
  | string (s : String) : Plain (.string s)
  | boolean (b : Bool)  : Plain (.boolean b)

theorem Value.Plain.exists_text {v : Value} (h : v.Plain) : ∃ text, ValueSpelling v text := by
  cases h
  case string s  => exact ⟨_, .string (quote_spells s)⟩
  case boolean b =>
    cases b
    case false => exact ⟨_, .false⟩
    case true  => exact ⟨_, .true⟩

theorem exists_lines {ss : List Statement} (h : ∀ s ∈ ss, ∃ line, s.Spelling line) :
    ∃ text, Lines ss text := by
  induction ss
  case nil => exact ⟨_, .nil⟩
  case cons s ss hi =>
    have ⟨line, hl⟩ := h s List.mem_cons_self
    have ⟨text, ht⟩ := hi fun s hs => h s (.tail _ hs)
    exact ⟨_, .statement hl (.intro (List.forall_mem_nil _) .none .lineFeed) ht⟩

theorem exists_assignment {entries : List (String × Value)} {a : Assignment}
    (h : ∀ e ∈ entries, e.snd.Plain) (ha : a ∈ assignments entries) :
    ∃ line, (Statement.assign a).Spelling line := by
  have ⟨(key, value), hm, he⟩ := List.mem_map.mp ha
  have ⟨text, ht⟩ := (h _ hm).exists_text
  have ⟨keys, hk⟩ := exists_path [] key
  have hb : ∀ c ∈ [' '], Blank c := by simp [Blank]
  exact he ▸ ⟨_, .assign hk (by decide) ht hb hb⟩

structure Outline.Plain (o : Outline) : Prop where
  paths   : ∀ b ∈ o.blocks, b.path.length < depthLimit
  start   : ∀ e ∈ o.start, e.snd.Plain
  entries : ∀ b ∈ o.blocks, ∀ e ∈ b.entries, e.snd.Plain

theorem Outline.Plain.exists_text {o : Outline} (h : o.Plain) :
    ∃ text, Lines o.statements text := by
  refine exists_lines fun s hs => ?_
  rcases List.mem_append.mp hs with hs | hs
  · have ⟨a, ha, he⟩ := List.mem_map.mp hs
    exact he ▸ exists_assignment h.start ha
  · have ⟨b, hb, hs⟩ := List.mem_flatMap.mp hs
    rcases List.mem_cons.mp hs with rfl | hs
    · have ⟨keys, hk⟩ := exists_path b.path b.key
      exact ⟨_, .header hk (h.paths b hb)⟩
    · have ⟨a, ha, he⟩ := List.mem_map.mp hs
      exact he ▸ exists_assignment (h.entries b hb) ha

end SoapBindings.Toml

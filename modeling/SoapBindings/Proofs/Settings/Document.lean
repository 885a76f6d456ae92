import SoapBindings.Proofs.Settings
import SoapBindings.Proofs.Toml.Writing
-- Documents that hold settings. Whatever the keys and strings of the settings are, they are read
-- back from every text of such a document.

namespace SoapBindings
namespace Settings

open Toml (Value Block Outline)

variable {s : Settings}

def strings (l : List (String × String)) : List (String × Value) :=
  l.map fun (key, value) => (key, .string value)

section Maps

variable {α : Type} {readValue : Value → Read α} {m : StringMap α}

-- The entries that are read are those of the map, so they make the map.
theorem mapM_read {entries : List (String × Value)}
    (h : ∀ e ∈ entries, ∃ a, readValue e.snd = .ok a ∧ m.find? e.fst = some a) :
    ∃ pairs, entries.mapM (fun (key, value) => do return (key, ← readValue value)) = .ok pairs ∧
      pairs.map Prod.fst = entries.map Prod.fst ∧ pairs ⊆ m.entries := by
  induction entries
  case nil => exact ⟨[], rfl, rfl, List.nil_subset _⟩
  case cons e entries hi =>
    have ⟨a, ha, hf⟩ := h e List.mem_cons_self
    have ⟨pairs, hp, hk, hs⟩ := hi fun e he => h e (.tail _ he)
    refine ⟨(e.fst, a) :: pairs, ?_, congrArg _ hk, ?_⟩
    · simp only [List.mapM_cons, ha, hp]
      rfl
    · exact List.cons_subset.mpr ⟨StringMap.mem_entries_iff.mpr hf, hs⟩

theorem readMap_eq_ok {entries : List (String × Value)}
    (hk : (entries.map Prod.fst).Perm m.keys)
    (hv : ∀ e ∈ entries, ∃ a, readValue e.snd = .ok a ∧ m.find? e.fst = some a) :
    readMap readValue (.table entries) = .ok m := by
  have ⟨pairs, hp, he, hs⟩ := mapM_read hv
  have hn : pairs.Nodup := .of_map Prod.fst (he ▸ hk.nodup_iff.mpr m.keys_nodup)
  have hl : m.entries.length ≤ pairs.length := by
    have h := congrArg List.length he
    have h' := hk.length_eq
    simp only [List.length_map, StringMap.keys] at h h'
    omega
  have hm : StringMap.ofList pairs = m :=
    StringMap.ofList_of_perm ((hn.subperm hs).perm_of_length_le hl)
  rw [readMap]
  simp only [Value.entries?, hp]
  exact congrArg _ hm

theorem readMap_strings {m : StringMap String} {l : List (String × String)}
    (h : l.Perm m.entries) : readMap readString (.table (strings l)) = .ok m := by
  refine readMap_eq_ok ?_ fun e he => ?_
  · rw [strings, List.map_map]
    exact h.map Prod.fst
  · have ⟨(key, value), hm, hv⟩ := List.mem_map.mp he
    exact ⟨value, hv ▸ rfl, hv ▸ StringMap.mem_entries_iff.mp (h.mem_iff.mp hm)⟩

end Maps

inductive Field where
  | namespaces
  | base
  | endpoints
  | unwrap

-- An entry of a document with what it says about a field of the settings.
inductive Says (s : Settings) : Field → String × Value → Prop
  | namespaces {v} (h : readMap readString v = .ok s.namespaces) :
    Says s .namespaces ("namespaces", v)
  | base {v} (h : readMap readString v = .ok s.base) : Says s .base ("base_ns", v)
  | endpoints {v} (h : readMap (readMap readString) v = .ok s.endpoints) :
    Says s .endpoints ("endpoints", v)
  | unwrap : Says s .unwrap ("unwrap", .boolean s.unwrap)

namespace Draft

variable {d : Draft} {f g : Field} {entry : String × Value} {entries : List (String × Value)}

def Has (d : Draft) (s : Settings) : Field → Prop
  | .namespaces => d.namespaces = some s.namespaces
  | .base       => d.base = s.base
  | .endpoints  => d.endpoints = s.endpoints
  | .unwrap     => d.unwrap = s.unwrap

def fill (d : Draft) (s : Settings) : Field → Draft
  | .namespaces => { d with namespaces := some s.namespaces }
  | .base       => { d with base := s.base }
  | .endpoints  => { d with endpoints := s.endpoints }
  | .unwrap     => { d with unwrap := s.unwrap }

theorem has_fill (d : Draft) (s : Settings) (f : Field) : (d.fill s f).Has s f := by
  cases f <;> rfl

theorem Has.fill (h : d.Has s g) (f : Field) : (d.fill s f).Has s g := by
  cases f <;> cases g <;> first | exact h | rfl

theorem read_eq_fill (d : Draft) (h : Says s f entry) :
    d.read entry.fst entry.snd = .ok (d.fill s f) := by
  cases h
  case namespaces h => simp only [Draft.read, if_true, h]; rfl
  case base h       => simp only [Draft.read, h]; rfl
  case endpoints h  => simp only [Draft.read, h]; rfl
  case unwrap       => rfl

-- What one entry has filled in no other one changes.
theorem foldlM_read (h : ∀ entry ∈ entries, ∃ f, Says s f entry) (d : Draft) :
    ∃ d', entries.foldlM (fun (d : Draft) (key, value) => d.read key value) d = .ok d' ∧
      ∀ f, (d.Has s f ∨ ∃ entry ∈ entries, Says s f entry) → d'.Has s f := by
  induction entries generalizing d
  case nil => exact ⟨d, rfl, fun f hf => hf.elim id fun ⟨_, hm, _⟩ => nomatch hm⟩
  case cons entry entries hi =>
    have ⟨f, hf⟩ := h entry List.mem_cons_self
    have hr := d.read_eq_fill hf
    have ⟨d', hd, hh⟩ := hi (fun e he => h e (.tail _ he)) (d.fill s f)
    refine ⟨d', ?_, fun g hg => hh g ?_⟩
    · simp only [List.foldlM_cons, hr]
      exact hd
    · rcases hg with hg | ⟨e, he, hg⟩
      · exact .inl (hg.fill f)
      · rcases List.mem_cons.mp he with rfl | he
        · have hfg : d.fill s f = d.fill s g := Except.ok.inj (hr.symm.trans (d.read_eq_fill hg))
          exact .inl (hfg ▸ d.has_fill s g)
        · exact .inr ⟨e, he, hg⟩

theorem complete_of_has (h : ∀ f, d.Has s f) : d.complete = .ok s := by
  have hn : d.namespaces = some s.namespaces := h .namespaces
  have hb : d.base = s.base := h .base
  have he : d.endpoints = s.endpoints := h .endpoints
  have hu : d.unwrap = s.unwrap := h .unwrap
  rw [complete, hn, hb, he, hu]
  rfl

end Draft

-- Whatever is not said has to be the default.
theorem ofEntries_eq_ok {entries : List (String × Value)}
    (h : ∀ entry ∈ entries, ∃ f, Says s f entry)
    (hd : ∀ f, Draft.Has {} s f ∨ ∃ entry ∈ entries, Says s f entry) :
    ofEntries entries = .ok s := by
  have ⟨d, hf, hh⟩ := Draft.foldlM_read h {}
  rw [ofEntries, hf]
  exact Draft.complete_of_has fun f => hh f (hd f)

namespace Enumeration

-- The tables of the document itself.
def outside (e : s.Enumeration) (hasBase : Bool) : List Block :=
  { path := [], key := "namespaces", entries := strings e.namespaces } ::
    if hasBase then [{ path := [], key := "base_ns", entries := strings e.base }] else []

-- A table for each service, within the one table of the endpoints.
def inside (e : s.Enumeration) : List Block :=
  e.endpoints.map fun (service, ports) =>
    { path := ["endpoints"], key := service, entries := strings ports }

end Enumeration

-- A document for settings. The maps list their entries in any order, the tables stand in any order,
-- and what the settings do not need may be left out.
structure Document (s : Settings) where
  maps        : s.Enumeration
  hasUnwrap   : Bool
  hasBase     : Bool
  tables      : List Block
  unwrap_eq   : hasUnwrap = false → s.unwrap = false
  base_eq     : hasBase = false → s.base = ∅
  tables_perm : tables.Perm (maps.outside hasBase ++ maps.inside)

namespace Document

def outline (d : s.Document) : Outline where
  start  := if d.hasUnwrap then [("unwrap", .boolean s.unwrap)] else []
  blocks := d.tables

end Document

namespace Enumeration

variable {e : s.Enumeration} {hasBase : Bool} {b : Block}

theorem mem_outside_iff : b ∈ e.outside hasBase ↔
    b = { path := [], key := "namespaces", entries := strings e.namespaces } ∨
    hasBase ∧ b = { path := [], key := "base_ns", entries := strings e.base } := by
  cases hasBase <;> simp [outside]

theorem path_outside (h : b ∈ e.outside hasBase) : b.path = [] := by
  rcases mem_outside_iff.mp h with rfl | ⟨_, rfl⟩ <;> rfl

theorem path_inside (h : b ∈ e.inside) : b.path = ["endpoints"] := by
  have ⟨_, _, hb⟩ := List.mem_map.mp h
  exact hb ▸ rfl

theorem says_outside (h : b ∈ e.outside hasBase) : ∃ f, Says s f (b.key, .table b.entries) := by
  rcases mem_outside_iff.mp h with rfl | ⟨_, rfl⟩
  · exact ⟨_, .namespaces (readMap_strings e.namespaces_perm)⟩
  · exact ⟨_, .base (readMap_strings e.base_perm)⟩

-- The tables have the entries of maps.
theorem entries_eq (h : b ∈ e.outside hasBase ++ e.inside) :
    ∃ (m : StringMap String) (l : _), b.entries = strings l ∧ l.Perm m.entries := by
  rcases List.mem_append.mp h with h | h
  · rcases mem_outside_iff.mp h with rfl | ⟨_, rfl⟩
    · exact ⟨_, _, rfl, e.namespaces_perm⟩
    · exact ⟨_, _, rfl, e.base_perm⟩
  · have ⟨entry, hm, hb⟩ := List.mem_map.mp h
    have ⟨ports, _, hp⟩ := e.ports_perm entry hm
    exact ⟨ports, entry.snd, hb ▸ rfl, hp⟩

theorem nodup_of_mem (h : b ∈ e.outside hasBase ++ e.inside) :
    (b.entries.map Prod.fst).Nodup := by
  have ⟨m, l, hb, hp⟩ := entries_eq h
  rw [hb, strings, List.map_map]
  exact (hp.map Prod.fst).nodup_iff.mpr m.keys_nodup

theorem plain_of_mem (h : b ∈ e.outside hasBase ++ e.inside) :
    ∀ entry ∈ b.entries, entry.snd.Plain := by
  have ⟨m, l, hb, _⟩ := entries_eq h
  intro entry he
  rw [hb] at he
  have ⟨_, _, hv⟩ := List.mem_map.mp he
  exact hv ▸ .string _

theorem filter_outside (e : s.Enumeration) (hasBase : Bool) :
    (e.outside hasBase ++ e.inside).filter (·.path = []) = e.outside hasBase := by
  have ho : (e.outside hasBase).filter (·.path = []) = e.outside hasBase :=
    List.filter_eq_self.mpr fun b hb => by simp [path_outside hb]
  have hi : e.inside.filter (·.path = []) = [] :=
    List.filter_eq_nil_iff.mpr fun b hb => by simp [path_inside hb]
  rw [List.filter_append, ho, hi, List.append_nil]

theorem filter_inside (e : s.Enumeration) (hasBase : Bool) :
    (e.outside hasBase ++ e.inside).filter (·.path = ["endpoints"]) = e.inside := by
  have ho : (e.outside hasBase).filter (·.path = ["endpoints"]) = [] :=
    List.filter_eq_nil_iff.mpr fun b hb => by simp [path_outside hb]
  have hi : e.inside.filter (·.path = ["endpoints"]) = e.inside :=
    List.filter_eq_self.mpr fun b hb => by simp [path_inside hb]
  rw [List.filter_append, ho, hi, List.nil_append]

end Enumeration

namespace Document

open Toml (Item tablesAt)

variable {b : Block}

theorem filter_nil (d : s.Document) :
    (d.tables.filter (·.path = [])).Perm (d.maps.outside d.hasBase) :=
  d.maps.filter_outside d.hasBase ▸ d.tables_perm.filter _

theorem filter_endpoints (d : s.Document) :
    (d.tables.filter (·.path = ["endpoints"])).Perm d.maps.inside :=
  d.maps.filter_inside d.hasBase ▸ d.tables_perm.filter _

theorem keys_outside (d : s.Document) : (tablesAt [] d.tables).keys.Perm
    ("namespaces" :: if d.hasBase then ["base_ns"] else []) := by
  have hp := d.filter_nil.map Block.key
  rw [Toml.Table.keys, tablesAt, List.map_map]
  refine hp.trans (.of_eq ?_)
  rw [Enumeration.outside]
  split <;> rfl

theorem keys_inside (d : s.Document) :
    (tablesAt ["endpoints"] d.tables).keys.Perm s.endpoints.keys := by
  have hp := d.filter_endpoints.map Block.key
  rw [Enumeration.inside, List.map_map] at hp
  rw [Toml.Table.keys, tablesAt, List.map_map]
  exact hp.trans d.maps.services_perm

theorem distinct (d : s.Document) : d.outline.Distinct "endpoints" where
  paths b hb   := by
    have hm := d.tables_perm.mem_iff.mp hb
    exact (List.mem_append.mp hm).imp Enumeration.path_outside Enumeration.path_inside
  entries b hb := Enumeration.nodup_of_mem (d.tables_perm.mem_iff.mp hb)
  outside      := by
    have hs : (Toml.leaves d.outline.start).keys = if d.hasUnwrap then ["unwrap"] else [] := by
      rw [outline]
      cases d.hasUnwrap <;> rfl
    rw [Toml.Table.keys_append, hs]
    refine ((d.keys_outside.append_left _).cons "endpoints").nodup_iff.mpr ?_
    cases d.hasUnwrap <;> cases d.hasBase <;> decide
  inside       := d.keys_inside.nodup_iff.mpr s.endpoints.keys_nodup

theorem says_endpoints (d : s.Document) :
    Says s .endpoints ("endpoints", .table (Item.entries (tablesAt ["endpoints"] d.tables))) := by
  refine .endpoints (readMap_eq_ok (Toml.keys_entries _ ▸ d.keys_inside) fun e he => ?_)
  rw [Toml.entries_tablesAt] at he
  have ⟨b, hb, heq⟩ := List.mem_map.mp he
  have ⟨entry, hm, hbe⟩ := List.mem_map.mp (d.filter_endpoints.mem_iff.mp hb)
  have ⟨ports, hf, hp⟩ := d.maps.ports_perm entry hm
  subst heq hbe
  exact ⟨ports, readMap_strings hp, hf⟩

variable {entry : String × Value}

theorem says_of_mem (d : s.Document) (h : entry ∈ Item.entries (d.outline.root "endpoints")) :
    ∃ f, Says s f entry := by
  rcases Toml.mem_entries_root_iff.mp h with ⟨_, rfl⟩ | hs | ⟨b, hb, hp, rfl⟩
  · exact ⟨_, d.says_endpoints⟩
  · rw [outline] at hs
    split at hs
    · exact ⟨.unwrap, List.mem_singleton.mp hs ▸ Says.unwrap⟩
    · simp at hs
  · have hm : b ∈ d.tables.filter (·.path = []) := List.mem_filter.mpr ⟨hb, by simpa using hp⟩
    exact Enumeration.says_outside (d.filter_nil.mem_iff.mp hm)

theorem said_of_mem_outside (d : s.Document) (h : b ∈ d.maps.outside d.hasBase) :
    (b.key, .table b.entries) ∈ Item.entries (d.outline.root "endpoints") :=
  Toml.mem_entries_root_iff.mpr (.inr (.inr ⟨b,
    d.tables_perm.mem_iff.mpr (List.mem_append_left _ h), Enumeration.path_outside h, rfl⟩))

-- What is left out is as in a draft of nothing.
theorem said_or_default (d : s.Document) (f : Field) : Draft.Has {} s f ∨
    ∃ entry ∈ Item.entries (d.outline.root "endpoints"), Says s f entry := by
  cases f
  case namespaces =>
    exact .inr ⟨_, d.said_of_mem_outside (Enumeration.mem_outside_iff.mpr (.inl rfl)),
      .namespaces (readMap_strings d.maps.namespaces_perm)⟩
  case base =>
    cases hb : d.hasBase
    case false => exact .inl (d.base_eq hb).symm
    case true  =>
      exact .inr ⟨_, d.said_of_mem_outside (Enumeration.mem_outside_iff.mpr (.inr ⟨hb, rfl⟩)),
        .base (readMap_strings d.maps.base_perm)⟩
  case endpoints =>
    by_cases ht : tablesAt ["endpoints"] d.tables = []
    case pos =>
      have hk : s.endpoints.keys = [] := by
        have hp := d.keys_inside
        rw [ht] at hp
        exact hp.nil_eq.symm
      exact .inl (StringMap.ext (List.map_eq_nil_iff.mp hk).symm)
    case neg => exact .inr ⟨_, Toml.mem_entries_root_iff.mpr (.inl ⟨ht, rfl⟩), d.says_endpoints⟩
  case unwrap =>
    cases hu : d.hasUnwrap
    case false => exact .inl (d.unwrap_eq hu).symm
    case true  =>
      exact .inr ⟨_, Toml.mem_entries_root_iff.mpr (.inr (.inl (by simp [outline, hu]))), .unwrap⟩

theorem plain (d : s.Document) : d.outline.Plain where
  paths b hb   := by
    rcases d.distinct.paths b hb with h | h <;> rw [h] <;> decide
  start e he   := by
    rw [outline] at he
    split at he
    · exact List.mem_singleton.mp he ▸ .boolean _
    · simp at he
  entries b hb := Enumeration.plain_of_mem (d.tables_perm.mem_iff.mp hb)

-- The texts of the document, which differ in blanks, empty lines, comments and escapes.
def Spelling (d : s.Document) (text : String) : Prop :=
  Toml.Lines d.outline.statements text.toList

theorem parse_spelled (d : s.Document) {text : String} (h : d.Spelling text) :
    Settings.parse text = .ok s := by
  have ⟨root, hr, hp⟩ := Outline.ofStatements? d.distinct
  have hm {entry : String × Value} : entry ∈ Item.entries root ↔
      entry ∈ Item.entries (d.outline.root "endpoints") := (Toml.entries_perm hp).mem_iff
  rw [Settings.parse, Toml.parse?_lines h hr]
  refine ofEntries_eq_ok (fun entry he => d.says_of_mem (hm.mp he)) fun f => ?_
  exact (d.said_or_default f).imp id fun ⟨entry, he, hs⟩ => ⟨entry, hm.mpr he, hs⟩

end Document

-- Settings of all strings have documents, and each text of them is read as these settings.
theorem parse_document {s : Settings} (d : s.Document) :
    (∃ text, d.Spelling text) ∧ ∀ text, d.Spelling text → Settings.parse text = .ok s := by
  refine ⟨?_, fun text h => d.parse_spelled h⟩
  have ⟨text, h⟩ := d.plain.exists_text
  exact ⟨.ofList text, by rwa [Document.Spelling, String.toList_ofList]⟩

-- A service without a name and without ports, and a key of characters that mark the parts of
-- documents.
def quaint : Settings where
  namespaces := .ofList [("x.\"]#\n", "")]
  endpoints  := .ofList [("", ∅)]

def quaintDocument : quaint.Document where
  maps        := quaint.ascending
  hasUnwrap   := false
  hasBase     := false
  tables      := quaint.ascending.inside ++ quaint.ascending.outside false
  unwrap_eq _ := rfl
  base_eq _   := rfl
  tables_perm := List.perm_append_comm

def quaintText : String :=
  "[endpoints.\"\"]\n\n[namespaces] # All of them\n\"x.\\\"]#\\u000a\" = \"\"\n"

theorem quaintDocument_spelling : quaintDocument.Spelling quaintText := by
  have hb : ∀ c ∈ [' '], Toml.Blank c := by simp [Toml.Blank]
  have hc : Toml.Comment ('#' :: " All of them".toList) := .of_all (by decide)
  have he := Toml.Key.spelling_of_all (by decide : "endpoints" ≠ "") (by decide)
  have hn := Toml.Key.spelling_of_all (by decide : "namespaces" ≠ "") (by decide)
  have hq (s : String) : Toml.StringSpelling s (Toml.quote s) := Toml.quote_spells s
  have hl : Toml.Ending ['\n'] := .intro (List.forall_mem_nil _) .none .lineFeed
  have hi := Toml.Statement.Spelling.header
    (.dot he (.last (.quoted (hq "")))) (by decide)
  have ho := Toml.Statement.Spelling.header (.last hn) (by decide)
  have ha := Toml.Statement.Spelling.assign
    (.last (.quoted (hq "x.\"]#\n"))) (by decide) (.string (hq "")) hb hb
  have h := Toml.Lines.statement hi hl
    (.idle hl (.statement ho (.intro hb hc .lineFeed) (.statement ha hl .nil)))
  exact h

theorem parse_document_quaint :
    quaintDocument.Spelling quaintText ∧ Settings.parse quaintText = .ok quaint :=
  ⟨quaintDocument_spelling, (parse_document quaintDocument).right _ quaintDocument_spelling⟩

end Settings
end SoapBindings

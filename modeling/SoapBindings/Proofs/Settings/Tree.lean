import SoapBindings.Proofs.Except
import SoapBindings.Proofs.Settings.Document
import SoapBindings.Proofs.Toml.Distinct
-- Settings as the tables of a document hold them. Which documents hold settings is up to the kinds
-- of their values alone, and the maps of the settings have the entries of the tables.

namespace SoapBindings

open Toml (Value)

namespace Toml.Value

def IsString (v : Value) : Prop :=
  ∃ s, v = .string s

def IsBoolean (v : Value) : Prop :=
  ∃ b, v = .boolean b

-- A table all of whose values are of a kind.
def TableOf (kind : Value → Prop) (v : Value) : Prop :=
  ∃ entries, v = .table entries ∧ ∀ e ∈ entries, kind e.snd

@[simp]
theorem tableOf_table_iff {kind : Value → Prop} {entries : List (String × Value)} :
    (Value.table entries).TableOf kind ↔ ∀ e ∈ entries, kind e.snd := by
  constructor
  case mp  => exact fun ⟨_, he, h⟩ => Value.table.inj he ▸ h
  case mpr => exact fun h => ⟨entries, rfl, h⟩

-- A table with the entries of a map, each value of which means the one in the map.
def MapOf {α : Type} (means : Value → α → Prop) (v : Value) (m : StringMap α) : Prop :=
  ∃ entries, v = .table entries ∧ (∀ e ∈ entries, ∃ a, means e.snd a) ∧
    ∀ key a, m.find? key = some a ↔ ∃ w, (key, w) ∈ entries ∧ means w a

end Toml.Value

namespace Settings

-- A reader of values of a kind gives what they mean.
structure Reads {α : Type} (read : Value → Read α) (kind : Value → Prop)
    (means : Value → α → Prop) : Prop where
  ok_iff     : ∀ {v a}, v.Distinct → v.Undated → (read v = .ok a ↔ means v a)
  exists_iff : ∀ {v}, v.Undated → ((∃ a, read v = .ok a) ↔ kind v)

theorem reads_string : Reads readString Value.IsString fun v s => v = .string s where
  ok_iff {v a} _ _  := by cases v <;> simp [readString]
  exists_iff {v} _  := by cases v <;> simp [readString, Value.IsString]

theorem reads_boolean : Reads readBoolean Value.IsBoolean fun v b => v = .boolean b where
  ok_iff {v a} _ _  := by cases v <;> simp [readBoolean]
  exists_iff {v} _  := by cases v <;> simp [readBoolean, Value.IsBoolean]

section Maps

variable {α : Type} {read : Value → Read α} {kind : Value → Prop} {means : Value → α → Prop}
variable {v : Value} {entries : List (String × Value)} {m : StringMap α}

theorem readMap_eq_ok_iff (hu : v.Undated) :
    readMap read v = .ok m ↔ ∃ entries, v = .table entries ∧
      ∃ pairs, entries.mapM (fun (key, value) => do return (key, ← read value)) = .ok pairs ∧
        .ofList pairs = m := by
  rw [readMap]
  cases v
  case dateTime d => exact absurd .here (hu d)
  case table      => simp [Value.entries?, Except.map_eq_ok_iff]
  all_goals simp [Value.entries?]

theorem mapM_entries_eq_ok_iff {pairs : List (String × α)} :
    entries.mapM (fun (key, value) => do return (key, ← read value)) = .ok pairs ↔
      List.Forall₂ (fun e p => p.fst = e.fst ∧ read e.snd = .ok p.snd) entries pairs := by
  have he (e : String × Value) (p : String × α) :
      (match e with | (key, value) => do return (key, ← read value)) = .ok p ↔
        p.fst = e.fst ∧ read e.snd = .ok p.snd :=
    Except.pair_eq_ok_iff
  simp only [Except.mapM_eq_ok_iff, he]

-- The map has what is read of the entries of the table, and nothing else.
theorem find?_of_forall₂ {pairs : List (String × α)} (hn : (entries.map Prod.fst).Nodup)
    (h : List.Forall₂ (fun e p => p.fst = e.fst ∧ read e.snd = .ok p.snd) entries pairs)
    {key : String} {a : α} : (StringMap.ofList pairs).find? key = some a ↔
      ∃ w, (key, w) ∈ entries ∧ read w = .ok a := by
  have hk : pairs.map Prod.fst = entries.map Prod.fst := by
    clear hn
    induction h
    case nil          => rfl
    case cons hp _ hi => rw [List.map_cons, List.map_cons, hp.left, hi]
  rw [StringMap.find?_ofList_iff (hk ▸ hn)]
  clear hn hk
  induction h
  case nil => simp
  case cons e p _ _ hp _ hi =>
    have he : (key, a) = p ↔ ∃ w, (key, w) = e ∧ read w = .ok a := by
      constructor
      case mp =>
        intro ha
        subst ha
        exact ⟨e.snd, Prod.ext hp.left rfl, hp.right⟩
      case mpr =>
        intro ⟨w, hw, ha⟩
        subst hw
        exact Prod.ext hp.left.symm (Except.ok.inj (ha.symm.trans hp.right))
    simp only [List.mem_cons, he, hi, or_and_right, exists_or]

theorem exists_readMap_iff (h : Reads read kind means) (hu : v.Undated) :
    (∃ m, readMap read v = .ok m) ↔ v.TableOf kind := by
  simp only [readMap_eq_ok_iff hu]
  constructor
  case mp =>
    intro ⟨m, entries, hv, pairs, hp, _⟩
    subst hv
    refine Value.tableOf_table_iff.mpr fun e he => (h.exists_iff (hu.entry he)).mp ?_
    have ⟨p, hp⟩ := Except.exists_mapM_eq_ok_iff.mp ⟨pairs, hp⟩ e he
    exact ⟨p.snd, (Except.pair_eq_ok_iff.mp hp).right⟩
  case mpr =>
    intro ⟨entries, hv, he⟩
    subst hv
    have ⟨pairs, hp⟩ : ∃ pairs, entries.mapM (fun (key, value) => do
        return (key, ← read value)) = .ok pairs := by
      refine Except.exists_mapM_eq_ok_iff.mpr fun e hm => ?_
      have ⟨a, ha⟩ := (h.exists_iff (hu.entry hm)).mpr (he e hm)
      exact ⟨(e.fst, a), Except.pair_eq_ok_iff.mpr ⟨rfl, ha⟩⟩
    exact ⟨_, entries, rfl, pairs, hp, rfl⟩

theorem mapOf_of_readMap (h : Reads read kind means) (hd : v.Distinct) (hu : v.Undated)
    (hr : readMap read v = .ok m) : v.MapOf means m := by
  have ⟨entries, hv, pairs, hp, hm⟩ := (readMap_eq_ok_iff hu).mp hr
  subst hv hm
  have ⟨hn, hd⟩ := Value.distinct_table_iff.mp hd
  have hi {e : String × Value} {a : α} (he : e ∈ entries) : read e.snd = .ok a ↔ means e.snd a :=
    h.ok_iff (hd e he) (hu.entry he)
  refine ⟨entries, rfl, fun e he => ?means, fun key a => ?find⟩
  case means =>
    have ⟨p, hp⟩ := Except.exists_mapM_eq_ok_iff.mp ⟨pairs, hp⟩ e he
    exact ⟨p.snd, (hi he).mp (Except.pair_eq_ok_iff.mp hp).right⟩
  case find =>
    rw [find?_of_forall₂ hn (mapM_entries_eq_ok_iff.mp hp)]
    exact exists_congr fun w => and_congr_right fun hw => hi hw

theorem mapOf_deterministic {m₁ m₂ : StringMap α} (h₁ : v.MapOf means m₁)
    (h₂ : v.MapOf means m₂) : m₁ = m₂ := by
  have ⟨entries, hv, _, hf₁⟩ := h₁
  have ⟨_, he, _, hf₂⟩ := h₂
  subst hv
  cases he
  refine StringMap.ext_find? fun key => Option.ext fun a => ?_
  rw [hf₁, hf₂]

theorem Reads.map (h : Reads read kind means) :
    Reads (readMap read) (Value.TableOf kind) (Value.MapOf means) where
  exists_iff := exists_readMap_iff h
  ok_iff {v m} hd hu := by
    constructor
    case mp  => exact mapOf_of_readMap h hd hu
    case mpr =>
      intro hm
      have ⟨entries, hv, he, _⟩ := hm
      have hk : v.TableOf kind := by
        subst hv
        refine Value.tableOf_table_iff.mpr fun e hw => (h.exists_iff (hu.entry hw)).mp ?_
        have ⟨a, ha⟩ := he e hw
        exact ⟨a, (h.ok_iff ((Value.distinct_table_iff.mp hd).right e hw) (hu.entry hw)).mpr ha⟩
      have ⟨m', hr⟩ := (exists_readMap_iff h hu).mpr hk
      exact mapOf_deterministic hm (mapOf_of_readMap h hd hu hr) ▸ hr

end Maps

def Field.key : Field → String
  | .namespaces => "namespaces"
  | .base       => "base_ns"
  | .endpoints  => "endpoints"
  | .unwrap     => "unwrap"

def settingKeys : List String :=
  ["namespaces", "base_ns", "endpoints", "unwrap"]

theorem mem_settingKeys_iff {key : String} : key ∈ settingKeys ↔ ∃ f : Field, key = f.key := by
  constructor
  case mp =>
    intro h
    simp only [settingKeys, List.mem_cons, List.not_mem_nil, or_false] at h
    obtain h | h | h | h := h
    · exact ⟨.namespaces, h⟩
    · exact ⟨.base, h⟩
    · exact ⟨.endpoints, h⟩
    · exact ⟨.unwrap, h⟩
  case mpr =>
    intro ⟨f, h⟩
    cases f <;> simp [h, Field.key, settingKeys]

-- The settings in a document are of the kinds that are asked for, and the namespaces are there.
structure Fits (entries : List (String × Value)) : Prop where
  present    : "namespaces" ∈ entries.map Prod.fst
  namespaces : ∀ v, ("namespaces", v) ∈ entries → v.TableOf Value.IsString
  base       : ∀ v, ("base_ns", v) ∈ entries → v.TableOf Value.IsString
  endpoints  : ∀ v, ("endpoints", v) ∈ entries → v.TableOf (Value.TableOf Value.IsString)
  unwrap     : ∀ v, ("unwrap", v) ∈ entries → v.IsBoolean

-- What a document gives under a key, or a default where it gives nothing.
structure Given {α : Type} (entries : List (String × Value)) (key : String)
    (means : Value → α → Prop) (default : α) (a : α) : Prop where
  means   : ∀ v, (key, v) ∈ entries → means v a
  default : key ∉ entries.map Prod.fst → a = default

-- The settings are those of a document.
structure Holds (entries : List (String × Value)) (s : Settings) : Prop where
  namespaces : ∃ v, ("namespaces", v) ∈ entries ∧ v.MapOf (· = .string ·) s.namespaces
  base       : Given entries "base_ns" (Value.MapOf (· = .string ·)) ∅ s.base
  endpoints  : Given entries "endpoints" (Value.MapOf (Value.MapOf (· = .string ·))) ∅ s.endpoints
  unwrap     : Given entries "unwrap" (· = .boolean ·) false s.unwrap

section Entries

variable {entries : List (String × Value)} {d d' : Draft}

-- Every entry that stands in front of a success has been read.
theorem exists_read_of_mem
    (h : entries.foldlM (fun (d : Draft) (key, value) => d.read key value) d = .ok d') :
    ∀ e ∈ entries, ∃ d₁ d₂ : Draft, d₁.read e.fst e.snd = .ok d₂ := by
  induction entries generalizing d
  case nil => simp
  case cons e entries hi =>
    rw [List.foldlM_cons, Except.bind_eq_ok_iff] at h
    have ⟨d₁, h₁, h⟩ := h
    exact List.forall_mem_cons.mpr ⟨⟨d, d₁, h₁⟩, hi h⟩

theorem read_ignored {key : String} (hk : key ∉ settingKeys) (d : Draft) (v : Value) :
    d.read key v = .ok d := by
  simp only [settingKeys, List.mem_cons, List.not_mem_nil, or_false, not_or] at hk
  rw [Draft.read, if_neg hk.left, if_neg hk.right.left, if_neg hk.right.right.left,
    if_neg hk.right.right.right]
  rfl

theorem foldlM_filter_settingKeys (entries : List (String × Value)) (d : Draft) :
    (entries.filter (·.fst ∈ settingKeys)).foldlM
        (fun (d : Draft) (key, value) => d.read key value) d =
      entries.foldlM (fun (d : Draft) (key, value) => d.read key value) d := by
  induction entries generalizing d
  case nil => rfl
  case cons e entries hi =>
    by_cases hk : e.fst ∈ settingKeys
    case pos => simp [hk, hi]
    case neg =>
      have hr : (match e with | (key, value) => d.read key value) = .ok d :=
        read_ignored hk d e.snd
      rw [List.filter_cons_of_neg (by simpa using hk), hi, List.foldlM_cons, hr]
      rfl

theorem ofEntries_filter (entries : List (String × Value)) :
    ofEntries (entries.filter (·.fst ∈ settingKeys)) = ofEntries entries := by
  rw [ofEntries, ofEntries, foldlM_filter_settingKeys]

-- The settings other than the namespaces are read without a look at these.
theorem namespaces_bind {α : Type} {x : Read α} {f : α → Draft}
    (h : (x >>= fun a => pure (f a)) = .ok d') (hf : ∀ a, (f a).namespaces = d.namespaces) :
    d'.namespaces = d.namespaces := by
  have ⟨a, _, he⟩ := Except.bind_eq_ok_iff.mp h
  cases he
  exact hf a

theorem namespaces_read {key : String} {v : Value} (hk : key ≠ "namespaces")
    (h : d.read key v = .ok d') : d'.namespaces = d.namespaces := by
  rw [Draft.read, if_neg hk] at h
  split at h
  case isTrue  => exact namespaces_bind h fun _ => rfl
  case isFalse =>
    split at h
    case isTrue  => exact namespaces_bind h fun _ => rfl
    case isFalse =>
      split at h
      case isTrue  => exact namespaces_bind h fun _ => rfl
      case isFalse => exact Except.ok.inj h ▸ rfl

theorem namespaces_foldlM (hk : "namespaces" ∉ entries.map Prod.fst)
    (h : entries.foldlM (fun (d : Draft) (key, value) => d.read key value) d = .ok d') :
    d'.namespaces = d.namespaces := by
  induction entries generalizing d
  case nil =>
    cases h
    rfl
  case cons e entries hi =>
    rw [List.map_cons, List.mem_cons, not_or] at hk
    rw [List.foldlM_cons, Except.bind_eq_ok_iff] at h
    have ⟨d₁, h₁, h⟩ := h
    rw [hi hk.right h, namespaces_read (Ne.symm hk.left) h₁]

theorem fits_of_ok {s : Settings} (hu : (Value.table entries).Undated)
    (h : ofEntries entries = .ok s) : Fits entries := by
  obtain ⟨d, hf, hc⟩ := Except.bind_eq_ok_iff.mp h
  have hr {key : String} {v : Value} (hm : (key, v) ∈ entries) :
      ∃ d₁ d₂ : Draft, d₁.read key v = .ok d₂ := exists_read_of_mem hf _ hm
  constructor
  case present =>
    by_contra hk
    rw [Draft.complete, namespaces_foldlM hk hf] at hc
    cases hc
  case namespaces =>
    intro v hm
    obtain ⟨d₁, d₂, h⟩ := hr hm
    rw [Draft.read, if_pos rfl] at h
    obtain ⟨m, hm', _⟩ := Except.bind_eq_ok_iff.mp h
    exact (exists_readMap_iff reads_string (hu.entry hm)).mp ⟨m, hm'⟩
  case base =>
    intro v hm
    obtain ⟨d₁, d₂, h⟩ := hr hm
    rw [Draft.read, if_neg (by decide), if_pos rfl] at h
    obtain ⟨m, hm', _⟩ := Except.bind_eq_ok_iff.mp h
    exact (exists_readMap_iff reads_string (hu.entry hm)).mp ⟨m, hm'⟩
  case endpoints =>
    intro v hm
    obtain ⟨d₁, d₂, h⟩ := hr hm
    rw [Draft.read, if_neg (by decide), if_neg (by decide), if_pos rfl] at h
    obtain ⟨m, hm', _⟩ := Except.bind_eq_ok_iff.mp h
    exact (exists_readMap_iff reads_string.map (hu.entry hm)).mp ⟨m, hm'⟩
  case unwrap =>
    intro v hm
    obtain ⟨d₁, d₂, h⟩ := hr hm
    rw [Draft.read, if_neg (by decide), if_neg (by decide), if_neg (by decide), if_pos rfl] at h
    obtain ⟨b, hb, _⟩ := Except.bind_eq_ok_iff.mp h
    exact (reads_boolean.exists_iff (hu.entry hm)).mp ⟨b, hb⟩

theorem exists_given {α : Type} {read : Value → Read α} {kind : Value → Prop}
    {means : Value → α → Prop} (hr : Reads read kind means) (hd : (Value.table entries).Distinct)
    (hu : (Value.table entries).Undated) {key : String} (hk : ∀ v, (key, v) ∈ entries → kind v)
    (default : α) : ∃ a, Given entries key means default a := by
  have ⟨hn, hv⟩ := Value.distinct_table_iff.mp hd
  by_cases hm : key ∈ entries.map Prod.fst
  case neg => exact ⟨default, fun v he => absurd (List.mem_map_of_mem he) hm, fun _ => rfl⟩
  case pos =>
    have ⟨(_, v), he, heq⟩ := List.mem_map.mp hm
    subst heq
    have ⟨a, ha⟩ := (hr.exists_iff (hu.entry he)).mpr (hk v he)
    refine ⟨a, fun w hw => ?_, fun h => absurd hm h⟩
    have hvw : w = v := congrArg Prod.snd (List.inj_on_of_nodup_map hn hw he rfl)
    exact hvw ▸ (hr.ok_iff (hv _ he) (hu.entry he)).mp ha

theorem exists_holds (hd : (Value.table entries).Distinct) (hu : (Value.table entries).Undated)
    (h : Fits entries) : ∃ s, Holds entries s := by
  have ⟨(_, v), hm, hk⟩ := List.mem_map.mp h.present
  subst hk
  have ⟨namespaces, hn⟩ := exists_given reads_string.map hd hu h.namespaces ∅
  have ⟨base, hb⟩ := exists_given reads_string.map hd hu h.base ∅
  have ⟨endpoints, he⟩ := exists_given reads_string.map.map hd hu h.endpoints ∅
  have ⟨unwrap, hw⟩ := exists_given reads_boolean hd hu h.unwrap false
  exact ⟨⟨namespaces, base, endpoints, unwrap⟩, ⟨v, hm, hn.means v hm⟩, hb, he, hw⟩

section Holding

variable {s : Settings} {f : Field}
variable (hd : (Value.table entries).Distinct) (hu : (Value.table entries).Undated)
include hd hu

theorem Holds.field (h : Holds entries s) {e : String × Value} (hm : e ∈ entries)
    (hk : e.fst = f.key) : Says s f e := by
  have ⟨hn, hd⟩ := Value.distinct_table_iff.mp hd
  have hd := hd e hm
  have hu := hu.entry hm
  cases e
  subst hk
  cases f
  case namespaces =>
    have ⟨w, hw, hs⟩ := h.namespaces
    have hv := congrArg Prod.snd (List.inj_on_of_nodup_map hn hm hw rfl)
    exact .namespaces ((reads_string.map.ok_iff hd hu).mpr (hv ▸ hs))
  case base      => exact .base ((reads_string.map.ok_iff hd hu).mpr (h.base.means _ hm))
  case endpoints =>
    exact .endpoints ((reads_string.map.map.ok_iff hd hu).mpr (h.endpoints.means _ hm))
  case unwrap    => exact h.unwrap.means _ hm ▸ Says.unwrap

omit hd hu in
theorem Holds.has (h : Holds entries s) (hk : f.key ∉ entries.map Prod.fst) :
    Draft.Has {} s f := by
  cases f
  case namespaces =>
    have ⟨_, hm, _⟩ := h.namespaces
    exact absurd (List.mem_map_of_mem hm) hk
  case base      => exact (h.base.default hk).symm
  case endpoints => exact (h.endpoints.default hk).symm
  case unwrap    => exact (h.unwrap.default hk).symm

theorem ofEntries_of_holds (h : Holds entries s) : ofEntries entries = .ok s := by
  rw [← ofEntries_filter]
  refine ofEntries_eq_ok (fun e he => ?fields) fun f => ?defaults
  case fields =>
    have ⟨hm, hk⟩ := List.mem_filter.mp he
    have ⟨f, hf⟩ := mem_settingKeys_iff.mp (of_decide_eq_true hk)
    exact ⟨f, h.field hd hu hm hf⟩
  case defaults =>
    by_cases hk : f.key ∈ entries.map Prod.fst
    case neg => exact .inl (h.has hk)
    case pos =>
      have ⟨e, hm, hf⟩ := List.mem_map.mp hk
      have hs : e ∈ entries.filter (·.fst ∈ settingKeys) :=
        List.mem_filter.mpr ⟨hm, decide_eq_true (mem_settingKeys_iff.mpr ⟨f, hf⟩)⟩
      exact .inr ⟨e, hs, h.field hd hu hm hf⟩

end Holding

end Entries

-- The tables of a document do not repeat a key. A document without dates holds settings if the
-- settings in it are of the right kinds, whatever else is in it, and the settings are those that it
-- holds.
theorem ofEntries_iff_fits (entries : List (String × Value)) :
    (∀ text, Toml.parse? text = some entries →
      (Value.table entries).Distinct ∧ parse text = ofEntries entries) ∧
    ((Value.table entries).Distinct → (Value.table entries).Undated →
      ((∃ s, ofEntries entries = .ok s) ↔ Fits entries) ∧
      (∀ s, ofEntries entries = .ok s → Holds entries s) ∧
      (¬Fits entries → ∃ e, ofEntries entries = .error e)) ∧
    ofEntries (entries.filter (·.fst ∈ settingKeys)) = ofEntries entries := by
  refine ⟨fun text ht => ⟨Toml.parse?_distinct ht, ?parsed⟩, fun hd hu => ?tree,
    ofEntries_filter entries⟩
  case parsed => rw [parse, ht]
  case tree =>
    have ho (h : Fits entries) : ∃ s, ofEntries entries = .ok s ∧ Holds entries s := by
      obtain ⟨s, hs⟩ := exists_holds hd hu h
      exact ⟨s, ofEntries_of_holds hd hu hs, hs⟩
    refine ⟨⟨?fits, fun h => ?ok⟩, fun s hs => ?holds, fun h => ?error⟩
    case fits =>
      rintro ⟨s, hs⟩
      exact fits_of_ok hu hs
    case ok =>
      obtain ⟨s, hs, _⟩ := ho h
      exact ⟨s, hs⟩
    case holds =>
      obtain ⟨s', hs', hh⟩ := ho (fits_of_ok hu hs)
      exact Except.ok.inj (hs.symm.trans hs') ▸ hh
    case error =>
      cases hr : ofEntries entries
      case ok s    => exact absurd (fits_of_ok hu hr) h
      case error e => exact ⟨e, rfl⟩

-- A document with a title, which is no setting, and a base namespace of no kind of classes.
def titled (port : Value) : List (String × Value) := [
  ("title", .integer 1),
  ("namespaces", .table [("urn:shop", .string "\\Shop")]),
  ("base_ns", .table [("other", .string "")]),
  ("endpoints", .table [("Depot", .table []), ("Shop", .table [("Soap", port)])])]

theorem ofEntries_iff_fits_titled :
    (∃ entries, Toml.parse? quaintText = some entries ∧ (Value.table entries).Distinct ∧
      parse quaintText = ofEntries entries) ∧
    (∃ s, ofEntries (titled (.string "http://localhost")) = .ok s ∧
      Holds (titled (.string "http://localhost")) s ∧ s.unwrap = false) ∧
    ∃ e, ofEntries (titled (.integer 80)) = .error e := by
  have hs (s : String) : (Value.string s).Distinct ∧ (Value.string s).Undated :=
    ⟨fun _ ho => (nomatch ho), fun _ ho => nomatch ho⟩
  have hn (n : Int) : (Value.integer n).Distinct ∧ (Value.integer n).Undated :=
    ⟨fun _ ho => (nomatch ho), fun _ ho => nomatch ho⟩
  have hd (port : Value) (hp : port.Distinct) : (Value.table (titled port)).Distinct := by
    simp [titled, Value.distinct_table_iff, hs, hn, hp]
  have hu (port : Value) (hp : port.Undated) : (Value.table (titled port)).Undated := by
    simp [titled, Value.undated_table_iff, hs, hn, hp]
  refine ⟨?parsed, ?ok, ?error⟩
  case parsed =>
    have ⟨root, hr, _⟩ := Toml.Outline.ofStatements? quaintDocument.distinct
    have ht := Toml.parse?_lines quaintDocument_spelling hr
    exact ⟨_, ht, (ofEntries_iff_fits _).left _ ht⟩
  case ok =>
    have hl := hs "http://localhost"
    have ⟨hf, hh, _⟩ := (ofEntries_iff_fits _).right.left (hd _ hl.left) (hu _ hl.right)
    have ⟨s, ho⟩ := hf.mpr {
      present    := by simp [titled]
      namespaces := by simp [titled, Value.IsString]
      base       := by simp [titled, Value.IsString]
      endpoints  := by simp [titled, Value.IsString]
      unwrap     := by simp [titled]
    }
    exact ⟨s, ho, hh s ho, (hh s ho).unwrap.default (by simp [titled])⟩
  case error =>
    have hl := hn 80
    have ⟨_, _, he⟩ := (ofEntries_iff_fits _).right.left (hd _ hl.left) (hu _ hl.right)
    refine he fun h => ?_
    have ht := h.endpoints _ (.tail _ (.tail _ (.tail _ (.head _))))
    simp [Value.IsString] at ht

end Settings
end SoapBindings

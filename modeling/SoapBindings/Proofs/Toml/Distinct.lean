import SoapBindings.Proofs.Toml.Sections
-- No table of a document has a key twice. The tables are kept that way while the statements are
-- read, one by one, and what is read as a value has it already.

namespace SoapBindings.Toml

namespace Value

-- What stands somewhere in a value, the value itself included.
inductive Occurs (v : Value) : Value → Prop
  | here : Occurs v v
  | item {w items} (hm : w ∈ items) (h : Occurs v w) : Occurs v (.array items)
  | entry {key w entries} (hm : (key, w) ∈ entries) (h : Occurs v w) : Occurs v (.table entries)

def Distinct (v : Value) : Prop :=
  ∀ entries, Occurs (.table entries) v → (entries.map Prod.fst).Nodup

def Undated (v : Value) : Prop :=
  ∀ d, ¬Occurs (.dateTime d) v

variable {items : List Value} {entries : List (String × Value)}

theorem distinct_array_iff : (Value.array items).Distinct ↔ ∀ v ∈ items, v.Distinct := by
  constructor
  case mp  => exact fun h v hm entries ho => h entries (.item hm ho)
  case mpr =>
    intro h entries ho
    cases ho
    case item ho hm => exact h _ hm entries ho

theorem distinct_table_iff :
    (Value.table entries).Distinct ↔
      (entries.map Prod.fst).Nodup ∧ ∀ e ∈ entries, e.snd.Distinct := by
  constructor
  case mp  => exact fun h => ⟨h entries .here, fun e hm inner ho => h inner (.entry hm ho)⟩
  case mpr =>
    intro ⟨hn, h⟩ inner ho
    cases ho
    case here        => exact hn
    case entry ho hm => exact h _ hm inner ho

theorem undated_table_iff : (Value.table entries).Undated ↔ ∀ e ∈ entries, e.snd.Undated := by
  constructor
  case mp  => exact fun h e hm d ho => h d (.entry hm ho)
  case mpr =>
    intro h d ho
    cases ho
    case entry ho hm => exact h _ hm d ho

theorem Undated.entry (h : (Value.table entries).Undated) {e : String × Value} (hm : e ∈ entries) :
    e.snd.Undated :=
  undated_table_iff.mp h e hm

end Value

theorem elements_eq_map (tables : List Table) :
    Item.elements tables = tables.map fun t => .table (Item.entries t) := by
  induction tables
  case nil         => rfl
  case cons _ _ hi => simp [Item.elements, hi]

namespace Table

def Distinct (t : Table) : Prop :=
  (Value.table (Item.entries t)).Distinct

variable {t t' : Table} {key : String} {i : Item}

theorem distinct_iff : t.Distinct ↔ t.keys.Nodup ∧ ∀ e ∈ t, e.snd.toValue.Distinct := by
  rw [Distinct, Value.distinct_table_iff, keys_entries, entries_eq_map, List.forall_mem_map]

theorem distinct_toValue_iff {origin : Origin} :
    (Item.table origin t).toValue.Distinct ↔ t.Distinct := by
  rw [Item.toValue, Distinct]

theorem distinct_toValue_tables_iff {tables : List Table} :
    (Item.tables tables).toValue.Distinct ↔ ∀ t ∈ tables, t.Distinct := by
  rw [Item.toValue, elements_eq_map, Value.distinct_array_iff]
  simp [Distinct]

theorem notMem_of_item?_eq_none (h : t.item? key = none) : key ∉ t.keys := by
  intro hm
  have ⟨e, he, hk⟩ := List.mem_map.mp hm
  exact bne_iff_ne.mp (List.lookup_eq_none_iff.mp h e he) hk.symm

theorem mem_of_item?_eq_some (h : t.item? key = some i) : (key, i) ∈ t := by
  have ⟨_, _, ht, _⟩ := List.lookup_eq_some_iff.mp h
  simp [ht]

theorem distinct_nil : Distinct [] :=
  distinct_iff.mpr ⟨List.nodup_nil, by simp⟩

namespace Distinct

theorem item (h : t.Distinct) (hi : t.item? key = some i) : i.toValue.Distinct :=
  (distinct_iff.mp h).right _ (mem_of_item?_eq_some hi)

theorem append (h : t.Distinct) (hk : key ∉ t.keys) (hi : i.toValue.Distinct) :
    Distinct (t ++ [(key, i)]) := by
  have ⟨hn, hv⟩ := distinct_iff.mp h
  refine distinct_iff.mpr ⟨?_, ?_⟩
  · rw [keys_append]
    exact List.nodup_append_comm.mp (List.nodup_cons.mpr ⟨hk, hn⟩)
  · intro e he
    cases List.mem_append.mp he
    case inl he => exact hv e he
    case inr he => exact List.mem_singleton.mp he ▸ hi

theorem replace (h : t.Distinct) (hi : i.toValue.Distinct) : (t.replace key i).Distinct := by
  obtain ⟨hn, hv⟩ := distinct_iff.mp h
  refine distinct_iff.mpr ⟨?_, ?_⟩
  · have hk : (t.replace key i).keys = t.keys := by
      rw [Table.replace, keys, List.map_map]
      refine List.map_congr_left fun e _ => ?_
      by_cases he : e.fst = key <;> simp [he]
    rwa [hk]
  · intro e he
    obtain ⟨e', hm, rfl⟩ := List.mem_map.mp he
    by_cases hk : e'.fst = key
    case pos => simpa [hk] using hi
    case neg => simpa [hk] using hv e' hm

theorem remove (h : t.Distinct) (key : String) : (t.remove key).Distinct := by
  have ⟨hn, hv⟩ := distinct_iff.mp h
  exact distinct_iff.mpr ⟨hn.sublist (List.filter_sublist.map _),
    fun e he => hv e (List.mem_of_mem_filter he)⟩

end Distinct

theorem notMem_keys_remove (t : Table) (key : String) : key ∉ (t.remove key).keys := by
  simp [remove, keys]

-- What a change makes of a table without a repeated key has no repeated key.
def Keeps (change : Table → Option Table) : Prop :=
  ∀ t t', t.Distinct → change t = some t' → t'.Distinct

variable {change : Table → Option Table}

theorem Keeps.changeLast (hc : Keeps change) {tables tables' : List Table}
    (ht : ∀ t ∈ tables, t.Distinct) (h : changeLast change tables = some tables') :
    ∀ t ∈ tables', t.Distinct := by
  induction tables generalizing tables'
  case nil => simp [Table.changeLast] at h
  case cons t tables hi =>
    have ⟨hd, ht⟩ := List.forall_mem_cons.mp ht
    cases tables
    case nil =>
      have ⟨t', ht', he⟩ := Option.map_eq_some_iff.mp h
      subst he
      simpa using hc t t' hd ht'
    case cons =>
      have ⟨tables'', ht'', he⟩ := Option.map_eq_some_iff.mp h
      subst he
      exact List.forall_mem_cons.mpr ⟨hd, hi ht ht''⟩

-- A table comes about by a change, or one that is there is changed, or the last one of an array.

namespace Keeps

theorem added (hc : Keeps change) {origin : Origin} (ht : t.Distinct) (hn : t.item? key = none)
    (h : (do
      let inner ← change []
      return t ++ [(key, .table origin inner)]) = some t') : t'.Distinct := by
  have ⟨inner, hi, he⟩ := Option.bind_eq_some_iff.mp h
  cases he
  exact ht.append (notMem_of_item?_eq_none hn)
    (distinct_toValue_iff.mpr (hc [] inner distinct_nil hi))

theorem within (hc : Keeps change) {origin : Origin} {inner : Table} (ht : t.Distinct)
    (hs : t.item? key = some (.table origin inner))
    (h : (do
      let inner ← change inner
      return t.replace key (.table origin inner)) = some t') : t'.Distinct := by
  have ⟨inner', hi, he⟩ := Option.bind_eq_some_iff.mp h
  cases he
  have hd : inner.Distinct := distinct_toValue_iff.mp (ht.item hs)
  exact ht.replace (distinct_toValue_iff.mpr (hc inner inner' hd hi))

theorem withinLast (hc : Keeps change) {tables : List Table} (ht : t.Distinct)
    (hs : t.item? key = some (.tables tables))
    (h : (do
      let tables ← Table.changeLast change tables
      return t.replace key (.tables tables)) = some t') : t'.Distinct := by
  have ⟨tables', hi, he⟩ := Option.bind_eq_some_iff.mp h
  cases he
  have hd : ∀ t ∈ tables, t.Distinct := distinct_toValue_tables_iff.mp (ht.item hs)
  exact ht.replace (distinct_toValue_tables_iff.mpr (hc.changeLast hd hi))

end Keeps

theorem keeps_put (path : List String) (key : String) {v : Value} (hv : v.Distinct) :
    Keeps (put path key v) := by
  induction path
  case nil =>
    intro t t' ht h
    rw [put, putHere] at h
    split at h
    case h_1    => cases h
    case h_2 hn =>
      cases h
      exact ht.append (notMem_of_item?_eq_none hn) hv
  case cons p path hi =>
    intro t t' ht h
    rw [put] at h
    split at h
    case h_1 hn     => exact hi.added ht hn h
    case h_2 hs     =>
      split at h
      case isTrue  => cases h
      case isFalse => exact hi.within ht hs h
    case h_3 hs     =>
      split at h
      case isTrue  => cases h
      case isFalse => exact hi.withinLast ht hs h
    case h_4        => cases h

theorem Keeps.descend (hc : Keeps change) (path : List String) : Keeps (descend change path) := by
  induction path
  case nil => exact hc
  case cons p path hi =>
    intro t t' ht h
    rw [Table.descend] at h
    split at h
    case h_1 hn => exact hi.added ht hn h
    case h_2 hs => exact hi.within ht hs h
    case h_3 hs => exact hi.withinLast ht hs h
    case h_4    => cases h

theorem Keeps.foldlM {α : Type} {step : Table → α → Option Table} {l : List α}
    (hs : ∀ a ∈ l, Keeps (step · a)) : Keeps (l.foldlM step ·) := by
  induction l
  case nil =>
    intro t t' ht h
    cases h
    exact ht
  case cons a l hi =>
    intro t t' ht h
    have ⟨ha, hs⟩ := List.forall_mem_cons.mp hs
    have h : ((a :: l).foldlM step t) = some t' := h
    rw [List.foldlM_cons] at h
    have ⟨t₁, h₁, h⟩ := Option.bind_eq_some_iff.mp h
    exact hi hs t₁ t' (ha t t₁ ht h₁) h

theorem keeps_body {body : List Assignment} (hb : ∀ a ∈ body, a.value.Distinct) :
    Keeps (body.foldlM assign ·) :=
  .foldlM fun a ha => keeps_put a.path a.key (hb a ha)

theorem keeps_openTable (key : String) {body : List Assignment}
    (hb : ∀ a ∈ body, a.value.Distinct) : Keeps (openTable key body) := by
  intro t t' ht h
  have hc := keeps_body hb
  rw [openTable] at h
  split at h
  case h_1 hn => exact hc.added ht hn h
  case h_2 inner hs =>
    obtain ⟨inner', hi, he⟩ := Option.bind_eq_some_iff.mp h
    cases he
    have hd := distinct_toValue_iff.mp (ht.item hs)
    exact (ht.remove key).append (notMem_keys_remove t key)
      (distinct_toValue_iff.mpr (hc inner inner' hd hi))
  case h_3 => cases h

theorem keeps_openElement (key : String) {body : List Assignment}
    (hb : ∀ a ∈ body, a.value.Distinct) : Keeps (openElement key body) := by
  intro t t' ht h
  have hc := keeps_body hb
  rw [openElement] at h
  split at h
  case h_1 hn =>
    have ⟨inner, hi, he⟩ := Option.bind_eq_some_iff.mp h
    cases he
    have hd : ∀ t ∈ [inner], t.Distinct := by simpa using hc [] inner distinct_nil hi
    exact ht.append (notMem_of_item?_eq_none hn) (distinct_toValue_tables_iff.mpr hd)
  case h_2 tables hs =>
    have ⟨inner, hi, he⟩ := Option.bind_eq_some_iff.mp h
    cases he
    have hd := distinct_toValue_tables_iff.mp (ht.item hs)
    refine ht.replace (distinct_toValue_tables_iff.mpr fun t hm => ?_)
    cases List.mem_append.mp hm
    case inl hm => exact hd t hm
    case inr hm => exact List.mem_singleton.mp hm ▸ hc [] inner distinct_nil hi
  case h_3 => cases h

theorem keeps_add {s : Section} (hb : ∀ a ∈ s.body, a.value.Distinct) :
    Keeps (Section.add · s) := by
  obtain ⟨kind, path, key, body⟩ := s
  cases kind
  case table   => exact (keeps_openTable key hb).descend path
  case element => exact (keeps_openElement key hb).descend path

end Table

-- What has been read has some property if anything has been read.
def Yields {α : Type} (p : α → Prop) (o : Option (α × List Char)) : Prop :=
  ∀ a rest, o = some (a, rest) → p a

namespace Yields

variable {α β : Type} {p : α → Prop} {a : α} {rest : List Char}

theorem none : Yields p none :=
  fun _ _ h => nomatch h

theorem some (ha : p a) : Yields p (some (a, rest)) := by
  intro _ _ h
  cases h
  exact ha

theorem bind {o : Option β} {f : β → Option (α × List Char)}
    (h : ∀ b, o = .some b → Yields p (f b)) : Yields p (o >>= f) := by
  intro a rest hb
  have ⟨b, ho, hf⟩ := Option.bind_eq_some_iff.mp hb
  exact h b ho a rest hf

theorem map {q : β → Prop} {o : Option (β × List Char)} {f : β → α} (ho : Yields q o)
    (h : ∀ b, q b → p (f b)) : Yields p (o.map fun (b, rest) => (f b, rest)) := by
  intro a rest hm
  have ⟨(b, rest'), hb, he⟩ := Option.map_eq_some_iff.mp hm
  cases he
  exact h b (ho b rest hb)

end Yields

-- Values are read without a key that is repeated within them.

section Readers

open Value (Distinct)

theorem distinct_integer {negative : Bool} {magnitude : Nat} {v : Value}
    (h : Number.integer? negative magnitude = some v) : v.Distinct := by
  have ⟨n, hn⟩ : ∃ n, v = .integer n := by
    simp only [Number.integer?] at h
    grind
  exact fun _ ho => nomatch hn ▸ ho

theorem distinct_float {negative : Bool} {x : Float} {v : Value}
    (h : Number.float? negative x = some v) : v.Distinct := by
  have ⟨y, hy⟩ : ∃ y, v = .float y := by
    simp only [Number.float?] at h
    grind
  exact fun _ ho => nomatch hy ▸ ho

theorem yields_decimal (negative : Bool) (cs : List Char) :
    Yields Distinct (Number.decimal negative cs) := by
  refine .bind fun (whole, cs) _ => ?_
  by_cases hz : Number.hasLeadingZero whole
  case pos =>
    simp only [if_pos hz]
    exact .bind fun _ h => nomatch h
  case neg =>
    simp only [if_neg hz]
    refine .bind fun (places, cs) _ => .bind fun (scale, cs) _ => ?_
    simp only
    split
    · exact .bind fun v hv => .some (distinct_integer hv)
    · exact .bind fun v hv => .some (distinct_float hv)
    · exact .bind fun v hv => .some (distinct_float hv)

theorem yields_signed (negative : Bool) (cs : List Char) :
    Yields Distinct (Number.signed negative cs) := by
  rw [Number.signed.eq_def]
  split
  · exact .some fun _ ho => nomatch ho
  · exact .some fun _ ho => nomatch ho
  · exact yields_decimal negative _

theorem yields_prefixed (base : Nat) (isDigit : Char → Bool) (cs : List Char) :
    Yields Distinct (Number.prefixed base isDigit cs) :=
  .bind fun _ _ => .bind fun _ hv => .some (distinct_integer hv)

theorem yields_number (cs : List Char) : Yields Distinct (Number.read? cs) := by
  rw [Number.read?.eq_def]
  split
  · exact yields_prefixed 16 _ _
  · exact yields_prefixed 8 _ _
  · exact yields_prefixed 2 _ _
  · exact yields_signed false _
  · exact yields_signed true _
  · exact yields_signed false _

theorem yields_scalar (cs : List Char) : Yields Distinct (scalar cs) := by
  have hs (s : String) : (Value.string s).Distinct := fun _ ho => nomatch ho
  have hd (d : DateTime) : (Value.dateTime d).Distinct := fun _ ho => nomatch ho
  have hr {α : Type} (o : Option (α × List Char)) : Yields (fun _ => True) o :=
    fun _ _ _ => trivial
  rw [scalar.eq_def]
  split
  · exact (hr _).map fun s _ => hs s
  · exact (hr _).map fun s _ => hs s
  · exact .some fun _ ho => nomatch ho
  · exact .some fun _ ho => nomatch ho
  · split
    · exact (hr _).map fun d _ => hd d
    · exact yields_number _

variable {value : Reader Value}

theorem yields_items (hv : ∀ cs, Yields Distinct (value cs)) (fuel : Nat) (cs : List Char) :
    Yields (∀ v ∈ ·, v.Distinct) (items value fuel cs) := by
  induction fuel generalizing cs
  case zero => exact .none
  case succ fuel hi =>
    rw [items]
    split
    case h_1 => exact .some (by simp)
    case h_2 =>
      refine .bind fun (v, rest) h => ?_
      have hd : v.Distinct := hv _ v rest h
      simp only
      split
      · refine .bind fun (vs, rest) h => .some ?_
        exact List.forall_mem_cons.mpr ⟨hd, hi _ vs rest h⟩
      · exact .some (by simpa using hd)
      · exact .none

theorem yields_assignment (hv : ∀ cs, Yields Distinct (value cs)) (cs : List Char) :
    Yields (·.value.Distinct) (assignment value cs) := by
  refine .bind fun ((path, key), rest) _ => ?_
  simp only
  split
  · exact .bind fun (v, rest) h => .some (hv _ v rest h)
  · exact .none

theorem yields_inlineAssignments (hv : ∀ cs, Yields Distinct (value cs)) (fuel : Nat)
    (cs : List Char) :
    Yields (fun as => ∀ a ∈ as, a.value.Distinct) (inlineAssignments value fuel cs) := by
  induction fuel generalizing cs
  case zero => exact .none
  case succ fuel hi =>
    refine .bind fun (a, rest) h => ?_
    have hd : a.value.Distinct := yields_assignment hv cs a rest h
    simp only
    split
    · refine .bind fun (as, rest) h => .some ?_
      exact List.forall_mem_cons.mpr ⟨hd, hi _ as rest h⟩
    · exact .some (by simpa using hd)
    · exact .none

theorem yields_inlineTable (hv : ∀ cs, Yields Distinct (value cs)) (cs : List Char) :
    Yields Distinct (inlineTable value cs) := by
  rw [inlineTable]
  split
  · exact .some Table.distinct_nil
  · refine .bind fun (as, rest) h => .bind fun t ht => .some ?_
    exact Table.keeps_body (yields_inlineAssignments hv _ _ as rest h) [] t Table.distinct_nil ht

theorem yields_value (levels : Nat) (cs : List Char) : Yields Distinct (Toml.value levels cs) := by
  induction levels generalizing cs
  case zero =>
    rw [Toml.value.eq_def]
    simp only
    split
    · exact .none
    · exact .none
    · exact yields_scalar cs
  case succ levels hi =>
    rw [Toml.value.eq_def]
    simp only
    split
    · exact (yields_items hi _ _).map fun vs => Value.distinct_array_iff.mpr
    · exact yields_inlineTable hi _
    · exact yields_scalar cs

end Readers

namespace Statement

def Distinct : Statement → Prop
  | assign a => a.value.Distinct
  | header .. => True

theorem yields_read? (cs : List Char) : Yields Distinct (read? cs) := by
  rw [read?.eq_def]
  split
  · refine .bind fun ((path, key), rest) _ => ?_
    simp only
    split
    · exact .some trivial
    · exact .none
  · refine .bind fun ((path, key), rest) _ => ?_
    simp only
    split
    · exact .some trivial
    · exact .none
  · exact .bind fun (a, rest) h => .some (yields_assignment (yields_value depthLimit) cs a rest h)

theorem readAll_distinct {fuel : Nat} {cs : List Char} {statements : List Statement}
    (h : readAll fuel cs = some statements) : ∀ s ∈ statements, s.Distinct := by
  induction fuel generalizing cs statements
  case zero => cases h
  case succ fuel hi =>
    rw [readAll] at h
    split at h
    case h_1 =>
      cases h
      simp
    case h_2 =>
      split at h
      case isTrue =>
        have ⟨rest, _, h⟩ := Option.bind_eq_some_iff.mp h
        exact hi h
      case isFalse =>
        have ⟨(s, rest), hs, h⟩ := Option.bind_eq_some_iff.mp h
        have ⟨rest', _, h⟩ := Option.bind_eq_some_iff.mp h
        have ⟨more, hm, he⟩ := Option.bind_eq_some_iff.mp h
        cases he
        exact List.forall_mem_cons.mpr ⟨yields_read? _ s rest hs, hi hm⟩

end Statement

theorem sections_distinct {statements : List Statement} (h : ∀ s ∈ statements, s.Distinct) :
    (∀ a ∈ (sections statements).fst, a.value.Distinct) ∧
    ∀ s ∈ (sections statements).snd, ∀ a ∈ s.body, a.value.Distinct := by
  induction statements
  case nil => exact ⟨by simp [sections], by simp [sections]⟩
  case cons s statements hi =>
    obtain ⟨hs, h⟩ := List.forall_mem_cons.mp h
    obtain ⟨hb, hm⟩ := hi h
    cases s
    case assign a              => exact ⟨List.forall_mem_cons.mpr ⟨hs, hb⟩, hm⟩
    case header kind path key  => exact ⟨by simp [sections], List.forall_mem_cons.mpr ⟨hb, hm⟩⟩

-- Whatever the text of a document is, its tables have no key twice, at no depth.
theorem parse?_distinct {text : String} {entries : List (String × Value)}
    (h : parse? text = some entries) : (Value.table entries).Distinct := by
  have ⟨statements, hs, h⟩ := Option.bind_eq_some_iff.mp h
  have ⟨root, hr, h⟩ := Option.bind_eq_some_iff.mp h
  cases h
  have ⟨hb, hm⟩ := sections_distinct (Statement.readAll_distinct hs)
  have ⟨start, ht, hf⟩ := Option.bind_eq_some_iff.mp hr
  have hd : start.Distinct := Table.keeps_body hb [] start Table.distinct_nil ht
  exact Table.Keeps.foldlM (fun s hs => Table.keeps_add (hm s hs)) start root hd hf

end SoapBindings.Toml

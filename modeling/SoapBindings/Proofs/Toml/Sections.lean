import Mathlib.Data.List.Induction
import Mathlib.Data.List.Nodup
import SoapBindings.Toml.Document
-- Documents of tables one below the other: tables of the document itself, and tables within a table
-- that has no header. In whatever order their headers are, the document holds each of them with the
-- entries of its lines.

namespace SoapBindings.Toml

-- A header with the entries on the lines after it.
structure Block where
  path    : List String
  key     : String
  entries : List (String × Value)

def assignments (entries : List (String × Value)) : List Assignment :=
  entries.map fun (key, value) => { path := [], key, value }

namespace Block

def toSection (b : Block) : Section where
  kind := .table
  path := b.path
  key  := b.key
  body := assignments b.entries

def statements (b : Block) : List Statement :=
  .header .table b.path b.key :: (assignments b.entries).map .assign

end Block

def leaves (entries : List (String × Value)) : Table :=
  entries.map fun (key, value) => (key, .value value)

-- The tables whose headers have such a path.
def tablesAt (path : List String) (blocks : List Block) : Table :=
  (blocks.filter (·.path = path)).map fun b => (b.key, .table .header (leaves b.entries))

-- A table without a header is there because of the tables within it.
def implied (outer : String) : Table → Table
  | []    => []
  | inner => [(outer, .table .implied inner)]

-- The entries before the first header, and what the headers open.
structure Outline where
  start  : List (String × Value)
  blocks : List Block

namespace Outline

def statements (o : Outline) : List Statement :=
  (assignments o.start).map .assign ++ o.blocks.flatMap Block.statements

def root (o : Outline) (outer : String) : Table :=
  implied outer (tablesAt [outer] o.blocks) ++ (leaves o.start ++ tablesAt [] o.blocks)

end Outline

-- The statements of an outline, parted at the headers.

theorem sections_assignments (as : List Assignment) (ss : List Statement) :
    sections (as.map .assign ++ ss) = (as ++ (sections ss).fst, (sections ss).snd) := by
  induction as
  case nil         => rfl
  case cons a _ hi => simp [sections, hi]

theorem sections_blocks (blocks : List Block) :
    sections (blocks.flatMap Block.statements) = ([], blocks.map Block.toSection) := by
  induction blocks
  case nil => rfl
  case cons b blocks hi =>
    simp [Block.statements, sections, sections_assignments, hi, Block.toSection]

namespace Outline

theorem sections_statements (o : Outline) :
    sections o.statements = (assignments o.start, o.blocks.map Block.toSection) := by
  simp [statements, sections_assignments, sections_blocks]

end Outline

-- What is added to a table under a new key.

namespace Table

variable {t : Table} {key : String} {item : Item}

def keys (t : Table) : List String :=
  t.map Prod.fst

theorem item?_eq_none (h : key ∉ t.keys) : t.item? key = none := by
  refine List.lookup_eq_none_iff.mpr fun e he => bne_iff_ne.mpr fun hk => ?_
  exact h (List.mem_map.mpr ⟨e, he, hk.symm⟩)

theorem item?_eq_some (hn : t.keys.Nodup) (hm : (key, item) ∈ t) : t.item? key = some item := by
  have ⟨front, back, ht⟩ := List.append_of_mem hm
  refine List.lookup_eq_some_iff.mpr ⟨front, back, ht, fun e he => bne_iff_ne.mpr fun hk => ?_⟩
  rw [ht, keys, List.map_append, List.map_cons] at hn
  exact List.disjoint_of_nodup_append hn (List.mem_map_of_mem he) (hk ▸ List.mem_cons_self)

@[simp]
theorem keys_append (t u : Table) : (t ++ u).keys = t.keys ++ u.keys :=
  List.map_append

@[simp]
theorem keys_leaves (entries : List (String × Value)) :
    (leaves entries).keys = entries.map Prod.fst := by
  simp [leaves, keys]

theorem assign_entries {entries : List (String × Value)}
    (h : (t.keys ++ entries.map Prod.fst).Nodup) :
    (assignments entries).foldlM assign t = some (t ++ leaves entries) := by
  induction entries generalizing t
  case nil => simp [assignments, leaves]
  case cons e entries hi =>
    have hk : e.fst ∉ t.keys := fun hm =>
      List.disjoint_of_nodup_append h hm List.mem_cons_self
    have ha : assign t { path := [], key := e.fst, value := e.snd } =
        some (t ++ leaves [e]) := by
      rw [assign, put, putHere, item?_eq_none hk]
      rfl
    have hn : ((t ++ leaves [e]).keys ++ entries.map Prod.fst).Nodup := by
      simpa using h
    rw [assignments, List.map_cons, List.foldlM_cons, ha]
    exact (hi hn).trans (by simp [leaves])

theorem openTable_new {entries : List (String × Value)} (ht : key ∉ t.keys)
    (he : (entries.map Prod.fst).Nodup) :
    openTable key (assignments entries) t =
      some (t ++ [(key, .table .header (leaves entries))]) := by
  have hb : (assignments entries).foldlM assign [] = some (leaves entries) := assign_entries he
  rw [openTable, item?_eq_none ht]
  simp only [hb]
  rfl

theorem replace_eq_self (h : key ∉ t.keys) : t.replace key item = t := by
  refine (List.map_congr_left fun e he => if_neg fun hk => h ?_).trans (List.map_id t)
  exact hk ▸ List.mem_map_of_mem he

theorem replace_perm {old new : Item} {rest : Table} (ht : t.Perm ((key, old) :: rest))
    (hk : key ∉ rest.keys) : (t.replace key new).Perm ((key, new) :: rest) := by
  have he : Table.replace ((key, old) :: rest) key new = (key, new) :: rest :=
    congrArg₂ List.cons (by simp) (replace_eq_self hk)
  exact he ▸ ht.map _

variable {change : Table → Option Table} {inner inner' : Table}

theorem descend_new (hk : key ∉ t.keys) (hc : change [] = some inner) :
    descend change [key] t = some (t ++ [(key, .table .implied inner)]) := by
  rw [descend, item?_eq_none hk]
  simp only [descend, hc]
  rfl

theorem descend_implied (hi : t.item? key = some (.table .implied inner))
    (hc : change inner = some inner') :
    descend change [key] t = some (t.replace key (.table .implied inner')) := by
  rw [descend, hi]
  simp only [descend, hc]
  rfl

end Table

-- The headers have keys of their own, and so have the lines after each of them.
structure Outline.Distinct (o : Outline) (outer : String) : Prop where
  paths   : ∀ b ∈ o.blocks, b.path = [] ∨ b.path = [outer]
  entries : ∀ b ∈ o.blocks, (b.entries.map Prod.fst).Nodup
  outside : (outer :: (leaves o.start ++ tablesAt [] o.blocks).keys).Nodup
  inside  : (tablesAt [outer] o.blocks).keys.Nodup

def Block.table (b : Block) : Table :=
  [(b.key, .table .header (leaves b.entries))]

theorem tablesAt_append (path : List String) (blocks more : List Block) :
    tablesAt path (blocks ++ more) = tablesAt path blocks ++ tablesAt path more := by
  simp [tablesAt]

theorem tablesAt_singleton (path : List String) (b : Block) :
    tablesAt path [b] = if b.path = path then b.table else [] := by
  by_cases h : b.path = path <;> simp [tablesAt, h, Block.table]

namespace Outline

variable {outer : String} {start : List (String × Value)} {blocks : List Block} {b : Block}

theorem Distinct.before {more : List Block}
    (h : (Outline.mk start (blocks ++ more)).Distinct outer) :
    (Outline.mk start blocks).Distinct outer where
  paths b hb   := h.paths b (List.mem_append_left _ hb)
  entries b hb := h.entries b (List.mem_append_left _ hb)
  outside      := by
    have ho := h.outside
    simp only [tablesAt_append, Table.keys_append] at ho ⊢
    exact ho.sublist (by simp)
  inside       := by
    have hi := h.inside
    rw [tablesAt_append, Table.keys_append] at hi
    exact hi.of_append_left

theorem root_append_outside (hb : b.path = []) :
    (Outline.mk start (blocks ++ [b])).root outer =
      (Outline.mk start blocks).root outer ++ b.table := by
  simp [root, tablesAt_append, tablesAt_singleton, hb]

theorem root_append_inside (hb : b.path = [outer]) :
    (Outline.mk start (blocks ++ [b])).root outer =
      (outer, .table .implied (tablesAt [outer] blocks ++ b.table)) ::
        (leaves start ++ tablesAt [] blocks) := by
  have hi : implied outer (tablesAt [outer] blocks ++ b.table) =
      [(outer, .table .implied (tablesAt [outer] blocks ++ b.table))] := by
    cases tablesAt [outer] blocks <;> rfl
  simp [root, tablesAt_append, tablesAt_singleton, hb, hi]

theorem keys_root_sublist (o : Outline) :
    (o.root outer).keys.Sublist (outer :: (leaves o.start ++ tablesAt [] o.blocks).keys) := by
  rw [root]
  cases tablesAt [outer] o.blocks
  case nil      => exact .cons _ (.refl _)
  case cons _ _ => exact .refl _

-- A new table of the document itself comes last.
theorem add_outside {t : Table} (h : (Outline.mk start (blocks ++ [b])).Distinct outer)
    (hb : b.path = []) (ht : t.Perm ((Outline.mk start blocks).root outer)) :
    b.toSection.add t = some (t ++ b.table) := by
  have hn : ((outer :: (leaves start ++ tablesAt [] blocks).keys) ++ b.table.keys).Nodup := by
    simpa [tablesAt_append, tablesAt_singleton, hb] using h.outside
  have hk : b.key ∉ t.keys := fun hm =>
    List.disjoint_of_nodup_append hn
      ((keys_root_sublist _).mem ((ht.map Prod.fst).mem_iff.mp hm)) List.mem_cons_self
  have ha : b.toSection.add t = t.openTable b.key (assignments b.entries) := by
    rw [Section.add, Block.toSection, hb]
    rfl
  exact ha.trans (Table.openTable_new hk (h.entries b (by simp)))

-- The first header within the outer table makes that table, and the others add to it.
theorem add_inside {t : Table} (h : (Outline.mk start (blocks ++ [b])).Distinct outer)
    (hb : b.path = [outer]) (ht : t.Perm ((Outline.mk start blocks).root outer)) :
    ∃ t', b.toSection.add t = some t' ∧
      t'.Perm ((Outline.mk start (blocks ++ [b])).root outer) := by
  have hn : ((tablesAt [outer] blocks).keys ++ b.table.keys).Nodup := by
    simpa [tablesAt_append, tablesAt_singleton, hb] using h.inside
  have hk : b.key ∉ (tablesAt [outer] blocks).keys := fun hm =>
    List.disjoint_of_nodup_append hn hm List.mem_cons_self
  have ho := h.before.outside
  have hc := Table.openTable_new hk (h.entries b (by simp))
  have ha : b.toSection.add t =
      t.descend (Table.openTable b.key (assignments b.entries)) [outer] := by
    rw [Section.add, Block.toSection, hb]
  rw [root_append_inside hb, ha]
  cases hi : tablesAt [outer] blocks
  case nil =>
    rw [hi] at hc
    rw [root, hi] at ht
    have hn : outer ∉ t.keys := fun hm =>
      (List.nodup_cons.mp ho).left ((ht.map Prod.fst).mem_iff.mp hm)
    refine ⟨_, Table.descend_new hn hc, ?_⟩
    exact (List.perm_append_singleton _ t).trans (ht.cons _)
  case cons e inner =>
    rw [hi] at hc
    rw [root, hi] at ht
    have hm : t.item? outer = some (.table .implied (e :: inner)) :=
      Table.item?_eq_some ((ht.map Prod.fst).nodup_iff.mpr ho) (ht.mem_iff.mpr List.mem_cons_self)
    exact ⟨_, Table.descend_implied hm hc, Table.replace_perm ht (List.nodup_cons.mp ho).left⟩

-- One header after the other is added to what the headers before it have made.
theorem add_blocks (h : (Outline.mk start blocks).Distinct outer) :
    ∃ t, (blocks.map Block.toSection).foldlM Section.add (leaves start) = some t ∧
      t.Perm ((Outline.mk start blocks).root outer) := by
  induction blocks using List.reverseRecOn
  case nil => exact ⟨_, rfl, by simp [root, tablesAt, implied]⟩
  case append_singleton blocks b hi =>
    have ⟨t, hf, hp⟩ := hi h.before
    have ⟨t', ha, hp'⟩ : ∃ t', b.toSection.add t = some t' ∧
        t'.Perm ((Outline.mk start (blocks ++ [b])).root outer) := by
      rcases h.paths b (by simp) with hb | hb
      · exact ⟨_, add_outside h hb hp, root_append_outside hb ▸ hp.append_right _⟩
      · exact add_inside h hb hp
    refine ⟨t', ?_, hp'⟩
    rw [List.map_append, List.foldlM_append, hf]
    simpa using ha

-- The table may be in an order of its own, since the outer table is where its first header is.
theorem ofStatements? {o : Outline} (h : o.Distinct outer) :
    ∃ root, Table.ofStatements? o.statements = some root ∧ root.Perm (o.root outer) := by
  have hn : (Table.keys [] ++ o.start.map Prod.fst).Nodup := by
    have ho := (List.nodup_cons.mp h.outside).right
    rw [Table.keys_append, Table.keys_leaves] at ho
    exact ho.of_append_left
  have hs : (assignments o.start).foldlM Table.assign [] = some (leaves o.start) :=
    Table.assign_entries hn
  have ⟨root, hf, hp⟩ := add_blocks h
  refine ⟨root, ?_, hp⟩
  rw [Table.ofStatements?, o.sections_statements]
  simpa [hs] using hf

end Outline

-- What such a document says.

theorem entries_eq_map (t : Table) :
    Item.entries t = t.map fun (key, item) => (key, item.toValue) := by
  induction t
  case nil         => rfl
  case cons e _ hi => simp [Item.entries, hi]

theorem entries_append (t u : Table) :
    Item.entries (t ++ u) = Item.entries t ++ Item.entries u := by
  simp [entries_eq_map]

theorem entries_leaves (entries : List (String × Value)) :
    Item.entries (leaves entries) = entries := by
  rw [entries_eq_map, leaves, List.map_map]
  exact List.map_id entries

theorem entries_tablesAt (path : List String) (blocks : List Block) :
    Item.entries (tablesAt path blocks) =
      (blocks.filter (·.path = path)).map fun b => (b.key, .table b.entries) := by
  rw [entries_eq_map, tablesAt, List.map_map]
  refine List.map_congr_left fun b _ => ?_
  simp [Item.toValue, entries_leaves]

theorem keys_entries (t : Table) : (Item.entries t).map Prod.fst = t.keys := by
  rw [entries_eq_map, List.map_map]
  rfl

theorem mem_entries_root_iff {o : Outline} {outer : String} {entry : String × Value} :
    entry ∈ Item.entries (o.root outer) ↔
      (tablesAt [outer] o.blocks ≠ [] ∧
        entry = (outer, .table (Item.entries (tablesAt [outer] o.blocks)))) ∨
      entry ∈ o.start ∨ ∃ b ∈ o.blocks, b.path = [] ∧ entry = (b.key, .table b.entries) := by
  have hi {t : Table} : entry ∈ Item.entries (implied outer t) ↔
      t ≠ [] ∧ entry = (outer, .table (Item.entries t)) := by
    cases t <;> simp [implied, Item.entries, Item.toValue]
  have hb : entry ∈ Item.entries (tablesAt [] o.blocks) ↔
      ∃ b ∈ o.blocks, b.path = [] ∧ entry = (b.key, .table b.entries) := by
    simp [entries_tablesAt, and_assoc, eq_comm]
  rw [Outline.root, entries_append, entries_append, List.mem_append, List.mem_append, hi, hb,
    entries_leaves]

theorem entries_perm {t u : Table} (h : t.Perm u) : (Item.entries t).Perm (Item.entries u) := by
  rw [entries_eq_map, entries_eq_map]
  exact h.map _

end SoapBindings.Toml

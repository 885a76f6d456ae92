import Mathlib.Data.Finset.Card
import Mathlib.Data.List.Induction
import Mathlib.Data.List.Nodup
import SoapBindings.StringMap
-- What determines a map, and the maps that lists are written into one entry after the other.

namespace SoapBindings

variable {α β κ : Type}

-- The last member of a list that has a property.
structure Last (p : α → Prop) (l : List α) (a : α) : Prop where
  holds    : p a
  position : ∃ before after, l = before ++ a :: after ∧ ∀ b ∈ after, ¬p b

theorem Last.mem {p : α → Prop} {l : List α} {a : α} (h : Last p l a) : a ∈ l := by
  have ⟨before, after, hl, _⟩ := h.position
  simp [hl]

theorem findRev?_eq_some_iff {p : α → Prop} [DecidablePred p] {l : List α} {a : α} :
    l.findRev? (p ·) = some a ↔ Last p l a := by
  rw [List.findRev?_eq_find?_reverse, List.find?_eq_some_iff_append]
  constructor
  case mp =>
    intro ⟨ha, after, before, hl, hn⟩
    have hr := congrArg List.reverse hl
    simp only [List.reverse_reverse, List.reverse_append, List.reverse_cons, List.append_assoc,
      List.singleton_append] at hr
    exact ⟨by simpa using ha, before.reverse, after.reverse, hr, by simpa using hn⟩
  case mpr =>
    intro ⟨ha, before, after, hl, hn⟩
    exact ⟨by simpa using ha, after.reverse, before.reverse, by simp [hl], by simpa using hn⟩

theorem findRev?_isSome_iff {p : α → Prop} [DecidablePred p] {l : List α} :
    (l.findRev? (p ·)).isSome ↔ ∃ a ∈ l, p a := by
  simp [List.find?_isSome]

-- Of members with different keys, each is the last one with its key.
theorem last_iff_of_nodup {key : α → κ} {l : List α} (h : (l.map key).Nodup) {k : κ} {a : α} :
    Last (key · = k) l a ↔ a ∈ l ∧ key a = k := by
  constructor
  case mp  => exact fun hl => ⟨hl.mem, hl.holds⟩
  case mpr =>
    intro ⟨hm, hk⟩
    have ⟨before, after, hl⟩ := List.append_of_mem hm
    rw [hl, List.map_append, List.map_cons] at h
    have hn := (List.nodup_cons.mp h.of_append_right).left
    exact ⟨hk, before, after, hl, fun b hb he => hn (List.mem_map.mpr ⟨b, hb, he.trans hk.symm⟩)⟩

theorem findRev?_eq_of_perm [DecidableEq κ] {key : α → κ} {l l' : List α}
    (hn : (l.map key).Nodup) (hp : l.Perm l') (k : κ) :
    l.findRev? (key · = k) = l'.findRev? (key · = k) := by
  refine Option.ext fun a => ?_
  have hn' : (l'.map key).Nodup := (hp.map key).nodup_iff.mp hn
  rw [findRev?_eq_some_iff, findRev?_eq_some_iff, last_iff_of_nodup hn, last_iff_of_nodup hn',
    hp.mem_iff]

-- A table that a list is written into. It has the keys of the list, and what stands under a key is
-- made of the last member with this key and of no other one.
structure Tabulated (key : α → κ) (made : α → β → Prop) (l : List α) (find? : κ → Option β) :
    Prop where
  isSome_iff  : ∀ k, (find? k).isSome ↔ ∃ a ∈ l, key a = k
  eq_some_iff : ∀ k b, find? k = some b ↔ ∃ a, Last (key · = k) l a ∧ made a b

theorem Tabulated.of_findRev? [DecidableEq κ] {key : α → κ} {made : α → β → Prop} {value : α → β}
    {l : List α} {find? : κ → Option β} (hm : ∀ a ∈ l, ∀ b, made a b ↔ b = value a)
    (hf : ∀ k, find? k = (l.findRev? (key · = k)).map value) : Tabulated key made l find? where
  isSome_iff k := by
    rw [hf, Option.isSome_map]
    exact findRev?_isSome_iff
  eq_some_iff k b := by
    rw [hf, Option.map_eq_some_iff]
    constructor
    case mp =>
      intro ⟨a, ha, hb⟩
      have ha := findRev?_eq_some_iff.mp ha
      exact ⟨a, ha, (hm a ha.mem b).mpr hb.symm⟩
    case mpr =>
      intro ⟨a, ha, hb⟩
      exact ⟨a, findRev?_eq_some_iff.mpr ha, ((hm a ha.mem b).mp hb).symm⟩

namespace StringMap

theorem lookup_isSome_iff {key : String} {l : List (String × β)} :
    (lookup key l).isSome ↔ key ∈ l.map Prod.fst := by
  induction l
  case nil => simp [lookup]
  case cons hd tl hi =>
    by_cases h : hd.1 = key
    case pos => simp [lookup, h]
    case neg => simp [lookup, h, hi, Ne.symm h]

theorem mem_keys_iff {m : StringMap β} {key : String} : key ∈ m.keys ↔ (m.find? key).isSome :=
  lookup_isSome_iff.symm

theorem keys_nodup (m : StringMap β) : m.keys.Nodup := by
  rw [keys, List.nodup_iff_pairwise_ne, List.pairwise_map]
  exact m.ascending.imp String.ne_of_lt

theorem mem_entries_iff {m : StringMap β} {key : String} {value : β} :
    (key, value) ∈ m.entries ↔ m.find? key = some value := by
  cases m
  case mk l ha =>
    simp only [find?]
    induction l
    case nil => simp [lookup]
    case cons hd tl hi =>
      have hp := List.pairwise_cons.mp ha
      by_cases h : hd.1 = key
      case pos =>
        have hn : (key, value) ∉ tl := fun hm => String.ne_of_lt (hp.left _ hm) h
        simp [lookup, h, hn, Prod.ext_iff, eq_comm]
      case neg =>
        simp [lookup, h, Prod.ext_iff, Ne.symm h, hi hp.right]

theorem size_eq_card (m : StringMap β) : m.size = m.keys.toFinset.card := by
  rw [List.toFinset_card_of_nodup m.keys_nodup]
  exact (List.length_map _).symm

theorem toFinset_keys_insert (m : StringMap β) (key : String) (value : β) :
    (m.insert key value).keys.toFinset = Insert.insert key m.keys.toFinset := by
  ext key'
  by_cases h : key' = key <;> simp [mem_keys_iff, find?_insert, h]

-- An entry takes the place of another one, or there is one more.
theorem size_insert (m : StringMap β) (key : String) (value : β) :
    (m.insert key value).size = if (m.find? key).isSome then m.size else m.size + 1 := by
  simp only [size_eq_card, toFinset_keys_insert, Finset.card_insert_eq_ite, List.mem_toFinset,
    mem_keys_iff]

-- A map is what it looks up, since its entries can be in one order only.
theorem ext_find? {m₁ m₂ : StringMap β} (h : ∀ key, m₁.find? key = m₂.find? key) : m₁ = m₂ := by
  have hn (m : StringMap β) : m.entries.Nodup := List.Nodup.of_map Prod.fst m.keys_nodup
  have hp : m₁.entries.Perm m₂.entries := by
    refine (List.perm_ext_iff_of_nodup (hn m₁) (hn m₂)).mpr fun ⟨key, value⟩ => ?_
    rw [mem_entries_iff, mem_entries_iff, h]
  refine StringMap.ext (hp.eq_of_pairwise ?_ m₁.ascending m₂.ascending)
  exact fun a b _ _ hab hba => absurd hba (String.lt_asymm hab)

-- Entries are made of the members of a list. Later members take the place of earlier ones with the
-- same key.
def tabulate (key : α → String) (value : α → β) (l : List α) : StringMap β :=
  l.foldl (fun m a => m.insert (key a) (value a)) ∅

variable {key : α → String} {value : α → β} {l : List α}

theorem tabulate_append_singleton (a : α) :
    tabulate key value (l ++ [a]) = (tabulate key value l).insert (key a) (value a) := by
  simp [tabulate]

theorem find?_tabulate (k : String) :
    (tabulate key value l).find? k = (l.findRev? (key · = k)).map value := by
  induction l using List.reverseRecOn
  case nil => rfl
  case append_singleton l a hi =>
    rw [tabulate_append_singleton, find?_insert, hi]
    by_cases h : key a = k
    case pos => simp [h]
    case neg => simp [h, Ne.symm h]

-- A table is made of the pairs of keys and values, whatever they come from.
theorem tabulate_eq_ofList (key : α → String) (value : α → β) (l : List α) :
    tabulate key value l = ofList (l.map fun a => (key a, value a)) := by
  rw [ofList, List.foldl_map, tabulate]

theorem tabulate_eq_of_map_eq {γ : Type} {key' : γ → String} {value' : γ → β} {l' : List γ}
    (h : l.map (fun a => (key a, value a)) = l'.map fun c => (key' c, value' c)) :
    tabulate key value l = tabulate key' value' l' := by
  rw [tabulate_eq_ofList, tabulate_eq_ofList, h]

theorem tabulate_eq_of_perm {l' : List α} (hn : (l.map key).Nodup) (hp : l.Perm l') :
    tabulate key value l = tabulate key value l' := by
  refine ext_find? fun k => ?_
  rw [find?_tabulate, find?_tabulate, findRev?_eq_of_perm hn hp]

theorem find?_ofList_iff {l : List (String × β)} (hn : (l.map Prod.fst).Nodup) {key : String}
    {value : β} : (ofList l).find? key = some value ↔ (key, value) ∈ l := by
  have ht : ofList l = tabulate Prod.fst Prod.snd l := rfl
  rw [ht, find?_tabulate, Option.map_eq_some_iff]
  simp only [findRev?_eq_some_iff, last_iff_of_nodup hn]
  constructor
  case mp  => exact fun ⟨_, ⟨hm, hk⟩, hv⟩ => hk ▸ hv ▸ hm
  case mpr => exact fun hm => ⟨_, ⟨hm, rfl⟩, rfl⟩

-- The entries of a map make the map, in whatever order they are.
theorem ofList_of_perm {m : StringMap β} {l : List (String × β)}
    (h : l.Perm m.entries) : ofList l = m := by
  have hn : (l.map Prod.fst).Nodup := (h.map Prod.fst).nodup_iff.mpr m.keys_nodup
  refine ext_find? fun key => Option.ext fun value => ?_
  rw [find?_ofList_iff hn, ← mem_entries_iff, h.mem_iff]

theorem tabulated_tabulate {made : α → β → Prop} (hm : ∀ a ∈ l, ∀ b, made a b ↔ b = value a) :
    Tabulated key made l (tabulate key value l).find? :=
  .of_findRev? hm find?_tabulate

-- Two tables with the same entries under every key are one.
theorem eq_of_tabulated {made : α → β → Prop} {m₁ m₂ : StringMap β}
    (h₁ : Tabulated key made l m₁.find?) (h₂ : Tabulated key made l m₂.find?) : m₁ = m₂ := by
  refine ext_find? fun k => Option.ext fun b => ?_
  rw [h₁.eq_some_iff, h₂.eq_some_iff]

-- Maps with the same keys, in which what stands under a key is related.
def Related (r : α → β → Prop) (m₁ : StringMap α) (m₂ : StringMap β) : Prop :=
  ∀ key, Option.Rel r (m₁.find? key) (m₂.find? key)

theorem related_empty {r : α → β → Prop} : Related r ∅ ∅ :=
  fun _ => .none

theorem Related.insert {r : α → β → Prop} {m₁ : StringMap α} {m₂ : StringMap β}
    (h : m₁.Related r m₂) (key : String) {a : α} {b : β} (hr : r a b) :
    (m₁.insert key a).Related r (m₂.insert key b) := by
  intro key'
  rw [find?_insert, find?_insert]
  split
  case isTrue  => exact .some hr
  case isFalse => exact h key'

theorem related_tabulate {γ : Type} {r : β → γ → Prop} {value' : α → γ}
    (h : ∀ a ∈ l, r (value a) (value' a)) :
    (tabulate key value l).Related r (tabulate key value' l) := by
  intro k
  rw [find?_tabulate, find?_tabulate]
  cases hf : l.findRev? (key · = k)
  case none   => exact .none
  case some a => exact .some (h a (findRev?_eq_some_iff.mp hf).mem)

end StringMap
end SoapBindings

-- Finite maps from strings, the one kind of table in this library. Its entries are kept in the
-- order of their keys, so a map is determined by what it looks up and lists its entries in one
-- order only. Strings are ordered by code point, which is the order of their UTF-8 bytes.

namespace SoapBindings

structure StringMap (α : Type) where
  entries   : List (String × α)
  ascending : entries.Pairwise (·.1 < ·.1)

namespace StringMap

variable {α β : Type}

@[ext]
theorem ext {m₁ m₂ : StringMap α} (h : m₁.entries = m₂.entries) : m₁ = m₂ := by
  cases m₁
  cases m₂
  simp_all

instance [DecidableEq α] : DecidableEq (StringMap α) := fun _ _ =>
  decidable_of_iff _ StringMap.ext_iff.symm

def empty : StringMap α where
  entries   := []
  ascending := .nil

instance : EmptyCollection (StringMap α) where
  emptyCollection := empty

instance : Inhabited (StringMap α) where
  default := ∅

-- The first entry under a key. In a map there is no second one.
def lookup (key : String) : List (String × α) → Option α
  | []             => none
  | (k, v) :: rest => if k = key then some v else lookup key rest

def find? (m : StringMap α) (key : String) : Option α :=
  lookup key m.entries

def keys (m : StringMap α) : List String :=
  m.entries.map Prod.fst

def size (m : StringMap α) : Nat :=
  m.entries.length

-- An ascending list of entries with one more entry, which takes the place of an entry of the same
-- key.
def place (key : String) (value : α) : List (String × α) → List (String × α)
  | [] => [(key, value)]
  | (k, v) :: rest =>
    if key < k then (key, value) :: (k, v) :: rest
    else if key = k then (key, value) :: rest
    else (k, v) :: place key value rest

theorem mem_place {key : String} {value : α} {l : List (String × α)} {e : String × α}
    (h : e ∈ place key value l) : e = (key, value) ∨ e ∈ l := by
  induction l with
  | nil => simp_all [place]
  | cons hd tl ih =>
    unfold place at h
    split at h
    · simp_all
    · split at h
      · simp_all
        exact h.imp_right .inr
      · rcases List.mem_cons.mp h with h | h
        · exact .inr (by simp [h])
        · exact (ih h).imp_right (List.mem_cons_of_mem _)

theorem ascending_place (key : String) (value : α) {l : List (String × α)}
    (h : l.Pairwise (·.1 < ·.1)) : (place key value l).Pairwise (·.1 < ·.1) := by
  induction l with
  | nil => simp [place]
  | cons hd tl ih =>
    have ⟨hh, ht⟩ := List.pairwise_cons.mp h
    unfold place
    split
    case isTrue hk =>
      refine List.pairwise_cons.mpr ⟨fun e he => ?_, h⟩
      rcases List.mem_cons.mp he with he | he
      · exact he ▸ hk
      · exact String.lt_trans hk (hh e he)
    case isFalse hk =>
      split
      case isTrue he => exact List.pairwise_cons.mpr ⟨he ▸ hh, ht⟩
      case isFalse he =>
        refine List.pairwise_cons.mpr ⟨fun e hm => ?_, ih ht⟩
        rcases mem_place hm with hm | hm
        · subst hm
          exact String.not_le.mp fun hle => he (String.le_antisymm hle (String.not_lt.mp hk))
        · exact hh e hm

def insert (m : StringMap α) (key : String) (value : α) : StringMap α where
  entries   := place key value m.entries
  ascending := ascending_place key value m.ascending

-- Later entries of a list take the place of earlier ones with the same key.
def ofList (l : List (String × α)) : StringMap α :=
  l.foldl (fun m e => m.insert e.1 e.2) ∅

theorem lookup_place_self (key : String) (value : α) (l : List (String × α)) :
    lookup key (place key value l) = some value := by
  induction l with
  | nil => simp [place, lookup]
  | cons hd tl ih =>
    unfold place
    split
    · simp [lookup]
    · split
      · simp [lookup]
      case isFalse h => simp [lookup, ih, Ne.symm h]

theorem lookup_place_of_ne {key key' : String} (h : key' ≠ key) (value : α)
    (l : List (String × α)) : lookup key' (place key value l) = lookup key' l := by
  induction l with
  | nil => simp [place, lookup, Ne.symm h]
  | cons hd tl ih =>
    unfold place
    split
    · simp [lookup, Ne.symm h]
    · split
      case isTrue he => simp [lookup, ← he, Ne.symm h]
      · simp [lookup, ih]

@[simp]
theorem find?_empty (key : String) : (∅ : StringMap α).find? key = none :=
  rfl

theorem find?_insert_self (m : StringMap α) (key : String) (value : α) :
    (m.insert key value).find? key = some value :=
  lookup_place_self key value m.entries

theorem find?_insert_of_ne {key key' : String} (h : key' ≠ key) (m : StringMap α) (value : α) :
    (m.insert key value).find? key' = m.find? key' :=
  lookup_place_of_ne h value m.entries

theorem find?_insert (m : StringMap α) (key key' : String) (value : α) :
    (m.insert key value).find? key' = if key' = key then some value else m.find? key' := by
  split
  case isTrue h  => exact h ▸ m.find?_insert_self key value
  case isFalse h => exact find?_insert_of_ne h m value

end StringMap
end SoapBindings

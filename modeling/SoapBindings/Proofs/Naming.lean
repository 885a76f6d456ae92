import Mathlib.Data.Option.Basic
import SoapBindings.Naming
import SoapBindings.Proofs.Inflection.Letters
-- Short names. They are made of the words of a local name, where a dot divides words as a separator
-- of identifiers does, and a short name is its own short name.

namespace SoapBindings

open Text Inflection

def Divides (c : Char) : Prop :=
  c ∈ [' ', '_', '-', '.']

instance : DecidablePred Divides := fun c =>
  inferInstanceAs (Decidable (c ∈ [' ', '_', '-', '.']))

theorem divides_iff {c : Char} : Divides c ↔ Separates c ∨ c = '.' := by
  simp [Divides, Separates, or_assoc]

-- One change to what stands between, before and after the words of a name.
inductive Respaced : List Char → List Char → Prop
  | exchange {c d} (cs rest) (hc : Divides c) (hd : Divides d) :
    Respaced (cs ++ c :: rest) (cs ++ d :: rest)
  | repeat {c d} (cs rest) (hc : Divides c) (hd : Divides d) :
    Respaced (cs ++ c :: rest) (cs ++ c :: d :: rest)
  | leading {c} (cs) (hc : Divides c) : Respaced cs (c :: cs)
  | trailing {c} (cs) (hc : Divides c) : Respaced cs (cs ++ [c])

theorem Respaced.words_eq {cs ds : List Char} (h : Respaced cs ds) :
    words Divides cs = words Divides ds := by
  cases h
  case exchange hc hd => rw [words_append_separator hc, words_append_separator hd]
  case «repeat» hc hd =>
    rw [words_append_separator hc, words_append_separator hc, words_separator hd]
  case leading hc => rw [words_separator hc]
  case trailing hc => rw [words_append_separator hc, words_nil, List.append_nil]

theorem Respaced.exists_words {cs ds : List Char} (h : Respaced cs ds) :
    ∃ ws, Words Divides cs ws ∧ Words Divides ds ws :=
  ⟨words Divides cs, words_iff.mpr rfl, words_iff.mpr h.words_eq⟩

-- Names for things that have a local name, made of the words of this local name alone.
structure ByWords {α : Type} (localName name : α → String) : Prop where
  of_words    : ∀ a b ws, Words Divides (localName a).toList ws →
    Words Divides (localName b).toList ws → name a = name b
  of_respaced : ∀ a b, Respaced (localName a).toList (localName b).toList → name a = name b
  joined      : ∀ a, ∀ c ∈ (name a).toList, ¬Divides c
  settled     : ∀ a b, localName b = name a → name b = name a

def EndsInType (name : String) : Prop :=
  ∃ stem, name = stem ++ "Type"

-- The second name is the first one with a suffix that the first one still lacks.
structure Suffixed (name₁ name₂ : String) : Prop where
  ne_empty : name₁ ≠ ""
  unended  : ¬EndsInType name₁
  eq       : name₂ = name₁ ++ "Type"

namespace NamingStrategy

def undot (c : Char) : Char :=
  if c = '.' then ' ' else c

theorem undot_of_ne {c : Char} (h : c ≠ '.') : undot c = c :=
  if_neg h

theorem separates_undot {c : Char} (h : Divides c) : Separates (undot c) := by
  by_cases hc : c = '.'
  case pos =>
    rw [undot, if_pos hc]
    decide
  case neg =>
    rw [undot_of_ne hc]
    exact (divides_iff.mp h).resolve_right hc

theorem map_undot {cs : List Char} (h : '.' ∉ cs) : cs.map undot = cs := by
  have hu : ∀ c ∈ cs, undot c = id c := fun c hm => undot_of_ne fun hc => h (hc ▸ hm)
  rw [List.map_congr_left hu, List.map_id]

theorem toList_dotless (name : String) : (dotless name).toList = name.toList.map undot :=
  String.toList_ofList

theorem dotless_eq_self {name : String} (h : '.' ∉ name.toList) : dotless name = name := by
  apply String.toList_inj.mp
  rw [toList_dotless, map_undot h]

theorem not_mem_dotless (name : String) : '.' ∉ (dotless name).toList := by
  rw [toList_dotless]
  intro h
  have ⟨c, _, hc⟩ := List.mem_map.mp h
  by_cases hd : c = '.'
  case pos => simp [undot, hd] at hc
  case neg => exact hd (undot_of_ne hd ▸ hc)

-- Without its dots, a text has the same words.
theorem words_undot {cs : List Char} {ws : List (List Char)} (h : Words Divides cs ws) :
    Words Separates (cs.map undot) ws := by
  induction h
  case nil => exact .nil
  case separator hc _ hi => exact .separator (separates_undot hc) hi
  case word w rest ws hw hn hr _ hi =>
    have hd : '.' ∉ w := fun hm => hn _ hm (by decide)
    have hs : ∀ c ∈ w, ¬Separates c := fun c hm hc => hn c hm (divides_iff.mpr (.inl hc))
    rw [List.map_append, map_undot hd]
    refine .word hw hs (fun c hc => ?_) hi
    rw [List.head?_map, Option.mem_map] at hc
    have ⟨d, hm, he⟩ := hc
    exact he ▸ separates_undot (hr d hm)

theorem toList_inflect_dotless {name : String} {ws : List (List Char)}
    (h : Words Divides name.toList ws) (case : LeadingCase) :
    (inflect case (dotless name)).toList = ofWords case ws := by
  rw [toList_inflect, toList_dotless, letters_eq (words_undot h)]

theorem not_divides_of_mem_inflect {case : LeadingCase} {name : String} {c : Char}
    (h : c ∈ (inflect case (dotless name)).toList) : ¬Divides c := by
  intro hc
  cases divides_iff.mp hc
  case inl hs => exact not_separates_of_mem_inflect h hs
  case inr hd =>
    subst hd
    exact not_mem_dotless name (mem_inflect (by decide) h).left

theorem dotless_inflect (case : LeadingCase) (name : String) :
    dotless (inflect case (dotless name)) = inflect case (dotless name) :=
  dotless_eq_self fun h => not_divides_of_mem_inflect h (by decide)

theorem byWords_inflect {α : Type} (localName : α → String) (case : LeadingCase) :
    ByWords localName fun a => inflect case (dotless (localName a)) := by
  have hw (a b : α) (ws : List (List Char)) (ha : Words Divides (localName a).toList ws)
      (hb : Words Divides (localName b).toList ws) :
      inflect case (dotless (localName a)) = inflect case (dotless (localName b)) := by
    apply String.toList_inj.mp
    rw [toList_inflect_dotless ha, toList_inflect_dotless hb]
  constructor
  case of_words => exact hw
  case of_respaced =>
    intro a b h
    have ⟨ws, ha, hb⟩ := h.exists_words
    exact hw a b ws ha hb
  case joined  => exact fun a c hc => not_divides_of_mem_inflect hc
  case settled =>
    intro a b h
    rw [h, dotless_inflect, inflect_inflect]

theorem endsInType_iff {name : String} :
    EndsInType name ↔ typeSuffix.toList.isSuffixOf name.toList := by
  rw [List.isSuffixOf_iff_suffix]
  constructor
  case mp  => exact fun ⟨stem, h⟩ => ⟨stem.toList, by simp [h, typeSuffix]⟩
  case mpr =>
    intro ⟨stem, h⟩
    refine ⟨.ofList stem, String.toList_inj.mp ?_⟩
    simp [← h, typeSuffix]

-- What becomes of a name: it stays, or it lacks the suffix and gets it.
theorem withTypeSuffix_cases (name : String) :
    (name = "" ∨ EndsInType name) ∧ withTypeSuffix name = name ∨
      Suffixed name (withTypeSuffix name) := by
  rw [withTypeSuffix]
  split
  case isTrue h =>
    rw [Bool.or_eq_true, String.isEmpty_iff, ← endsInType_iff] at h
    exact .inl ⟨h, rfl⟩
  case isFalse h =>
    rw [Bool.or_eq_true, String.isEmpty_iff, ← endsInType_iff, not_or] at h
    exact .inr ⟨h.left, h.right, rfl⟩

theorem withTypeSuffix_of_ended {name : String} (h : name = "" ∨ EndsInType name) :
    withTypeSuffix name = name := by
  cases withTypeSuffix_cases name
  case inl hw => exact hw.right
  case inr hs => exact absurd h (not_or.mpr ⟨hs.ne_empty, hs.unended⟩)

theorem withTypeSuffix_of_suffixed {name₁ name₂ : String} (h : Suffixed name₁ name₂) :
    withTypeSuffix name₁ = name₂ := by
  cases withTypeSuffix_cases name₁
  case inl hw => exact absurd hw.left (not_or.mpr ⟨h.ne_empty, h.unended⟩)
  case inr hs => rw [hs.eq, h.eq]

theorem withTypeSuffix_ended (name : String) :
    withTypeSuffix name = "" ∨ EndsInType (withTypeSuffix name) := by
  cases withTypeSuffix_cases name
  case inl hw => exact hw.right.symm ▸ hw.left
  case inr hs => exact .inr ⟨name, hs.eq⟩

theorem withTypeSuffix_eq_empty_iff {name : String} : withTypeSuffix name = "" ↔ name = "" := by
  cases withTypeSuffix_cases name
  case inl hw => rw [hw.right]
  case inr hs => simp [hs.eq, hs.ne_empty]

theorem withTypeSuffix_eq_iff {name₁ name₂ : String} :
    withTypeSuffix name₁ = withTypeSuffix name₂ ↔
      name₁ = name₂ ∨ Suffixed name₁ name₂ ∨ Suffixed name₂ name₁ := by
  constructor
  case mp =>
    intro h
    cases withTypeSuffix_cases name₁ <;> cases withTypeSuffix_cases name₂
    case inl.inl hw₁ hw₂ => exact .inl (hw₁.right.symm.trans (h.trans hw₂.right))
    case inl.inr hw₁ hs₂ => exact .inr (.inr (hw₁.right ▸ h ▸ hs₂))
    case inr.inl hs₁ hw₂ => exact .inr (.inl (hw₂.right ▸ h ▸ hs₁))
    case inr.inr hs₁ hs₂ =>
      rw [hs₁.eq, hs₂.eq] at h
      exact .inl (String.append_left_inj _ |>.mp h)
  case mpr =>
    have hs {name₁ name₂ : String} (h : Suffixed name₁ name₂) :
        withTypeSuffix name₁ = withTypeSuffix name₂ := by
      rw [withTypeSuffix_of_suffixed h, withTypeSuffix_of_ended (.inr ⟨name₁, h.eq⟩)]
    rintro (rfl | h | h)
    · rfl
    · exact hs h
    · exact (hs h).symm

theorem typeName_eq (type : QName) :
    short.typeName type = withTypeSuffix (short.itemName type) := by
  simp only [short]

theorem not_divides_of_mem_withTypeSuffix {name : String} (h : ∀ c ∈ name.toList, ¬Divides c) :
    ∀ c ∈ (withTypeSuffix name).toList, ¬Divides c := by
  cases withTypeSuffix_cases name
  case inl hw => rwa [hw.right]
  case inr hs =>
    have ht : ∀ c ∈ "Type".toList, ¬Divides c := by simp [Divides]
    intro c hc
    rw [hs.eq, String.toList_append, List.mem_append] at hc
    exact hc.elim (h c) (ht c)

-- With the suffix an identifier stays one, for its first letter is a capital already.
theorem classify_withTypeSuffix {name : String} (hn : ∀ c ∈ name.toList, ¬Divides c)
    (hc : classify name = name) : classify (withTypeSuffix name) = withTypeSuffix name := by
  have hj := not_divides_of_mem_withTypeSuffix hn
  cases withTypeSuffix_cases name
  case inl hw => rw [hw.right, hc]
  case inr hs =>
    rw [hs.eq] at hj ⊢
    have hj : ∀ c ∈ (name ++ "Type").toList, ¬Separates c := fun c hm hd =>
      hj c hm (divides_iff.mpr (.inl hd))
    rw [classify, inflect_append hs.ne_empty hj, ← classify, hc]

theorem byWords_typeName : ByWords QName.name short.typeName := by
  have hi : ByWords QName.name short.itemName := byWords_inflect QName.name .upper
  have hj (type : QName) := not_divides_of_mem_withTypeSuffix (hi.joined type)
  constructor
  case of_words =>
    intro a b ws ha hb
    rw [typeName_eq, typeName_eq, hi.of_words a b ws ha hb]
  case of_respaced =>
    intro a b h
    rw [typeName_eq, typeName_eq, hi.of_respaced a b h]
  case joined =>
    intro a
    rw [typeName_eq]
    exact hj a
  case settled =>
    intro a b h
    have hd : dotless (withTypeSuffix (short.itemName a)) = withTypeSuffix (short.itemName a) :=
      dotless_eq_self fun hc => hj a _ hc (by decide)
    have hc : classify (short.itemName a) = short.itemName a := inflect_inflect _ _ _
    have hb : short.itemName b = classify (dotless b.name) := rfl
    rw [typeName_eq] at h
    rw [typeName_eq, typeName_eq, hb, h, hd, classify_withTypeSuffix (hi.joined a) hc]
    exact withTypeSuffix_of_ended (withTypeSuffix_ended _)

theorem itemName_eq_empty_iff (element : QName) :
    short.itemName element = "" ↔ Words Divides element.name.toList [] := by
  have hw : Words Divides element.name.toList (words Divides element.name.toList) :=
    words_iff.mpr rfl
  have ht : (short.itemName element).toList = ofWords .upper _ := toList_inflect_dotless hw .upper
  rw [← String.toList_eq_nil_iff, ht, words_iff]
  cases hs : words Divides element.name.toList
  case nil => simp [ofWords]
  case cons w ws =>
    have hn : w ≠ [] := hw.ne_nil w (by simp [hs])
    simp [ofWords, hn]

-- Short names are up to the words of the local name. Two types share a name where their items do,
-- or where the item of one lacks the suffix and with it becomes the item of the other.
theorem short_by_words :
    ByWords Part.name short.propertyName ∧ ByWords QName.name short.itemName ∧
    ByWords QName.name short.typeName ∧
    (∀ type : QName,
      (short.typeName type = "" ↔ Words Divides type.name.toList []) ∧
      (¬Words Divides type.name.toList [] → EndsInType (short.typeName type)) ∧
      (short.typeName type = short.itemName type ∨
        short.typeName type = short.itemName type ++ "Type")) ∧
    ∀ type₁ type₂ : QName, short.typeName type₁ = short.typeName type₂ ↔
      short.itemName type₁ = short.itemName type₂ ∨
        Suffixed (short.itemName type₁) (short.itemName type₂) ∨
        Suffixed (short.itemName type₂) (short.itemName type₁) := by
  refine ⟨byWords_inflect Part.name .lower, byWords_inflect QName.name .upper, byWords_typeName,
    fun type => ?suffix, fun type₁ type₂ => ?shared⟩
  case shared =>
    rw [typeName_eq, typeName_eq]
    exact withTypeSuffix_eq_iff
  case suffix =>
    have he := withTypeSuffix_eq_empty_iff.trans (itemName_eq_empty_iff type)
    rw [typeName_eq]
    refine ⟨he, fun hn => ?ended, ?made⟩
    case ended => exact (withTypeSuffix_ended _).resolve_left (mt he.mp hn)
    case made =>
      cases withTypeSuffix_cases (short.itemName type)
      case inl hw => exact .inl hw.right
      case inr hs => exact .inr hs.eq

-- A dot more, and a suffix that is already there.
theorem short_by_words_address :
    short.propertyName (.typed "postal.address" .empty) =
      short.propertyName (.typed "_postal-address" .empty) ∧
    (∀ b : Part, b.name = short.propertyName (.typed "postal.address" .empty) →
      short.propertyName b = short.propertyName (.typed "postal.address" .empty)) ∧
    short.typeName ⟨"", "..."⟩ = "" ∧
    EndsInType (short.typeName ⟨"", "postal.address"⟩) ∧
    short.typeName ⟨"", "postal.address"⟩ = short.typeName ⟨"", "PostalAddress-type"⟩ := by
  have ⟨hp, _, _, ht, he⟩ := short_by_words
  refine ⟨?respaced, fun b => ?settled, ?empty, ?ended, ?shared⟩
  case respaced =>
    have hw : words Divides "postal.address".toList = words Divides "_postal-address".toList := by
      decide +kernel
    exact hp.of_words _ _ _ (words_iff.mpr rfl) (words_iff.mpr hw)
  case settled => exact hp.settled _ b
  case empty   => exact (ht _).left.mpr (words_iff.mpr (by decide +kernel))
  case ended   => exact (ht _).right.left fun h => absurd (words_iff.mp h) (by decide +kernel)
  case shared  =>
    refine (he _ _).mpr (.inr (.inl ⟨by decide +kernel, fun h => ?_, by decide +kernel⟩))
    exact absurd (endsInType_iff.mp h) (by decide +kernel)

end NamingStrategy
end SoapBindings

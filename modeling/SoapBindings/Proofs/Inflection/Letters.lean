import SoapBindings.Proofs.Inflection
-- The letters of an identifier. They are those of the name up to their case, and none of them is a
-- separator. So an identifier is a single word, its own identifier differs from it in the first
-- letter at most, and in its own case it is its own identifier.

namespace SoapBindings

namespace LeadingCase

theorem isUpper_iff_between {c : Char} : c.isUpper ↔ 'A'.val ≤ c.val ∧ c.val ≤ 'Z'.val :=
  decide_eq_true_iff

theorem isLower_iff_between {c : Char} : c.isLower ↔ 'a'.val ≤ c.val ∧ c.val ≤ 'z'.val :=
  Bool.and_eq_true_iff.trans (and_congr decide_eq_true_iff decide_eq_true_iff)

@[grind =]
theorem isUpper_iff {c : Char} : c.isUpper ↔ 65 ≤ c.toNat ∧ c.toNat ≤ 90 :=
  isUpper_iff_between.trans (and_congr UInt32.le_iff_toNat_le UInt32.le_iff_toNat_le)

@[grind =]
theorem isLower_iff {c : Char} : c.isLower ↔ 97 ≤ c.toNat ∧ c.toNat ≤ 122 :=
  isLower_iff_between.trans (and_congr UInt32.le_iff_toNat_le UInt32.le_iff_toNat_le)

@[grind =]
theorem isAlpha_iff {c : Char} : c.isAlpha ↔ c.isUpper ∨ c.isLower :=
  Bool.or_eq_true_iff

-- A letter is 32 code points away from itself in the other case.
@[grind =]
theorem toNat_apply_lower (c : Char) :
    (lower.apply c).toNat = if c.isUpper then c.toNat + 32 else c.toNat := by
  by_cases h : c.isUpper
  case pos =>
    have hn := isUpper_iff.mp h
    have hv : (c.val + 32).toNat = c.toNat + 32 := by
      simp only [UInt32.toNat_add, Char.toNat_val, UInt32.reduceToNat]
      omega
    rw [if_pos h, ← hv]
    exact congrArg Char.toNat (dif_pos (isUpper_iff_between.mp h))
  case neg =>
    rw [if_neg h]
    exact congrArg Char.toNat (dif_neg (mt isUpper_iff_between.mpr h))

-- The difference is taken in 32 bits, where it is added as its complement.
@[grind =]
theorem toNat_apply_upper (c : Char) :
    (upper.apply c).toNat = if c.isLower then c.toNat - 32 else c.toNat := by
  by_cases h : c.isLower
  case pos =>
    have hn := isLower_iff.mp h
    have hv : (c.val + ('A'.val - 'a'.val)).toNat = c.toNat - 32 := by
      simp only [UInt32.toNat_add, Char.toNat_val, Char.reduceVal, UInt32.reduceSub,
        UInt32.reduceToNat]
      omega
    rw [if_pos h]
    exact (congrArg Char.toNat (dif_pos (isLower_iff_between.mp h))).trans hv
  case neg =>
    rw [if_neg h]
    exact congrArg Char.toNat (dif_neg (mt isLower_iff_between.mpr h))

theorem apply_apply (case₁ case₂ : LeadingCase) (c : Char) :
    case₂.apply (case₁.apply c) = case₂.apply c := by
  apply Char.toNat_inj.mp
  cases case₁ <;> cases case₂ <;> grind

-- What an identifier of a case may begin with: all but the ASCII letters of the other case.
def Fits : LeadingCase → Char → Prop
  | .lower, c => ¬c.isUpper
  | .upper, c => ¬c.isLower

theorem apply_eq_self_iff {case : LeadingCase} {c : Char} : case.apply c = c ↔ case.Fits c := by
  rw [← Char.toNat_inj]
  cases case
  case lower => grind [Fits]
  case upper => grind [Fits]

-- What is no letter has no other case, and no letter becomes it.
theorem eq_of_apply_eq (case : LeadingCase) {c d : Char} (hd : ¬d.isAlpha)
    (h : case.apply c = d) : c = d := by
  subst h
  have hf : case.Fits c := by
    cases case
    case lower => grind [Fits]
    case upper => grind [Fits]
  exact (apply_eq_self_iff.mpr hf).symm

end LeadingCase

namespace Inflection

variable {c : Char} {cs : List Char} {case : LeadingCase}

theorem Separates.not_isAlpha (h : Separates c) : ¬c.isAlpha := by
  simp only [Separates, List.mem_cons, List.not_mem_nil, or_false] at h
  obtain rfl | rfl | rfl := h <;> decide

theorem mem_continuation {fresh : Bool} (hc : ¬c.isAlpha) (h : c ∈ continuation fresh cs) :
    c ∈ cs ∧ ¬Separates c := by
  induction cs generalizing fresh
  case nil => cases h
  case cons d cs hi =>
    rw [continuation] at h
    split at h
    case isTrue hd =>
      obtain ⟨hm, hn⟩ := hi h
      exact ⟨.tail d hm, hn⟩
    case isFalse hd =>
      cases h
      case tail h =>
        obtain ⟨hm, hn⟩ := hi h
        exact ⟨.tail d hm, hn⟩
      case head =>
        have he : d = if fresh then d.toUpper else d := by
          cases fresh
          case false => rfl
          case true  => exact LeadingCase.eq_of_apply_eq .upper hc rfl
        rw [← he]
        exact ⟨.head cs, mt separates_iff.mp hd⟩

theorem mem_letters (hc : ¬c.isAlpha) (h : c ∈ letters case cs) : c ∈ cs ∧ ¬Separates c := by
  induction cs
  case nil => cases h
  case cons d cs hi =>
    rw [letters] at h
    split at h
    case isTrue hd =>
      obtain ⟨hm, hn⟩ := hi h
      exact ⟨.tail d hm, hn⟩
    case isFalse hd =>
      cases h
      case tail h =>
        obtain ⟨hm, hn⟩ := mem_continuation hc h
        exact ⟨.tail d hm, hn⟩
      case head =>
        rw [← LeadingCase.eq_of_apply_eq case hc rfl]
        exact ⟨.head cs, mt separates_iff.mp hd⟩

theorem letters_joined (h : ∀ c ∈ cs, ¬Separates c) (case : LeadingCase) :
    letters case cs = cs.modifyHead case.apply := by
  by_cases hn : cs = []
  case pos => exact hn ▸ rfl
  case neg =>
    have hw : letters case (cs ++ []) = _ := letters_word hn h (by simp) case
    simpa [continuation] using hw

theorem modifyHead_letters (case₁ case₂ : LeadingCase) (cs : List Char) :
    (letters case₁ cs).modifyHead case₂.apply = letters case₂ cs := by
  induction cs
  case nil => rfl
  case cons c cs hi =>
    rw [letters, letters]
    split
    case isTrue  => exact hi
    case isFalse => rw [List.modifyHead_cons, LeadingCase.apply_apply]

end Inflection

open Inflection

variable {c : Char} {case : LeadingCase} {name : String}

theorem toList_inflect (case : LeadingCase) (name : String) :
    (inflect case name).toList = letters case name.toList :=
  String.toList_ofList

theorem mem_inflect (hc : ¬c.isAlpha) (h : c ∈ (inflect case name).toList) :
    c ∈ name.toList ∧ ¬Separates c :=
  mem_letters hc (toList_inflect case name ▸ h)

theorem not_separates_of_mem_inflect (h : c ∈ (inflect case name).toList) : ¬Separates c :=
  fun hs => (mem_inflect hs.not_isAlpha h).right hs

theorem inflect_joined (h : ∀ c ∈ name.toList, ¬Separates c) (case : LeadingCase) :
    (inflect case name).toList = name.toList.modifyHead case.apply := by
  rw [toList_inflect, letters_joined h]

theorem inflect_append {rest : String} (hn : name ≠ "")
    (h : ∀ c ∈ (name ++ rest).toList, ¬Separates c) (case : LeadingCase) :
    inflect case (name ++ rest) = inflect case name ++ rest := by
  have hs : ∀ c ∈ name.toList, ¬Separates c := fun c hc => h c (by simp [hc])
  apply String.toList_inj.mp
  rw [inflect_joined h, String.toList_append, String.toList_append, inflect_joined hs]
  cases hc : name.toList
  case nil  => exact absurd (String.toList_eq_nil_iff.mp hc) hn
  case cons => rfl

-- The later case decides.
theorem inflect_inflect (case₁ case₂ : LeadingCase) (name : String) :
    inflect case₂ (inflect case₁ name) = inflect case₂ name := by
  apply String.toList_inj.mp
  rw [inflect_joined fun _ => not_separates_of_mem_inflect, toList_inflect, toList_inflect,
    modifyHead_letters]

-- So names with one identifier in a case have one identifier in each case.
theorem inflect_eq_of_inflect_eq {case₁ : LeadingCase} {name₁ name₂ : String}
    (h : inflect case₁ name₁ = inflect case₁ name₂) (case₂ : LeadingCase) :
    inflect case₂ name₁ = inflect case₂ name₂ := by
  rw [← inflect_inflect case₁, h, inflect_inflect]

-- A text that can be an identifier as it is. The empty text is one, of both cases.
structure IsIdentifier (case : LeadingCase) (s : String) : Prop where
  joined  : ∀ c ∈ s.toList, ¬Separates c
  leading : ∀ c ∈ s.toList.head?, case.Fits c

theorem modifyHead_eq_self_iff {α : Type} {f : α → α} {l : List α} :
    l.modifyHead f = l ↔ ∀ a ∈ l.head?, f a = a := by
  cases l <;> simp

theorem inflect_eq_self_iff {s : String} : inflect case s = s ↔ IsIdentifier case s := by
  have hi (hj : ∀ c ∈ s.toList, ¬Separates c) :
      inflect case s = s ↔ ∀ c ∈ s.toList.head?, case.Fits c := by
    rw [← String.toList_inj, inflect_joined hj, modifyHead_eq_self_iff]
    simp only [LeadingCase.apply_eq_self_iff]
  constructor
  case mp =>
    intro h
    have hj : ∀ c ∈ s.toList, ¬Separates c := fun c hc =>
      not_separates_of_mem_inflect (h.symm ▸ hc)
    exact ⟨hj, (hi hj).mp h⟩
  case mpr => exact fun h => (hi h.joined).mpr h.leading

-- All identifiers of a case are such texts.
theorem exists_inflect_eq_iff {s : String} :
    (∃ name, inflect case name = s) ↔ inflect case s = s := by
  constructor
  case mp  => exact fun ⟨name, h⟩ => h ▸ inflect_inflect case case name
  case mpr => exact fun h => ⟨s, h⟩

end SoapBindings

import SoapBindings.Proofs.Generator.ClassNames
-- Methods are named in lower case and classes in upper case. Each of the two identifiers of a name
-- determines the other one, so methods share a name where classes do.

namespace SoapBindings

open BaseNamespaces (Key)

theorem camelize_eq_iff_classify_eq {name₁ name₂ : String} :
    camelize name₁ = camelize name₂ ↔ classify name₁ = classify name₂ := by
  constructor
  case mp  => exact fun h => inflect_eq_of_inflect_eq h .upper
  case mpr => exact fun h => inflect_eq_of_inflect_eq h .lower

namespace Generator

namespace Descriptor

variable {g : Generator}

theorem method_eq (x : g.Descriptor) : x.record.method = camelize x.operation.name := by
  rw [record_eq]
  rfl

-- Below one namespace the classes of a direction are told apart by their identifiers alone.
theorem className_eq_iff {x y : g.Descriptor} {k l : Key} (hd : x.direction = y.direction)
    (hn : x.host ++ g.base.get k = y.host ++ g.base.get l) :
    x.className k = y.className l ↔ classify x.source = classify y.source := by
  rw [className_eq, className_eq, hn, hd, String.append_left_inj, String.append_right_inj]

end Descriptor

-- Of two cases in a row the later one decides. The identifiers of a case are the texts that it
-- leaves as they are, which are those without a separator and without a first letter in the other
-- case. Two names share an identifier in both cases or in neither. So operations that own their
-- messages share the name of a method exactly where they share that of a class.
theorem inflect_by_case :
    (∀ case₁ case₂ name, inflect case₂ (inflect case₁ name) = inflect case₂ name) ∧
    (∀ case s,
      ((∃ name, inflect case name = s) ↔ inflect case s = s) ∧
      (inflect case s = s ↔ IsIdentifier case s)) ∧
    (∀ name₁ name₂, camelize name₁ = camelize name₂ ↔ classify name₁ = classify name₂) ∧
    ∀ (g : Generator) (x y : g.Descriptor) (k l : Key),
      x.source = x.operation.name → y.source = y.operation.name →
      x.direction = y.direction → x.host ++ g.base.get k = y.host ++ g.base.get l →
        (x.record.method = y.record.method ↔ x.className k = y.className l) := by
  refine ⟨inflect_inflect, fun case s => ⟨exists_inflect_eq_iff, inflect_eq_self_iff⟩,
    fun _ _ => camelize_eq_iff_classify_eq, fun g x y k l hx hy hd hn => ?generated⟩
  case generated =>
    rw [Descriptor.className_eq_iff hd hn, hx, hy, x.method_eq, y.method_eq]
    exact camelize_eq_iff_classify_eq

open Departments in
theorem inflect_by_case_departments :
    inflect .upper "GetItem" = "GetItem" ∧ (¬∃ name, inflect .lower name = "GetItem") ∧
    (inShop .input).record.method = (inDepot .input).record.method ∧
    (inShop .input).className .messages = (inDepot .input).className .parts := by
  obtain ⟨_, hi, hc, hg⟩ := inflect_by_case
  have hm := hg generator (inShop .input) (inDepot .input) .messages .parts rfl rfl rfl (by decide)
  have hs : (inShop .input).record.method = (inDepot .input).record.method :=
    (hc "get_item" "GetItem").mpr (by decide)
  have hj : IsIdentifier .upper "GetItem" :=
    ⟨by simp [Inflection.Separates], by simp [LeadingCase.Fits]⟩
  refine ⟨(hi .upper "GetItem").right.mpr hj, fun h => ?_, hs, hm.mp hs⟩
  obtain ⟨_, hl⟩ := (hi .lower "GetItem").right.mp ((hi .lower "GetItem").left.mp h)
  exact hl 'G' rfl rfl

end Generator
end SoapBindings

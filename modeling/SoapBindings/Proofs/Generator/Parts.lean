import SoapBindings.Proofs.Generator.Script
-- What becomes of the parts of a message. The last part with a property is in the table of the
-- message, and each earlier one has its name replaced, of which there is a record.

namespace SoapBindings

-- The question for the name of what a part refers to.
def Part.reference (part : Part) : Inquiry :=
  match part.type, part.element with
  | some type, _            => .type type
  | none,      some element => .item element
  | none,      none         => .item .empty

namespace Event

def isReplacement : Event → Bool
  | notice (.replacedName ..) => true
  | _                         => false

def inquiry? : Event → Option Inquiry
  | inquiry q => some q
  | notice _  => none

end Event

namespace Journaled

variable {α β σ : Type}

theorem foldlM_append_singleton (step : σ → α → Journaled σ) (s : σ) (l : List α) (a : α) :
    (l ++ [a]).foldlM step s = l.foldlM step s >>= fun s => step s a := by
  induction l generalizing s
  case nil => simp [bind, pure]
  case cons b l hi =>
    rw [List.cons_append, List.foldlM_cons, List.foldlM_cons]
    simp [bind, hi]

-- The records of names that were replaced.
def replacements (x : Journaled α) : List Sight :=
  (x.events.filter Event.isReplacement).map Event.sight

def inquiries (x : Journaled α) : List Inquiry :=
  x.events.filterMap Event.inquiry?

@[simp] theorem replacements_pure (a : α) : (pure a : Journaled α).replacements = [] := rfl

@[simp] theorem replacements_bind (x : Journaled α) (f : α → Journaled β) :
    (x >>= f).replacements = x.replacements ++ (f x.value).replacements := by
  simp [replacements]

@[simp] theorem inquiries_pure (a : α) : (pure a : Journaled α).inquiries = [] := rfl

@[simp] theorem inquiries_bind (x : Journaled α) (f : α → Journaled β) :
    (x >>= f).inquiries = x.inquiries ++ (f x.value).inquiries := by
  simp [inquiries]

end Journaled

namespace Generator

open Journaled

variable {naming : NamingStrategy} {parts : List Part} {g : Generator}

theorem partTable_append_singleton (g : Generator) (parts : List Part) (part : Part) :
    g.partTable (parts ++ [part]) = g.partTable parts >>= fun table => g.addPart table part :=
  foldlM_append_singleton g.addPart ∅ parts part

theorem inquiries_referenceName (g : Generator) (part : Part) :
    (g.referenceName part).inquiries = [part.reference] := by
  cases ht : part.type <;> cases he : part.element <;>
    simp only [referenceName, Part.reference, ht, he] <;> rfl

theorem inquiries_addPart (g : Generator) (table : StringMap String) (part : Part) :
    (g.addPart table part).inquiries = [.property part, part.reference] := by
  have hp : (g.propertyName part).inquiries = [.property part] := rfl
  have hn (n : Notice) : (note n).inquiries = [] := rfl
  cases hf : table.find? (g.propertyName part).value <;>
    simp [addPart, hp, hn, hf, inquiries_referenceName]

theorem replacements_referenceName (g : Generator) (part : Part) :
    (g.referenceName part).replacements = [] := by
  cases ht : part.type <;> cases he : part.element <;>
    simp only [referenceName, ht, he] <;> rfl

theorem replacements_addPart (g : Generator) (table : StringMap String) (part : Part) :
    (g.addPart table part).replacements =
      ((table.find? (g.naming.propertyName part)).map fun previous =>
        Script.replaced part previous (g.naming.propertyName part)).toList := by
  have hp : (g.propertyName part).replacements = [] := rfl
  have hn (previous property : String) :
      (note (.replacedName part.name previous property)).replacements =
        [Script.replaced part previous property] :=
    congrArg ([·]) (sight_replacedName part previous property)
  cases hf : table.find? (g.naming.propertyName part) <;>
    simp [addPart, value_propertyName, hp, hn, hf, replacements_referenceName]

theorem inquiries_partTable (g : Generator) (parts : List Part) :
    (g.partTable parts).inquiries = parts.flatMap fun part => [.property part, part.reference] := by
  induction parts using List.reverseRecOn
  case nil => rfl
  case append_singleton parts part hi =>
    rw [partTable_append_singleton, inquiries_bind, hi, inquiries_addPart]
    simp

-- A part adds an entry to the table or a record to the report.
theorem size_partTable (g : Generator) (parts : List Part) :
    (g.partTable parts).value.size + (g.partTable parts).replacements.length = parts.length := by
  induction parts using List.reverseRecOn
  case nil => rfl
  case append_singleton parts part hi =>
    rw [partTable_append_singleton, value_bind, value_addPart, StringMap.size_insert,
      replacements_bind, replacements_addPart]
    cases (g.partTable parts).value.find? (g.naming.propertyName part) <;> simp <;> omega

-- The part at a place has the property of an earlier part.
def Retakes (naming : NamingStrategy) (parts : List Part) (i : Nat) : Prop :=
  ∃ part, parts[i]? = some part ∧
    ∃ earlier ∈ parts.take i, naming.propertyName earlier = naming.propertyName part

inductive Replaced (naming : NamingStrategy) (parts : List Part) : Nat → Sight → Prop
  | intro {i part previous} (hp : parts[i]? = some part)
    (hl : Last (naming.propertyName · = naming.propertyName part) (parts.take i) previous) :
    Replaced naming parts i
      (Script.replaced part (naming.referredName previous) (naming.propertyName part))

theorem Retakes.lt_length {i : Nat} (h : Retakes naming parts i) : i < parts.length :=
  have ⟨_, hp, _⟩ := h
  (List.getElem?_eq_some_iff.mp hp).1

theorem retakes_append_singleton {part : Part} {i : Nat} :
    Retakes naming (parts ++ [part]) i ↔ Retakes naming parts i ∨ i = parts.length ∧
      ∃ earlier ∈ parts, naming.propertyName earlier = naming.propertyName part := by
  rcases Nat.lt_trichotomy i parts.length with hi | hi | hi
  · have ht : (parts ++ [part]).take i = parts.take i := List.take_append_of_le_length hi.le
    simp [Retakes, List.getElem?_append_left hi, ht, hi.ne]
  · simp [hi, Retakes]
  · have hn : (parts ++ [part])[i]? = none := by simp; omega
    have hn' : parts[i]? = none := by simp; omega
    simp [Retakes, hn, hn', hi.ne']

theorem Replaced.append_singleton {i : Nat} {s : Sight} (h : Replaced naming parts i s)
    (part : Part) : Replaced naming (parts ++ [part]) i s := by
  cases h
  case intro hp hl =>
    have hi : i < parts.length := (List.getElem?_eq_some_iff.mp hp).1
    refine .intro ?_ ?_
    · rw [List.getElem?_append_left hi, hp]
    · rwa [List.take_append_of_le_length hi.le]

-- The next part has a record if its property is in the table, and no other part has one.
theorem replacements_partTable (g : Generator) (parts : List Part) :
    ∃ places : List Nat, places.Pairwise (· < ·) ∧
      (∀ i, i ∈ places ↔ Retakes g.naming parts i) ∧
      List.Forall₂ (Replaced g.naming parts) places (g.partTable parts).replacements := by
  induction parts using List.reverseRecOn
  case nil => exact ⟨[], .nil, by simp [Retakes], .nil⟩
  case append_singleton parts part hi =>
    have ⟨places, hp, hm, hr⟩ := hi
    have hr' := hr.imp fun _ _ h => h.append_singleton part
    rw [partTable_append_singleton, replacements_bind, replacements_addPart, value_partTable,
      partNames, StringMap.find?_tabulate]
    cases hf : parts.findRev? (g.naming.propertyName · = g.naming.propertyName part)
    case none =>
      have hn : ¬∃ earlier ∈ parts, g.naming.propertyName earlier = g.naming.propertyName part := by
        rw [← findRev?_isSome_iff, hf]
        simp
      refine ⟨places, hp, fun i => ?_, ?_⟩
      · rw [hm, retakes_append_singleton, or_iff_left fun h => hn h.right]
      · simpa using hr'
    case some previous =>
      have hl := findRev?_eq_some_iff.mp hf
      refine ⟨places ++ [parts.length], ?_, fun i => ?_, ?_⟩
      · refine List.pairwise_append.mpr ⟨hp, List.pairwise_singleton _ _, fun i hi j hj => ?_⟩
        exact List.mem_singleton.mp hj ▸ ((hm i).mp hi).lt_length
      · rw [List.mem_append, hm, List.mem_singleton, retakes_append_singleton,
          and_iff_left ⟨previous, hl.mem, hl.holds⟩]
      · refine List.rel_append hr' (.cons ?_ .nil)
        exact .intro (by simp) (by simpa using hl)

-- What is known of a table that has been made of a list of parts, and of the report about it.
structure Accounts (naming : NamingStrategy) (parts : List Part)
    (x : Journaled (StringMap String)) : Prop where
  table        : Tabulated naming.propertyName (fun part name => name = naming.referredName part)
    parts x.value.find?
  count        : x.value.size + x.replacements.length = parts.length
  replacements : ∃ places : List Nat, places.Pairwise (· < ·) ∧
    (∀ i, i ∈ places ↔ Retakes naming parts i) ∧
    List.Forall₂ (Replaced naming parts) places x.replacements
  inquiries    : x.inquiries = parts.flatMap fun part => [.property part, part.reference]

-- No part is lost without a record.
theorem partTable_accounts (g : Generator) (parts : List Part) :
    Accounts g.naming parts (g.partTable parts) where
  table := by
    rw [value_partTable]
    exact StringMap.tabulated_tabulate fun _ _ _ => .rfl
  count        := g.size_partTable parts
  replacements := g.replacements_partTable parts
  inquiries    := g.inquiries_partTable parts

end Generator
end SoapBindings

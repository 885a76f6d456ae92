import SoapBindings.Json.Reader
import SoapBindings.Proofs.Except
import SoapBindings.Proofs.Json.Conformance
import SoapBindings.Proofs.Json.Outline
-- A document is read as a value of a shape exactly if it holds this value.

namespace SoapBindings.Json

-- Skipped values.
mutual

theorem Depicts.skip : {d : Document} → {o : Outline} → Depicts d o → o.skip = .ok ()
  | .null,           _, .null      => rfl
  | .boolean _,      _, .boolean _ => rfl
  | .number _,       _, .number _  => rfl
  | .string _,       _, .string _  => rfl
  | .array items,    _, .array h   => by
    rw [Outline.skip, Depicts.skipItems items h]
    rfl
  | .object members, _, .object h  => by
    rw [Outline.skip, Depicts.skipMembers members h]
    rfl

theorem Depicts.skipItems : (items : List Document) → {outlines : List Outline} →
    List.Forall₂ Depicts items outlines → Outline.skipItems outlines = .ok ()
  | [],            _, .nil       => rfl
  | _ :: items, _, .cons hd h => by
    rw [Outline.skipItems, hd.skip]
    exact Depicts.skipItems items h

theorem Depicts.skipMembers : (members : List (String × Document)) →
    {outlines : List (List CodeUnit × Outline)} →
    List.Forall₂ DepictsMember members outlines → Outline.skipMembers outlines = .ok ()
  | [],           _, .nil                    => rfl
  | (_, _) :: members, _, .cons (.intro _ hd) h => by
    rw [Outline.skipMembers, hd.skip]
    exact Depicts.skipMembers members h

end

-- A shape whose values are read from the documents that hold them, and from no others.
def Shape.Faithful (shape : Shape) : Prop :=
  ∀ ⦃d o⦄, Depicts d o → ∀ value, shape.read o = .ok value ↔ shape.Holds d value

def Fields.Faithful : Fields → Prop
  | .nil                 => True
  | .cons _ _ shape rest => shape.Faithful ∧ rest.Faithful

namespace Need

variable {α : Type}

theorem absent_eq_some_iff {need : Need} {blank : α} (holds : Document → α → Prop)
    {value : need.Held α} :
    need.absent blank = some value ↔ need.Holds blank holds none value := by
  cases need
  case required  => exact ⟨fun h => (nomatch h), fun ⟨_, h, _⟩ => nomatch h⟩
  case optional  => simp [absent, Holds, Document.Optional, eq_comm]
  case defaulted => simp [absent, Holds, Document.Defaulted, eq_comm]

-- A field is read from a value that is there as the shape of the field reads it. A null is not a
-- value of any shape, so it leaves an optional field out in one way only.
theorem read_eq_ok_iff {need : Need} {readValue : Outline → Read α} (blank : α)
    {holds : Document → α → Prop} {d : Document} {o : Outline} (hd : Depicts d o)
    (hr : ∀ a, readValue o = .ok a ↔ holds d a) (hn : ∀ a, ¬holds .null a) {value : need.Held α} :
    need.read readValue o = .ok value ↔ need.Holds blank holds (some d) value := by
  cases need
  case required  => simp [read, Holds, Document.Required, hr]
  case defaulted => simp [read, Holds, Document.Defaulted, hr]
  case optional  =>
    by_cases ho : d = .null
    case pos =>
      subst ho
      cases hd
      simp [read, Holds, Document.Optional, hn, pure, Except.pure, eq_comm]
    case neg =>
      have hs : read readValue .optional o = some <$> readValue o := by
        cases hd <;> first | exact absurd rfl ho | rfl
      rw [hs, Except.map_eq_ok_iff]
      simp [Holds, Document.Optional, hr, ho, eq_comm]

end Need

namespace Fields

open Document

-- What a draft comes to with more members: a field that has a value already keeps it, and there
-- must not be another one for it.
def HoldsFrom : (fields : Fields) → fields.Draft → List (String × Document) → fields.Value → Prop
  | .nil,                        (),            _,       ()              => True
  | .cons name need shape rest, (slot, slots), members, (value, values) =>
    (match slot with
      | some taken => named name members = [] ∧ value = taken
      | none       => ∃ slot : Option Document, named name members = slot.toList ∧
        need.Holds shape.blank shape.Holds slot value) ∧
    rest.HoldsFrom slots members values

theorem holdsFrom_vacant : (fields : Fields) → (members : List (String × Document)) →
    {value : fields.Value} → (fields.HoldsFrom fields.vacant members value ↔
      ∃ slots, HasFields fields.names (.object members) slots ∧ fields.Holds slots value)
  | .nil, members, () => by
    simp [HoldsFrom, hasFields_object_iff, names, Holds]
  | .cons name need shape rest, members, (value, values) => by
    simp only [HoldsFrom, vacant, holdsFrom_vacant rest, hasFields_object_iff, names, Holds,
      List.forall₂_cons_left_iff]
    constructor
    case mp =>
      rintro ⟨⟨slot, hs, hv⟩, slots, hm, hvs⟩
      exact ⟨_, ⟨slot, slots, hs, hm, rfl⟩, slot, slots, rfl, hv, hvs⟩
    case mpr =>
      rintro ⟨_, ⟨slot, slots, hs, hm, he⟩, slot', slots', he', hv, hvs⟩
      cases he.symm.trans he'
      exact ⟨⟨slot, hs, hv⟩, slots, hm, hvs⟩

theorem complete_eq_ok_iff : (fields : Fields) → {draft : fields.Draft} → {value : fields.Value} →
    (fields.complete draft = .ok value ↔ fields.HoldsFrom draft [] value)
  | .nil, (), () => ⟨fun _ => trivial, fun _ => rfl⟩
  | .cons name need shape rest, (some taken, slots), (value, values) => by
    have hc : complete (.cons name need shape rest) (some taken, slots) =
        rest.complete slots >>= fun values => pure (taken, values) := rfl
    rw [hc, Except.pair_eq_ok_iff, complete_eq_ok_iff rest]
    simp [HoldsFrom, named]
  | .cons name need shape rest, (none, slots), (value, values) => by
    have hh : HoldsFrom (.cons name need shape rest) (none, slots) [] (value, values) ↔
        need.absent shape.blank = some value ∧ rest.HoldsFrom slots [] values := by
      rw [Need.absent_eq_some_iff shape.Holds]
      simp [HoldsFrom, named]
    rw [hh, ← complete_eq_ok_iff rest]
    simp only [complete, Option.none_or]
    cases need.absent shape.blank
    case none   =>
      constructor <;> intro h
      case mp  => cases h
      case mpr => cases h.left
    case some v =>
      rw [Except.pair_eq_ok_iff, Option.some.injEq, eq_comm]

-- A field that does not have the name of a member holds the same without this member.
theorem holdsFrom_cons_of_notMem : (fields : Fields) → {draft : fields.Draft} → {key : String} →
    {d : Document} → {members : List (String × Document)} → {value : fields.Value} →
    key ∉ fields.names →
    (fields.HoldsFrom draft ((key, d) :: members) value ↔ fields.HoldsFrom draft members value)
  | .nil, (), _, _, _, (), _ => .rfl
  | .cons name need shape rest, (slot, slots), key, d, members, (value, values), h => by
    have ⟨hk, hm⟩ := List.ne_and_not_mem_of_not_mem_cons h
    simp only [HoldsFrom, named_cons, if_neg hk, holdsFrom_cons_of_notMem rest hm]

theorem cons_eq_toList_iff {d : Document} {l : List Document} {slot : Option Document} :
    d :: l = slot.toList ↔ slot = some d ∧ l = [] := by
  cases slot <;> simp [eq_comm]

section

variable {name key : String} {need : Need} {shape : Shape} {rest : Fields} {o : Outline}
variable {slot : Option (need.Held shape.Value)} {slots : rest.Draft}

theorem readMember_taken {taken : need.Held shape.Value} :
    readMember (.cons name need shape rest) name o (some taken, slots) =
      .error (.duplicateField name) := by
  simp [readMember, throw, throwThe, MonadExceptOf.throw]

theorem readMember_vacant :
    readMember (.cons name need shape rest) name o (none, slots) =
      need.read shape.read o >>= fun value => pure (some value, slots) := by
  simp [readMember]

theorem readMember_of_ne (hk : name ≠ key) :
    readMember (.cons name need shape rest) key o (slot, slots) =
      rest.readMember key o slots >>= fun slots => pure (slot, slots) := by
  simp [readMember, hk]

-- A vacant field has its value from the only member of its name.
theorem holdsFrom_cons_vacant_iff {d : Document} {members : List (String × Document)}
    {value : need.Held shape.Value} {values : rest.Value} (hm : name ∉ rest.names) :
    HoldsFrom (.cons name need shape rest) (none, slots) ((name, d) :: members) (value, values) ↔
      (need.Holds shape.blank shape.Holds (some d) value ∧ named name members = []) ∧
        rest.HoldsFrom slots members values := by
  simp only [HoldsFrom, named_cons, if_pos, holdsFrom_cons_of_notMem rest hm, cons_eq_toList_iff]
  constructor
  case mp  => exact fun ⟨⟨_, ⟨he, hl⟩, hv⟩, hvs⟩ => ⟨⟨he ▸ hv, hl⟩, hvs⟩
  case mpr => exact fun ⟨⟨hv, hl⟩, hvs⟩ => ⟨⟨some d, ⟨rfl, hl⟩, hv⟩, hvs⟩

end

-- Reading one member brings to a draft what the member has for it.
theorem readMember_iff : (fields : Fields) → fields.Faithful → fields.names.Nodup →
    {draft : fields.Draft} → {key : String} → {d : Document} → {o : Outline} → Depicts d o →
    {members : List (String × Document)} → {value : fields.Value} →
    ((∃ draft', fields.readMember key o draft = .ok draft' ∧
      fields.HoldsFrom draft' members value) ↔ fields.HoldsFrom draft ((key, d) :: members) value)
  | .nil, _, _, (), _, _, _, hd, _, () =>
    ⟨fun _ => trivial, fun _ => ⟨(), hd.skip, trivial⟩⟩
  | .cons name need shape rest, hf, hn, (slot, slots), key, d, o, hd, members, (value, values) => by
    have ⟨hs, hf⟩ := hf
    have ⟨hm, hn⟩ := List.nodup_cons.mp hn
    by_cases hk : name = key
    case pos =>
      subst hk
      cases slot
      case some taken => simp [readMember_taken, HoldsFrom, named_cons]
      case none =>
        rw [holdsFrom_cons_vacant_iff hm, readMember_vacant,
          ← Need.read_eq_ok_iff shape.blank hd (hs hd) shape.not_holds_null]
        simp only [Except.bind_eq_ok_iff]
        constructor
        case mp =>
          rintro ⟨_, ⟨taken, hv, he⟩, h⟩
          cases he
          obtain ⟨⟨hl, he⟩, hvs⟩ := h
          exact ⟨⟨he ▸ hv, hl⟩, hvs⟩
        case mpr =>
          rintro ⟨⟨hv, hl⟩, hvs⟩
          exact ⟨_, ⟨value, hv, rfl⟩, ⟨hl, rfl⟩, hvs⟩
    case neg =>
      simp only [readMember_of_ne hk, HoldsFrom, named_cons, if_neg (Ne.symm hk),
        ← readMember_iff rest hf hn hd, Except.bind_eq_ok_iff]
      constructor
      case mp =>
        rintro ⟨_, ⟨slots', hr, he⟩, h⟩
        cases he
        exact ⟨h.left, slots', hr, h.right⟩
      case mpr =>
        rintro ⟨hv, slots', hr, hvs⟩
        exact ⟨_, ⟨slots', hr, rfl⟩, hv, hvs⟩

-- The members of an object are read one after the other.
theorem readMembers_iff (fields : Fields) (hf : fields.Faithful) (hn : fields.names.Nodup)
    {members : List (String × Document)} {outlines : List (List CodeUnit × Outline)}
    (h : List.Forall₂ DepictsMember members outlines) {draft : fields.Draft}
    {value : fields.Value} :
    (∃ draft', outlines.foldlM (fun draft (key, o) => do
        fields.readMember (← readString key) o draft) draft = .ok draft' ∧
      fields.complete draft' = .ok value) ↔ fields.HoldsFrom draft members value := by
  induction h generalizing draft
  case nil =>
    rw [← complete_eq_ok_iff]
    exact ⟨fun ⟨_, hd, hv⟩ => Except.ok.inj hd ▸ hv, fun hv => ⟨draft, rfl, hv⟩⟩
  case cons member outline members outlines hd h hi =>
    cases hd
    case intro name d key o hk hd =>
      have hr (draft : fields.Draft) : (do fields.readMember (← readString key) o draft) =
          fields.readMember name o draft := by
        simp only [readString, hk]
        rfl
      rw [← readMember_iff fields hf hn hd]
      simp only [List.foldlM_cons, hr, Except.bind_eq_ok_iff, ← hi]
      constructor
      case mp =>
        intro ⟨draft₂, ⟨draft₁, h₁, h₂⟩, hv⟩
        exact ⟨draft₁, h₁, draft₂, h₂, hv⟩
      case mpr =>
        intro ⟨draft₁, h₁, draft₂, h₂, hv⟩
        exact ⟨draft₂, ⟨draft₁, h₁, h₂⟩, hv⟩

-- The items of an array are read field by field.
theorem readItems_eq_ok_iff (record : String) (count : Nat) : (fields : Fields) →
    fields.Faithful → {index : Nat} → {items : List Document} → {outlines : List Outline} →
    List.Forall₂ Depicts items outlines → {value : fields.Value} →
    (fields.readItems record count index outlines .closed = .ok value ↔
      ∃ slots, HasFields fields.names (.array items) slots ∧ fields.Holds slots value)
  | .nil, _, _, _, _, .nil, () =>
    ⟨fun _ => ⟨[], hasFields_array_iff.mpr ⟨0, rfl, rfl⟩, rfl⟩, fun _ => rfl⟩
  | .nil, _, _, _, _, .cons _ _, () => by
    constructor
    case mp  => intro h; cases h
    case mpr =>
      rintro ⟨_, h, _⟩
      obtain ⟨_, h, _⟩ := hasFields_array_iff.mp h
      simp [names] at h
  | .cons name need shape rest, hf, index, _, _, .nil, (value, values) => by
    have hh : (∃ slots, HasFields (names (.cons name need shape rest)) (.array []) slots ∧
        Holds (.cons name need shape rest) slots (value, values)) ↔
        need.absent shape.blank = some value ∧
          rest.readItems record count (index + 1) [] .closed = .ok values := by
      rw [Need.absent_eq_some_iff shape.Holds, readItems_eq_ok_iff record count rest hf.right .nil]
      simp only [names, Holds, hasFields_array_nil_iff]
      constructor
      case mp =>
        rintro ⟨_, ⟨more, hs, hm⟩, _, _, he, hv, hvs⟩
        cases hs.symm.trans he
        exact ⟨hv, more, hm, hvs⟩
      case mpr =>
        rintro ⟨hv, more, hm, hvs⟩
        exact ⟨_, ⟨more, rfl, hm⟩, none, more, rfl, hv, hvs⟩
    rw [hh]
    simp only [readItems]
    cases need.absent shape.blank
    case none   =>
      constructor <;> intro h
      case mp  => cases h
      case mpr => cases h.left
    case some v => rw [Except.pair_eq_ok_iff, Option.some.injEq, eq_comm]
  | .cons name need shape rest, hf, index, d :: items, o :: outlines, .cons hd h,
      (value, values) => by
    rw [readItems, Except.bind_eq_ok_iff]
    simp only [Except.pair_eq_ok_iff, names, Holds, hasFields_array_cons_iff,
      Need.read_eq_ok_iff shape.blank hd (hf.left hd) shape.not_holds_null,
      readItems_eq_ok_iff record count rest hf.right h]
    constructor
    case mp =>
      rintro ⟨_, hv, he, more, hm, hvs⟩
      exact ⟨_, ⟨more, rfl, hm⟩, some d, more, rfl, he ▸ hv, hvs⟩
    case mpr =>
      rintro ⟨_, ⟨more, hs, hm⟩, _, _, he, hv, hvs⟩
      cases hs.symm.trans he
      exact ⟨value, hv, rfl, more, hm, hvs⟩

end Fields

namespace Shape

theorem faithful_text : Shape.text.Faithful := by
  intro d o hd s
  cases hd
  case string content h =>
    have hr : text.read (.string content) = readString content := rfl
    rw [hr, readString, h]
    exact ⟨fun h => Except.ok.inj h ▸ rfl, fun h => Document.string.inj h ▸ rfl⟩
  all_goals exact ⟨fun h => (nomatch h), fun h => nomatch h⟩

theorem Faithful.forall₂_iff {shape : Shape} (hf : shape.Faithful) {items : List Document}
    {outlines : List Outline} (h : List.Forall₂ Depicts items outlines)
    {values : List shape.Value} :
    List.Forall₂ (shape.read · = .ok ·) outlines values ↔
      List.Forall₂ shape.Holds items values := by
  induction h generalizing values
  case nil           => simp only [List.forall₂_nil_left_iff]
  case cons hd _ hi => simp only [List.forall₂_cons_left_iff, hf hd, hi]

theorem faithful_list {item : Shape} (hf : item.Faithful) : (list item).Faithful := by
  intro d o hd values
  cases hd
  case array items outlines h =>
    have hr : (list item).read (.array outlines .closed) = outlines.mapM item.read := by
      rw [read]
      cases outlines.mapM item.read <;> rfl
    rw [hr, Except.mapM_eq_ok_iff, hf.forall₂_iff h]
    exact ⟨fun h => ⟨items, rfl, h⟩, fun ⟨_, he, h⟩ => Document.array.inj he ▸ h⟩
  all_goals exact ⟨fun h => (nomatch h), fun ⟨_, h, _⟩ => nomatch h⟩

theorem faithful_record {name : String} {fields : Fields} (hf : fields.Faithful)
    (hn : fields.names.Nodup) : (record name fields).Faithful := by
  intro d o hd value
  cases hd
  case array items outlines h =>
    simp only [read, Fields.readItems_eq_ok_iff name _ fields hf h, Holds]
  case object members outlines h =>
    rw [Holds, ← Fields.holdsFrom_vacant, ← Fields.readMembers_iff fields hf hn h, read,
      Except.bind_eq_ok_iff]
    rfl
  all_goals exact ⟨fun h => (nomatch h), fun ⟨_, h, _⟩ => nomatch h⟩

end Shape

mutual

theorem Shape.Distinct.faithful : {shape : Shape} → shape.Distinct → shape.Faithful
  | .text,       _ => Shape.faithful_text
  | .list _,     h => Shape.faithful_list (Shape.Distinct.faithful h)
  | .record _ _, h => Shape.faithful_record (Fields.Distinct.faithful h.right) h.left

theorem Fields.Distinct.faithful : {fields : Fields} → fields.Distinct → fields.Faithful
  | .nil,          _ => trivial
  | .cons _ _ _ _, h => ⟨Shape.Distinct.faithful h.left, Fields.Distinct.faithful h.right⟩

end

-- A text that spells a document is read as a value exactly if the document holds this value.
theorem Shape.readText_eq_ok_iff {shape : Shape} (hs : shape.Distinct) {d : Document}
    {text : String} (ht : d.Spelling text) {value : shape.Value} :
    shape.readText text = .ok value ↔ shape.Holds d value := by
  have ⟨o, hd, ho⟩ := Document.ofChars_of_spells ht
  have hr : shape.readText text = shape.read o := by
    simp only [readText, ho]
    cases shape.read o <;> rfl
  rw [hr, hs.faithful hd]

end SoapBindings.Json

import SoapBindings.Proofs.Json.Truncated.Outline
import SoapBindings.Proofs.Json.Writing
-- Where a whole text is read as a value, what a cut leaves of it is not read as anything. The error
-- is that the text has ended, wherever the cut is.

namespace SoapBindings.Json

-- Skipped values.

theorem skip_object_congr {members more : List (List CodeUnit × Outline)} (ending : ObjectEnd)
    (h : Outline.skipMembers members = Outline.skipMembers more) :
    (Outline.object members ending).skip = (Outline.object more ending).skip := by
  cases ending <;> rw [Outline.skip, h, Outline.skip]

mutual

theorem Truncates.skip : {d : Document} → {o : Outline} → Truncates d o → o.skip = .error .ended
  | _,               _, .missing  => rfl
  | .string _,       _, .string _ => rfl
  | .array items,    _, .array h  => TruncatesItems.skip items h
  | .object members, _, .object h => TruncatesMembers.skip members h

theorem TruncatesItems.skip : (items : List Document) → {outlines : List Outline} →
    {ending : ArrayEnd} → TruncatesItems items outlines ending →
    (Outline.array outlines ending).skip = .error .ended
  | _,          _, _, .stop       => rfl
  | _ :: _,     _, _, .item h     => by
    rw [Outline.skip, Outline.skipItems, h.skip]
    rfl
  | _ :: items, _, _, .cons hd h  => by
    rw [← TruncatesItems.skip items h, Outline.skip, Outline.skipItems, hd.skip, Outline.skip]
    rfl

theorem TruncatesMembers.skip : (members : List (String × Document)) →
    {outlines : List (List CodeUnit × Outline)} → {ending : ObjectEnd} →
    TruncatesMembers members outlines ending →
    (Outline.object outlines ending).skip = .error .ended
  | _,                 _, _, .stop        => rfl
  | _,                 _, _, .brokenKey _ => rfl
  | _ :: _,            _, _, .bareKey _   => rfl
  | _ :: _,            _, _, .value _ h   => by
    rw [Outline.skip, Outline.skipMembers, h.skip]
    rfl
  | (_, _) :: members, _, _, .cons (.intro _ hd) h => by
    refine (skip_object_congr _ ?_).trans (TruncatesMembers.skip members h)
    rw [Outline.skipMembers, hd.skip]
    rfl

end

-- A shape that reads nothing but the end of the text where a document that holds a value is cut.
def Shape.Alert (shape : Shape) : Prop :=
  ∀ ⦃d o⦄, Truncates d o → ∀ value, shape.Holds d value → shape.read o = .error .ended

def Fields.Alert : Fields → Prop
  | .nil                 => True
  | .cons _ _ shape rest => shape.Alert ∧ rest.Alert

theorem Shape.read_broken (shape : Shape) : shape.read (.broken .ended) = .error .ended := by
  cases shape <;> rfl

theorem readString_of_text? {key : List CodeUnit} {name : String}
    (h : CodeUnit.text? key = some name) : readString key = .ok name := by
  rw [readString, h]
  rfl

-- A null that is cut is no null any more.
theorem Need.read_truncated {α : Type} {need : Need} {readValue : Outline → Read α} {blank : α}
    {holds : Document → α → Prop} {d : Document} {o : Outline} (h : Truncates d o)
    (hb : readValue (.broken .ended) = .error .ended)
    (hr : ∀ a, holds d a → readValue o = .error .ended) {value : need.Held α}
    (hv : need.Holds blank holds (some d) value) : need.read readValue o = .error .ended := by
  cases need
  case required =>
    have ⟨_, he, hv⟩ := hv
    exact hr _ (Option.some.inj he ▸ hv)
  case defaulted =>
    have ⟨_, he, hv⟩ := hv.resolve_left nofun
    exact hr _ (Option.some.inj he ▸ hv)
  case optional =>
    have ho : read readValue .optional o = some <$> readValue o := by
      cases h <;> rfl
    obtain ⟨hn, _⟩ | ⟨_, _, he, hv, _⟩ := hv
    case inl =>
      obtain rfl := Option.some.inj (hn.resolve_left nofun)
      cases h
      rw [ho, hb]
      rfl
    case inr =>
      cases he
      rw [ho, hr _ hv]
      rfl

namespace Fields

open Document

-- A field that has a value already has no member.
theorem isTaken_of_holdsFrom : (fields : Fields) → {draft : fields.Draft} → {name : String} →
    {d : Document} → {members : List (String × Document)} → {value : fields.Value} →
    fields.HoldsFrom draft ((name, d) :: members) value → fields.isTaken name draft = false
  | .nil, (), _, _, _, (), _ => rfl
  | .cons key need shape rest, (slot, slots), name, d, members, (value, values), ⟨h, hr⟩ => by
    by_cases hk : key = name
    case pos =>
      subst hk
      rw [isTaken, if_pos rfl]
      cases slot
      case none   => rfl
      case some v => simp [named_cons] at h
    case neg =>
      rw [isTaken, if_neg hk]
      exact isTaken_of_holdsFrom rest hr

theorem readMember_truncated : (fields : Fields) → fields.Alert → fields.names.Nodup →
    {draft : fields.Draft} → {name : String} → {d : Document} → {o : Outline} → Truncates d o →
    {members : List (String × Document)} → {value : fields.Value} →
    fields.HoldsFrom draft ((name, d) :: members) value →
    fields.readMember name o draft = .error .ended
  | .nil, _, _, (), _, _, _, hd, _, (), _ => hd.skip
  | .cons key need shape rest, ha, hn, (slot, slots), name, d, o, hd, _, (value, values), h => by
    obtain ⟨hs, hr⟩ := ha
    obtain ⟨hm, hn⟩ := List.nodup_cons.mp hn
    by_cases hk : key = name
    case pos =>
      subst hk
      cases slot
      case some v => simp [HoldsFrom, named_cons] at h
      case none   =>
        have hv := ((holdsFrom_cons_vacant_iff hm).mp h).left.left
        rw [readMember_vacant, Need.read_truncated hd shape.read_broken (hs hd) hv]
        rfl
    case neg =>
      rw [readMember_of_ne hk, readMember_truncated rest hr hn hd h.right]
      rfl

theorem checkEnd_brokenKey {fields : Fields} {key : List CodeUnit}
    (hk : CodeUnit.flaw key .ended = .ended) (draft : fields.Draft) :
    fields.checkEnd draft (.brokenKey key .ended) = .error .ended := by
  rw [checkEnd, hk]
  rfl

-- The fields that are cut off with the end of an object do not count as missing.
theorem readMembers_truncated (fields : Fields) (hd : fields.Distinct) (ha : fields.Alert)
    (hn : fields.names.Nodup) {members : List (String × Document)}
    {outlines : List (List CodeUnit × Outline)} {ending : ObjectEnd}
    (h : TruncatesMembers members outlines ending) {draft : fields.Draft} {value : fields.Value}
    (hv : fields.HoldsFrom draft members value) :
    (do
      let draft ← outlines.foldlM
        (fun draft (key, o) => do fields.readMember (← readString key) o draft) draft
      fields.checkEnd draft ending
      fields.complete draft) = .error .ended := by
  induction members generalizing outlines draft
  case nil =>
    cases h
    case stop         => rfl
    case brokenKey hk =>
      rw [List.foldlM_nil, pure_bind, checkEnd_brokenKey hk]
      rfl
  case cons members hi =>
    cases h
    case stop         => rfl
    case brokenKey hk =>
      rw [List.foldlM_nil, pure_bind, checkEnd_brokenKey hk]
      rfl
    case bareKey hk =>
      simp only [List.foldlM_nil, pure_bind, checkEnd, readString_of_text? hk, Except.ok_bind,
        isTaken_of_holdsFrom fields hv]
      rfl
    case value hk h =>
      simp only [List.foldlM_cons, readString_of_text? hk]
      rw [Except.ok_bind, readMember_truncated fields ha hn h hv]
      rfl
    case cons hm h =>
      obtain ⟨hk, hm⟩ := hm
      obtain ⟨draft, hr, hv⟩ := (readMember_iff fields hd.faithful hn hm).mpr hv
      simp only [List.foldlM_cons, readString_of_text? hk]
      rw [Except.ok_bind, hr]
      exact hi h hv

theorem readItems_truncated (record : String) (count : Nat) : (fields : Fields) → fields.Distinct →
    fields.Alert → {index : Nat} → {items : List Document} → {outlines : List Outline} →
    {ending : ArrayEnd} → TruncatesItems items outlines ending → {value : fields.Value} →
    {slots : List (Option Document)} → HasFields fields.names (.array items) slots →
    fields.Holds slots value → fields.readItems record count index outlines ending = .error .ended
  | .nil,          _, _, _, _, _, _, .stop, _, _, _, _ => rfl
  | .cons _ _ _ _, _, _, _, _, _, _, .stop, _, _, _, _ => rfl
  | .nil, _, _, _, _ :: _, _, _, _, _, _, h, _ => by
    obtain ⟨_, h, _⟩ := hasFields_array_iff.mp h
    simp [names] at h
  | .cons _ need shape rest, hd, ha, _, _ :: _, _, _, .item h, (value, values), _, hf, hv => by
    obtain ⟨_, _, he, hv, _⟩ := hv
    obtain ⟨_, hs, _⟩ := hasFields_array_cons_iff.mp hf
    obtain ⟨rfl, _⟩ := List.cons.inj (he.symm.trans hs)
    rw [readItems, Need.read_truncated h shape.read_broken (ha.left h) hv]
    rfl
  | .cons _ need shape rest, hd, ha, index, _ :: _, _, _, .cons ho h, (value, values), _, hf,
      hv => by
    obtain ⟨_, more, he, hv, hvs⟩ := hv
    obtain ⟨_, hs, hm⟩ := hasFields_array_cons_iff.mp hf
    obtain ⟨rfl, rfl⟩ := List.cons.inj (he.symm.trans hs)
    have hr : need.read shape.read _ = .ok value :=
      (Need.read_eq_ok_iff shape.blank ho (hd.left.faithful ho) shape.not_holds_null).mpr hv
    have ht : rest.readItems record count (index + 1) _ _ = .error .ended :=
      readItems_truncated record count rest hd.right ha.right h hm hvs
    rw [readItems, hr, Except.ok_bind, ht]
    rfl

end Fields

namespace Shape

theorem alert_text : Shape.text.Alert := by
  intro d o h s hv
  cases hv
  cases h
  case missing   => rfl
  case string hf =>
    rw [read, Outline.refusal, hf]
    · rfl
    · intro c hc
      cases hc

theorem readList_truncated {item : Shape} (hd : item.Distinct) (ha : item.Alert)
    {items : List Document} {outlines : List Outline} {ending : ArrayEnd}
    (h : TruncatesItems items outlines ending) {values : List item.Value}
    (hv : List.Forall₂ item.Holds items values) :
    (list item).read (.array outlines ending) = .error .ended := by
  induction items generalizing outlines values
  case nil =>
    cases h
    case stop => rfl
  case cons items hi =>
    cases hv
    case cons hv hvs =>
      cases h
      case stop   => rfl
      case item h =>
        rw [read, List.mapM_cons, ha h _ hv]
        rfl
      case cons outlines ho h =>
        have hr := hi h hvs
        rw [read] at hr
        rw [read, List.mapM_cons, (hd.faithful ho _).mpr hv]
        cases hm : outlines.mapM item.read <;> rw [hm] at hr
        case error => exact hr
        case ok    =>
          cases hc : ending.check <;> rw [hc] at hr
          case error => exact hr
          case ok    => cases hr

theorem alert_list {item : Shape} (hd : item.Distinct) (ha : item.Alert) : (list item).Alert := by
  intro d o h values hv
  obtain ⟨items, rfl, hv⟩ := hv
  cases h
  case missing => exact read_broken _
  case array h => exact readList_truncated hd ha h hv

theorem alert_record {name : String} {fields : Fields} (hd : fields.Distinct) (ha : fields.Alert)
    (hn : fields.names.Nodup) : (record name fields).Alert := by
  intro d o h value ⟨slots, hf, hv⟩
  cases h
  case missing  => exact read_broken _
  case string   => exact nomatch hf
  case array h  => exact Fields.readItems_truncated name _ fields hd ha h hf hv
  case object h =>
    exact Fields.readMembers_truncated fields hd ha hn h
      ((fields.holdsFrom_vacant _).mpr ⟨slots, hf, hv⟩)

end Shape

mutual

theorem Shape.Distinct.alert : {shape : Shape} → shape.Distinct → shape.Alert
  | .text,       _ => Shape.alert_text
  | .list _,     h => Shape.alert_list h (Shape.Distinct.alert h)
  | .record _ _, h => Shape.alert_record h.right (Fields.Distinct.alert h.right) h.left

theorem Fields.Distinct.alert : {fields : Fields} → fields.Distinct → fields.Alert
  | .nil,          _ => trivial
  | .cons _ _ _ _, h => ⟨Shape.Distinct.alert h.left, Fields.Distinct.alert h.right⟩

end

-- A text that spells a document with a value is read to its end if it is cut, unless nothing but
-- blanks are missing.
theorem Shape.readText_front {shape : Shape} (hs : shape.Distinct) {d : Document}
    (hn : ∀ l ∈ d.lexemes, ¬l.IsNumber) {value : shape.Value} (hv : shape.Holds d value)
    {front back : List Char} (ht : Spells d.lexemes (front ++ back)) (hb : ¬Blanks back) :
    shape.readText (.ofList front) = .error .ended := by
  have ⟨tokens, hc, he⟩ := (Mode.ends_front hn ht).resolve_left hb
  have ⟨o, ho, hf⟩ := d.leaves_lexemes hc
  have hr : Outline.ofChars front = (o, false) := by
    rw [Outline.ofChars, he, hf]
    rfl
  have hd := hs.alert ho value hv
  simp only [readText, String.toList_ofList, hr, hd]
  rfl

-- What is written for a value has no numbers, and no blanks at its end.

namespace Value

open Document

mutual

theorem number_free : (v : Value) → ∀ l ∈ v.document.lexemes, ¬l.IsNumber
  | null           => List.forall_mem_singleton.mpr id
  | boolean _      => List.forall_mem_singleton.mpr id
  | string _       => List.forall_mem_singleton.mpr id
  | array items    => by
    simp only [document, lexemes, List.forall_mem_cons, List.forall_mem_append]
    exact ⟨id, number_free_items items, id, nofun⟩
  | object members => by
    simp only [document, lexemes, List.forall_mem_cons, List.forall_mem_append]
    exact ⟨id, number_free_members members, id, nofun⟩

theorem number_free_items : (items : List Value) →
    ∀ l ∈ itemLexemes (itemDocuments items), ¬l.IsNumber
  | []                    => nofun
  | [item]                => number_free item
  | item :: next :: items => by
    simp only [itemDocuments, itemLexemes, List.forall_mem_cons, List.forall_mem_append]
    exact ⟨number_free item, id, number_free_items (next :: items)⟩

theorem number_free_members : (members : List (String × Value)) →
    ∀ l ∈ memberLexemes (memberDocuments members), ¬l.IsNumber
  | []                               => nofun
  | [(name, value)]                  => by
    simp only [memberDocuments, memberLexemes, List.forall_mem_cons]
    exact ⟨id, id, number_free value⟩
  | (name, value) :: next :: members => by
    simp only [memberDocuments, memberLexemes, List.forall_mem_cons, List.forall_mem_append]
    exact ⟨id, id, number_free value, id, number_free_members (next :: members)⟩

end

theorem compact_eq_append (v : Value) :
    ∃ cs c, v.compact = cs ++ [c] ∧ c ∉ [' ', '\t', '\n', '\r'] := by
  cases v
  case null      => exact ⟨['n', 'u', 'l'], 'l', rfl, by decide⟩
  case boolean b =>
    cases b
    case false => exact ⟨['f', 'a', 'l', 's'], 'e', rfl, by decide⟩
    case true  => exact ⟨['t', 'r', 'u'], 'e', rfl, by decide⟩
  case string    => exact ⟨_, '"', rfl, by decide⟩
  case array     => exact ⟨_, ']', by rw [compact], by decide⟩
  case object    => exact ⟨_, '\x7d', by rw [compact], by decide⟩

theorem not_blanks_of_compact {v : Value} {front back : List Char} (h : v.compact = front ++ back)
    (hb : back ≠ []) : ¬Blanks back := by
  have ⟨cs, c, he, hc⟩ := v.compact_eq_append
  have hl : back.getLast? = some c := by
    rw [← List.getLast?_append_of_ne_nil front hb, ← h, he, List.getLast?_concat]
  exact fun hs => hc (hs c (List.mem_of_getLast? hl))

end Value

theorem Shape.readText_cut {shape : Shape} (hs : shape.Distinct) {value : shape.Value}
    {front back : List Char} (h : (shape.writeText value).toList = front ++ back)
    (hb : back ≠ []) : shape.readText (.ofList front) = .error .ended := by
  have ht := (shape.write value).spelling_compactText
  have hc : (shape.write value).compact = front ++ back := String.toList_ofList.symm.trans h
  exact readText_front hs (Value.number_free _) (shape.holds_write hs value) (h ▸ ht)
    (Value.not_blanks_of_compact hc hb)

end SoapBindings.Json

import SoapBindings.FileStore
import SoapBindings.Proofs.StringMap
-- Where paths lead. A way is determined by its name, and a file that is written takes no directory
-- off the way to it. So the path that a file was written at leads to it.

namespace SoapBindings

theorem Text.separator_notMem {separator : Char} {cs piece : List Char}
    (h : piece ∈ splitChars separator cs) : separator ∉ piece := by
  induction cs generalizing piece
  case nil => simp_all [splitChars]
  case cons c cs hi =>
    rw [splitChars] at h
    split at h
    case isTrue =>
      cases List.mem_cons.mp h
      case inl h => simp [h]
      case inr h => exact hi h
    case isFalse hc =>
      cases hs : splitChars separator cs <;> simp only [hs] at h
      case nil => exact absurd hs (splitChars_ne_nil separator cs)
      case cons p ps =>
        cases List.mem_cons.mp h
        case inl h =>
          have hp : separator ∉ p := hi (by simp [hs])
          simp [h, Ne.symm hc, hp]
        case inr h => exact hi (by simp [hs, h])

namespace FileStore

-- A name that can stand anywhere along a way. The name of the top can only come first.
structure IsName (name : String) : Prop where
  ne_empty : name ≠ ""
  noSlash  : '/' ∉ name.toList

inductive Proper : List String → Prop
  | inside {names : List String} (h : ∀ n ∈ names, IsName n) : Proper names
  | top (names : List String) (h : ∀ n ∈ names, IsName n) : Proper ("/" :: names)

variable {s : FileStore} {ns way w : List String} {path name text : String}

-- The way that has a name.
def wayOf (name : String) : List String :=
  match name.toList.splitOn '/' with
  | [[]]              => []
  | [] :: [] :: names => "/" :: names.map .ofList
  | names             => names.map .ofList

theorem splitOn_nameOf (h : ∀ n ∈ ns, '/' ∉ n.toList) (hn : ns ≠ []) :
    (nameOf ns).toList.splitOn '/' = ns.map String.toList := by
  rw [nameOf, String.toList_intercalate]
  exact List.splitOn_intercalate _ (by simpa using h) (by simpa using hn)

theorem splitOn_nameOf_top (h : ∀ n ∈ ns, '/' ∉ n.toList) :
    (nameOf ("/" :: ns)).toList.splitOn '/' = [] :: [] :: ns.map String.toList := by
  have he : nameOf ("/" :: ns) = nameOf ("" :: "" :: ns) := by
    cases ns <;> simp [nameOf, String.intercalate_cons_cons, ← String.append_assoc]
  rw [he]
  exact splitOn_nameOf (by simpa using h) (by simp)

theorem Proper.wayOf_nameOf (h : Proper way) : wayOf (nameOf way) = way := by
  have hm (ns : List String) : (ns.map String.toList).map String.ofList = ns := by
    simp [Function.comp_def]
  rw [wayOf]
  cases h
  case top ns h =>
    rw [splitOn_nameOf_top fun n hn => (h n hn).noSlash]
    simp only [hm]
  case inside h =>
    cases way
    case nil => rfl
    case cons name ns =>
      have hn : name.toList ≠ [] := by simpa using (h name (by simp)).ne_empty
      rw [splitOn_nameOf (fun n hn => (h n hn).noSlash) (by simp)]
      simp only [List.map_cons]
      split <;> simp_all

-- Proper ways of one name are one way.
theorem Proper.eq_of_nameOf_eq {w₁ w₂ : List String} (h₁ : Proper w₁) (h₂ : Proper w₂)
    (h : nameOf w₁ = nameOf w₂) : w₁ = w₂ :=
  calc
    w₁ = wayOf (nameOf w₁) := h₁.wayOf_nameOf.symm
    _  = wayOf (nameOf w₂) := congrArg wayOf h
    _  = w₂                := h₂.wayOf_nameOf

-- Where a name leads from a directory.
def advance (way : List String) (name : String) : List String :=
  if name = "" || name = "." then way
  else if name = ".." then parent way
  else way ++ [name]

-- The names for directories that are already along the way are never too long.
theorem follow_cons_eq_ok_iff :
    s.follow w (name :: ns) = .ok way ↔
      s.kind w = .directory ∧ name.utf8ByteSize ≤ nameLimit ∧
        s.follow (advance w name) ns = .ok way := by
  cases hk : s.kind w <;> simp only [follow, hk, reduceCtorEq, false_and, true_and]
  case directory =>
    rw [advance]
    split
    case isTrue h =>
      have hn : name.utf8ByteSize ≤ nameLimit := by
        cases Bool.or_eq_true_iff.mp h
        case inl h => exact of_decide_eq_true h ▸ by decide
        case inr h => exact of_decide_eq_true h ▸ by decide
      simp [hn]
    case isFalse =>
      split
      case isTrue h =>
        have hn : name.utf8ByteSize ≤ nameLimit := by
          rw [h]
          decide
        simp [hn]
      case isFalse =>
        split
        case isTrue h  => simp [Nat.not_le.mpr h]
        case isFalse h => simp [Nat.not_lt.mp h]

theorem Proper.append (h : Proper way) (hn : IsName name) : Proper (way ++ [name]) := by
  cases h
  case inside h => exact .inside (by simpa [or_imp, forall_and, hn] using h)
  case top ns h =>
    exact .top (ns ++ [name]) (by simpa [or_imp, forall_and, hn] using h)

theorem Proper.parent (h : Proper way) : Proper (parent way) := by
  rw [FileStore.parent]
  split
  case isTrue => exact .top [] (by simp)
  case isFalse ht =>
    split
    case isTrue => exact h.append ⟨by decide, by decide⟩
    case isFalse ha =>
      cases h
      case inside h => exact .inside fun n hn => h n (List.dropLast_subset way hn)
      case top ns h =>
        cases ns
        case nil       => exact absurd rfl ht
        case cons n ns => exact .top _ fun m hm => h m (List.dropLast_subset (n :: ns) hm)

theorem Proper.advance (h : Proper way) (hn : '/' ∉ name.toList) : Proper (advance way name) := by
  rw [FileStore.advance]
  split
  case isTrue => exact h
  case isFalse he =>
    split
    case isTrue  => exact h.parent
    case isFalse => exact h.append ⟨fun h => he (by simp [h]), hn⟩

theorem Proper.follow (hw : Proper w) (hn : ∀ n ∈ ns, '/' ∉ n.toList)
    (h : s.follow w ns = .ok way) : Proper way := by
  induction ns generalizing w
  case nil =>
    cases h
    exact hw
  case cons name ns hi =>
    have ⟨_, _, h⟩ := follow_cons_eq_ok_iff.mp h
    have ⟨hn, hns⟩ := List.forall_mem_cons.mp hn
    exact hi (hw.advance hn) hns h

-- The files after one is written, in the place of an earlier one or not.
def put (s : FileStore) (way : List String) (content : ByteArray) : FileStore :=
  { s with files := s.files.insert (nameOf way) content }

theorem kind_eq_directory_iff :
    s.kind w = .directory ↔ s.files.find? (nameOf w) = none ∧ s.contains w := by
  rw [kind]
  cases s.files.find? (nameOf w) <;> simp

theorem contains_put {content : ByteArray} (h : s.contains w) : (s.put way content).contains w := by
  have hk : ∀ n ∈ s.files.keys, n ∈ (s.put way content).files.keys := by
    intro n hn
    rw [StringMap.mem_keys_iff] at hn ⊢
    rw [put, StringMap.find?_insert]
    split <;> simp [hn]
  simp only [contains, Bool.or_eq_true, List.any_eq_true, List.mem_append] at h ⊢
  refine h.imp_right fun ⟨n, hn, hp⟩ => ⟨n, ?_, hp⟩
  exact hn.imp_left (hk n)

theorem kind_put_of_ne {content : ByteArray} (hn : nameOf w ≠ nameOf way)
    (h : s.kind w = .directory) : (s.put way content).kind w = .directory := by
  have ⟨hf, hc⟩ := kind_eq_directory_iff.mp h
  refine kind_eq_directory_iff.mpr ⟨?_, contains_put hc⟩
  rw [put, StringMap.find?_insert_of_ne hn, hf]

-- A file that is written where there is no directory stands in the way of no walk that leads to it.
theorem follow_put (content : ByteArray) (hw : Proper w) (hn : ∀ n ∈ ns, '/' ∉ n.toList)
    (h : s.follow w ns = .ok way) (hk : s.kind way ≠ .directory) :
    (s.put way content).follow w ns = .ok way := by
  have hp := hw.follow hn h
  induction ns generalizing w
  case nil => exact h
  case cons name ns hi =>
    have ⟨hd, hl, h⟩ := follow_cons_eq_ok_iff.mp h
    have ⟨hn, hns⟩ := List.forall_mem_cons.mp hn
    have hne : nameOf w ≠ nameOf way := fun he => hk (hw.eq_of_nameOf_eq hp he ▸ hd)
    exact follow_cons_eq_ok_iff.mpr ⟨kind_put_of_ne hne hd, hl, hi (hw.advance hn) hns h⟩

theorem names_eq_ok (h : names path = .ok ns) : ns = Text.split '/' path := by
  rw [names] at h
  split_ifs at h
  cases h
  rfl

theorem noSlash_of_names (h : names path = .ok ns) : ∀ n ∈ ns, '/' ∉ n.toList := by
  rw [names_eq_ok h, Text.split]
  intro n hn
  have ⟨piece, hp, he⟩ := List.mem_map.mp hn
  have hs : '/' ∉ piece := Text.separator_notMem hp
  rw [← he]
  simpa using hs

theorem proper_start (ns : List String) : Proper (start ns) := by
  rw [start]
  split
  case isTrue  => exact .top [] (by simp)
  case isFalse => exact .inside (by simp)

theorem locate_eq_ok_iff :
    s.locate path = .ok way ↔
      ∃ ns, names path = .ok ns ∧ s.follow (start ns) ns = .ok way := by
  rw [locate]
  cases names path <;> simp [bind, Except.bind]

theorem target_eq_ok (h : s.target path = .ok way) :
    s.locate path = .ok way ∧ s.kind way ≠ .directory := by
  rw [target] at h
  cases hn : names path <;> simp only [hn, bind, Except.bind] at h
  case error => cases h
  case ok ns =>
    split at h
    case isFalse =>
      cases hf : s.follow (start ns) ((significant ns).dropLast ++ ["."]) <;> simp [hf] at h
    case isTrue =>
      cases hf : s.follow (start ns) ns <;> simp only [hf] at h
      case error => cases h
      case ok w =>
        cases hk : s.kind w <;> simp only [hk] at h <;> cases h
        case file    => exact ⟨locate_eq_ok_iff.mpr ⟨ns, hn, hf⟩, by simp [hk]⟩
        case missing => exact ⟨locate_eq_ok_iff.mpr ⟨ns, hn, hf⟩, by simp [hk]⟩

-- The path of a file leads to it also after the file is written.
theorem write_eq_ok {s' : FileStore} (h : s.write path text = .ok s') :
    ∃ way, s.locate path = .ok way ∧ s' = s.put way text.toUTF8 ∧ s'.locate path = .ok way := by
  rw [write] at h
  cases ht : s.target path <;> simp only [ht, bind, Except.bind] at h <;> cases h
  case ok way =>
    have ⟨hl, hk⟩ := target_eq_ok ht
    have ⟨ns, hn, hf⟩ := locate_eq_ok_iff.mp hl
    have hf' := follow_put text.toUTF8 (proper_start ns) (noSlash_of_names hn) hf hk
    exact ⟨way, hl, rfl, locate_eq_ok_iff.mpr ⟨ns, hn, hf'⟩⟩

theorem fromUTF8?_eq_some_iff {content : ByteArray} :
    String.fromUTF8? content = some text ↔ content = text.toUTF8 := by
  rw [String.fromUTF8?]
  constructor
  case mp =>
    intro h
    split at h
    case isFalse => cases h
    case isTrue hv =>
      cases h
      rfl
  case mpr =>
    intro h
    subst h
    simp [String.fromUTF8, text.isValidUTF8]

theorem read_eq_ok_iff :
    s.read path = .ok text ↔
      ∃ way, s.locate path = .ok way ∧ s.files.find? (nameOf way) = some text.toUTF8 := by
  simp only [read, kind]
  cases s.locate path <;> simp only [bind, Except.bind, reduceCtorEq, Except.ok.injEq,
    false_and, exists_false, exists_eq_left']
  case ok way =>
    cases s.files.find? (nameOf way)
    case none => cases s.contains way <;> simp
    case some content =>
      simp only [Option.some.injEq, ← fromUTF8?_eq_some_iff]
      cases String.fromUTF8? content <;> simp

-- A text that is written at a path is what is then read at this path.
theorem read_of_write {s' : FileStore} (h : s.write path text = .ok s') :
    s'.read path = .ok text := by
  have ⟨way, _, hs, hl⟩ := write_eq_ok h
  refine read_eq_ok_iff.mpr ⟨way, hl, ?_⟩
  rw [hs]
  exact StringMap.find?_insert_self ..

end FileStore
end SoapBindings

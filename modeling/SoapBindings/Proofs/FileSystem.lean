import SoapBindings.Proofs.FileStore
import SoapBindings.World
-- What can be relied on of files. A path leads to one file at most, and several paths may lead to
-- the same one. A text is read as a whole, and it is written as a whole to one file only.

namespace SoapBindings

class LawfulFileSystem (φ : Type) [FileSystem φ] where
  File    : Type
  content : φ → File → Option ByteArray
  target? : φ → String → Option File
  read_eq_ok {s : φ} {path text : String} (h : FileSystem.read s path = .ok text) :
    ∃ file, target? s path = some file ∧ content s file = some text.toUTF8
  write_eq_ok {s s' : φ} {path text : String} (h : FileSystem.write s path text = .ok s') :
    ∃ file, target? s path = some file ∧ content s' file = some text.toUTF8 ∧
      ∀ other ≠ file, content s' other = content s other

instance : LawfulFileSystem FileStore where
  File           := String
  content s      := s.files.find?
  target? s path := (s.locate path).toOption.map FileStore.nameOf
  read_eq_ok h := by
    have ⟨way, hl, hf⟩ := FileStore.read_eq_ok_iff.mp h
    exact ⟨FileStore.nameOf way, by simp [hl, Except.toOption], hf⟩
  write_eq_ok h := by
    have ⟨way, hl, hs, _⟩ := FileStore.write_eq_ok h
    subst hs
    refine ⟨FileStore.nameOf way, by simp [hl, Except.toOption], ?content, ?others⟩
    case content => exact StringMap.find?_insert_self ..
    case others  => exact fun other hn => StringMap.find?_insert_of_ne hn ..

variable {φ : Type} [FileSystem φ] [LawfulFileSystem φ]

open LawfulFileSystem

-- A path leads to a file with this text.
def Holds (s : φ) (path text : String) : Prop :=
  ∃ file, target? s path = some file ∧ content s file = some text.toUTF8

-- The file that a path leads to gets a text, and all other files are as they were.
def Overwrites (s : φ) (path text : String) (s' : φ) : Prop :=
  ∃ file, target? s path = some file ∧ content s' file = some text.toUTF8 ∧
    ∀ other ≠ file, content s' other = content s other

-- The files after a change tell what was written at a path.
theorem Overwrites.text_eq {s s' : φ} {path text₁ text₂ : String}
    (h₁ : Overwrites s path text₁ s') (h₂ : Overwrites s path text₂ s') : text₁ = text₂ := by
  obtain ⟨file₁, hf₁, hc₁, _⟩ := h₁
  obtain ⟨file₂, hf₂, hc₂, _⟩ := h₂
  cases hf₁.symm.trans hf₂
  exact String.toByteArray_inj.mp (Option.some.inj (hc₁.symm.trans hc₂))

end SoapBindings

import SoapBindings.Proofs.Json.Truncated.Reading
import SoapBindings.Proofs.Run
import SoapBindings.Proofs.Service.Conformance
-- Service descriptions whose text is cut short are not taken for others. The text has ended too
-- early, whatever was before the cut, and a run with such a text changes no file.

namespace SoapBindings

-- A text that lacks something at its end.
def CutShort (text whole : String) : Prop :=
  text.toList <+: whole.toList ∧ text ≠ whole

instance (text whole : String) : Decidable (CutShort text whole) :=
  inferInstanceAs (Decidable (_ ∧ _))

theorem CutShort.exists_append {text whole : String} (h : CutShort text whole) :
    ∃ missing, whole.toList = text.toList ++ missing ∧ missing ≠ [] := by
  have ⟨⟨missing, hm⟩, hn⟩ := h
  refine ⟨missing, hm.symm, fun he => hn (String.toList_injective ?_)⟩
  rw [← hm, he, List.append_nil]

theorem Format.Describes.read_cutShort {α : Type} {f : Format α}
    {conforms : Json.Document → α → Prop} (hf : f.Describes conforms) {a : α} {text : String}
    (h : CutShort text (f.write a)) : f.read text = .error .ended := by
  have ⟨missing, hm, hn⟩ := h.exists_append
  have hr := Json.Shape.readText_cut hf.distinct hm hn
  rw [String.ofList_toList] at hr
  rw [read, hr]
  rfl

-- A run that does not get its descriptions ends with the reason, and leaves all files as they are.
theorem perform_run_of_described {φ : Type} [FileSystem φ] {a : Arguments} {w : World φ}
    {settings : Settings} {e : RunError} (hc : configured w.store a.config = .ok settings)
    (hd : described w.store a.input = .error e) :
    ∃ log, w.perform (run a) = (.error e, { w with log }) := by
  have ⟨log, h⟩ := perform_run w a
  have hs : stages a w.store = (.error e, w.store) := by simp only [stages, hc, hd]
  exact ⟨log, h.trans (hs ▸ rfl)⟩

namespace Description

-- What is written for a value is read back as a whole, and wherever it is cut it is read as a text
-- that has ended too early. A run with such a text for its services has this as its error and writes
-- nothing.
theorem cut_short_ended :
    (∀ (type : Description) (a : type.Carrier),
      type.format.read (type.format.write a) = .ok a ∧
      ∀ text, CutShort text (type.format.write a) → type.format.read text = .error .ended) ∧
    ∀ (φ : Type) [FileSystem φ] (services : List Service) (text : String),
      CutShort text (Service.format.list.write services) →
      ∀ (a : Arguments) (w : World φ) (settings : Settings),
        configured w.store a.config = .ok settings →
        FileSystem.read w.store a.input = .ok text →
        ∃ log, w.perform (run a) = (.error (.services .ended), { w with log }) := by
  refine ⟨fun type a => ⟨type.describes.read_write a, fun text h =>
    type.describes.read_cutShort h⟩, ?_⟩
  intro φ _ services text h a w settings hc hi
  have hr : Service.format.list.read text = .error .ended :=
    Service.describes.list.read_cutShort h
  have hd : described w.store a.input = .error (.services .ended) := by
    simp only [described, parsed, hi, hr]
    rfl
  exact perform_run_of_described hc hd

def shop : Service where
  service    := "Shop"
  port       := "Soap"
  address    := "a"
  operations := []

-- The file of the descriptions ends after the name of a field.
def shopWorld : World FileStore where
  store := {
    files := .ofList [
      ("suds.toml", "[namespaces]\n".toUTF8),
      ("shop.json", "[\x7b\"service\":\"Shop\",\"port\"".toUTF8)]
    directories := [] }

-- The other text ends in the middle of an escape.
theorem cut_short_ended_shop :
    qname.format.read (qname.format.write { nspace := "\"", name := "" }) =
      .ok { nspace := "\"", name := "" } ∧
    (CutShort "\x7b\"namespace\":\"\\" (qname.format.write { nspace := "\"", name := "" }) ∧
      qname.format.read "\x7b\"namespace\":\"\\" = .error .ended) ∧
    ∃ log, shopWorld.perform (run inPlace) =
      (.error (.services .ended), { shopWorld with log }) := by
  have hq : CutShort "\x7b\"namespace\":\"\\"
      (qname.format.write { nspace := "\"", name := "" }) := by decide +kernel
  have hs : CutShort "[\x7b\"service\":\"Shop\",\"port\"" (Service.format.list.write [shop]) := by
    decide +kernel
  have hc : configured shopWorld.store inPlace.config = .ok { namespaces := ∅ } := by
    decide +kernel
  have hi : FileSystem.read shopWorld.store inPlace.input =
      .ok "[\x7b\"service\":\"Shop\",\"port\"" := by decide +kernel
  have ⟨hr, hw⟩ := cut_short_ended
  have ⟨hf, hc'⟩ := hr qname { nspace := "\"", name := "" }
  exact ⟨hf, ⟨hq, hc' _ hq⟩, hw _ [shop] _ hs _ _ _ hc hi⟩

end Description
end SoapBindings

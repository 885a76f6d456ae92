import Mathlib.Data.Finset.Card
import SoapBindings.Proofs.FileSystem
import SoapBindings.Proofs.Generator.Resolution
import SoapBindings.Proofs.Metadata.Document
import SoapBindings.Proofs.World
-- Runs, stage by stage. The first stage that fails decides how a run ends, files are changed by the
-- last stage alone, and what it writes is the tree of the services that were read.

namespace SoapBindings

open Generator World

-- The generator that settings make. An argument of the run may take the place of their unwrap
-- setting.
def Settings.chosen (s : Settings) (unwrap : Option Bool) : Generator :=
  let g := (s.generator .short).value
  { g with unwrap := unwrap.getD g.unwrap }

def distinctServices (services : List Service) : Nat :=
  (services.map Service.service).toFinset.card

variable {φ : Type} [FileSystem φ]

-- What a parser makes of the text in a file, or why it makes nothing of it.
def parsed {ε α : Type} (parse : String → Except ε α) (unreadable : DiskError → RunError)
    (invalid : ε → RunError) (s : φ) (path : String) : Except RunError α :=
  match FileSystem.read s path with
  | .error e => .error (unreadable e)
  | .ok text => (parse text).mapError invalid

def configured (s : φ) (path : String) : Except RunError Settings :=
  parsed Settings.parse (.settings <| .unreadable ·) (.settings <| .invalid ·) s path

def described (s : φ) (path : String) : Except RunError (List Service) :=
  parsed Service.format.list.read .disk .services s path

-- How a run ends and the files that it leaves, from its arguments and the files before it.
def stages (a : Arguments) (s : φ) : Except RunError Nat × φ :=
  match configured s a.config with
  | .error e     => (.error e, s)
  | .ok settings =>
    match described s a.input with
    | .error e     => (.error e, s)
    | .ok services =>
      match ((settings.chosen a.unwrap).generate services).outcome with
      | .error e => (.error (.generate e), s)
      | .ok tree =>
        match FileSystem.write s a.output (Metadata.toJson tree).prettyText with
        | .error e => (.error (.disk e), s)
        | .ok s'   => (.ok (distinctServices services), s')

namespace Generator

theorem size_tree (g : Generator) (services : List Service) :
    (g.tree services).size = distinctServices services := by
  have hk : (g.tree services).keys.toFinset = (services.map Service.service).toFinset := by
    ext service
    rw [List.mem_toFinset, List.mem_toFinset, mem_keys_tree_iff]
  rw [StringMap.size_eq_card, hk, distinctServices]

end Generator

theorem overriding_eq (s : Settings) (unwrap : Option Bool) :
    overriding (s.generator .short).value unwrap = s.chosen unwrap := by
  cases unwrap <;> rfl

theorem perform_load (w : World φ) (path : String) :
    ∃ log, w.perform ((Settings.load path).adapt RunError.settings) =
      (configured w.store path, { w with log }) := by
  refine ⟨w.log ++ [{
    severity := .debug, target := Log.settingsTarget, text := s!"Loading config from {path}" }], ?_⟩
  simp only [Settings.load, perform_adapt, perform_bind, perform_log, perform_liftM_readText,
    configured, parsed]
  cases FileSystem.read w.store path
  case error e => rfl
  case ok text =>
    simp only
    cases Settings.parse text <;> rfl

theorem perform_describe {α : Type} (w : World φ) (path : String)
    (f : List Service → ExceptT RunError (StateM (World φ)) α) :
    w.perform (do
        let text ← run.attempt RunError.disk (readText path)
        let services ← run.attempt RunError.services (pure (Service.format.list.read text))
        f services) =
      match described w.store path with
        | .error e     => (.error e, w)
        | .ok services => w.perform (f services) := by
  simp only [run.attempt, described, parsed, perform_bind, perform_adapt, perform_readText]
  cases FileSystem.read w.store path
  case error e => rfl
  case ok text =>
    simp only [Except.mapError, perform_mk_pure]
    cases Service.format.list.read text <;> rfl

omit [FileSystem φ] in
theorem perform_generate {α : Type} (w : World φ) (settings : Settings) (unwrap : Option Bool)
    (services : List Service) (f : Metadata → ExceptT RunError (StateM (World φ)) α) :
    ∃ log, w.perform (do
        let g ← (logged (settings.generator .short) : StateM (World φ) _)
        let tree ←
          run.attempt RunError.generate (logged ((overriding g unwrap).generate services).run)
        f tree) =
      match ((settings.chosen unwrap).generate services).outcome with
        | .error e => (.error (.generate e), { w with log })
        | .ok tree => { w with log : World φ }.perform (f tree) := by
  have ⟨log₁, h₁⟩ := w.perform_liftM_logged RunError (settings.generator .short)
  have ⟨log₂, h₂⟩ := { w with log := log₁ : World φ }.perform_logged
    ((settings.chosen unwrap).generate services).run
  refine ⟨log₂, ?_⟩
  rw [perform_bind_ok h₁, overriding_eq, run.attempt, perform_bind, perform_adapt, h₂]
  rw [Generating.outcome]
  cases ((settings.chosen unwrap).generate services).run.value <;> rfl

-- Each stage finds the files as they were before the run.
theorem perform_run (w : World φ) (a : Arguments) :
    ∃ log, w.perform (run a) = ((stages a w.store).1, { store := (stages a w.store).2, log }) := by
  have ⟨log₁, h₁⟩ := perform_load w a.config
  rw [run, stages]
  cases hc : configured w.store a.config <;> rw [hc] at h₁
  case error e => exact ⟨log₁, perform_bind_error h₁ _⟩
  case ok settings =>
    rw [perform_bind_ok h₁, perform_describe]
    cases hd : described w.store a.input
    case error e => exact ⟨log₁, rfl⟩
    case ok services =>
      have ⟨log₂, h₂⟩ := perform_generate { w with log := log₁ } settings a.unwrap services
        fun tree => do
          run.attempt RunError.disk (writeText a.output (Metadata.toJson tree).prettyText)
          return tree.size
      refine ⟨log₂, h₂.trans ?_⟩
      cases ht : ((settings.chosen a.unwrap).generate services).outcome
      case error e => simp only [ht]
      case ok tree =>
        have hn : tree.size = distinctServices services := by
          rw [(generate_eq_ok_iff.mp ht).right, size_tree]
        simp only [ht, run.attempt, perform_bind, perform_adapt, perform_writeText, hn]
        cases FileSystem.write w.store a.output (Metadata.toJson tree).prettyText <;> rfl

-- What the stages come to: one of them fails and the files stay as they are, or none does.
theorem stages_cases (a : Arguments) (s : φ) :
    (∃ e, stages a s = (.error e, s)) ∨
    ∃ settings services tree s',
      configured s a.config = .ok settings ∧
      described s a.input = .ok services ∧
      ((settings.chosen a.unwrap).generate services).outcome = .ok tree ∧
      FileSystem.write s a.output (Metadata.toJson tree).prettyText = .ok s' ∧
      stages a s = (.ok (distinctServices services), s') := by
  rw [stages]
  cases hc : configured s a.config
  case error e     => exact .inl ⟨e, rfl⟩
  case ok settings =>
    cases hd : described s a.input
    case error e     => exact .inl ⟨e, rfl⟩
    case ok services =>
      cases ht : ((settings.chosen a.unwrap).generate services).outcome
      case error e => exact .inl ⟨.generate e, by simp only [ht]⟩
      case ok tree =>
        cases hw : FileSystem.write s a.output (Metadata.toJson tree).prettyText
        case error e => exact .inl ⟨.disk e, by simp only [ht, hw]⟩
        case ok s'   =>
          exact .inr ⟨settings, services, tree, s', rfl, rfl, ht, hw, by simp only [ht, hw]⟩

theorem stages_eq_error {a : Arguments} {s s' : φ} {e : RunError}
    (h : stages a s = (.error e, s')) : s' = s := by
  cases stages_cases a s
  case inl hs =>
    obtain ⟨_, hs⟩ := hs
    exact (congrArg Prod.snd (hs.symm.trans h)).symm
  case inr hs =>
    obtain ⟨_, _, _, _, _, _, _, _, hs⟩ := hs
    cases hs.symm.trans h

theorem stages_eq_ok {a : Arguments} {s s' : φ} {n : Nat} (h : stages a s = (.ok n, s')) :
    ∃ settings services tree,
      configured s a.config = .ok settings ∧
      described s a.input = .ok services ∧
      ((settings.chosen a.unwrap).generate services).outcome = .ok tree ∧
      n = distinctServices services ∧
      FileSystem.write s a.output (Metadata.toJson tree).prettyText = .ok s' := by
  cases stages_cases a s
  case inl hs =>
    obtain ⟨_, hs⟩ := hs
    cases hs.symm.trans h
  case inr hs =>
    obtain ⟨settings, services, tree, _, hc, hd, ht, hw, hs⟩ := hs
    cases hs.symm.trans h
    exact ⟨settings, services, tree, hc, hd, ht, rfl, hw⟩

variable [LawfulFileSystem φ]

theorem parsed_eq_ok {ε α : Type} {parse : String → Except ε α}
    {unreadable : DiskError → RunError} {invalid : ε → RunError} {s : φ} {path : String} {a : α}
    (h : parsed parse unreadable invalid s path = .ok a) :
    ∃ text, Holds s path text ∧ parse text = .ok a := by
  rw [parsed] at h
  cases hr : FileSystem.read s path <;> simp only [hr] at h
  case error => cases h
  case ok text =>
    cases hp : parse text <;> simp only [hp, Except.mapError] at h <;> cases h
    exact ⟨text, LawfulFileSystem.read_eq_ok hr, hp⟩

-- What holds of a run with a number of services for its result, between the files before it and
-- the files after it.
structure Completes (a : Arguments) (s : φ) (settings : Settings) (services : List Service)
    (tree : Metadata) (count : Nat) (s' : φ) : Prop where
  config    : ∃ text, Holds s a.config text ∧ Settings.parse text = .ok settings
  input     : ∃ text, Holds s a.input text ∧ Service.format.list.read text = .ok services
  generated : ((settings.chosen a.unwrap).generate services).outcome = .ok tree
  count     : count = distinctServices services
  written   : Overwrites s a.output (Metadata.toJson tree).prettyText s'

theorem completes_of_stages {a : Arguments} {s s' : φ} {n : Nat}
    (h : stages a s = (.ok n, s')) :
    ∃ settings services tree, Completes a s settings services tree n s' := by
  have ⟨settings, services, tree, hc, hd, ht, hn, hw⟩ := stages_eq_ok h
  exact ⟨settings, services, tree, {
    config    := parsed_eq_ok hc
    input     := parsed_eq_ok hd
    generated := ht
    count     := hn
    written   := LawfulFileSystem.write_eq_ok hw
  }⟩

-- A run ends at the first stage that fails, and then all files are as they were. If no stage fails,
-- the tree of the services is in the file for it, and all other files are as they were.
theorem run_by_stages (a : Arguments) (w : World φ) :
    ∃ result store log, w.perform (run a) = (result, { store, log }) ∧
      (result, store) = stages a w.store ∧
      (∀ e, result = .error e → store = w.store) ∧
      ∀ n, result = .ok n → ∃ settings services tree,
        Completes a w.store settings services tree n store := by
  have ⟨log, h⟩ := perform_run w a
  refine ⟨(stages a w.store).1, (stages a w.store).2, log, h, rfl, ?error, ?ok⟩
  case error => exact fun e he => stages_eq_error (Prod.ext he rfl)
  case ok    => exact fun n hn => completes_of_stages (Prod.ext hn rfl)

-- A run whose input and output are one file, by two paths.
def inPlace : Arguments where
  config := "suds.toml"
  output := "./shop.json"
  unwrap := some true
  input  := "shop.json"

def inPlaceWorld : World FileStore where
  store := {
    files := .ofList [
      ("suds.toml", "[namespaces]\n".toUTF8),
      ("shop.json", "[\x7b\"service\": \"Shop\", \"port\": \"Soap\",
        \"address\": \"a\", \"operations\": []\x7d]".toUTF8)]
    directories := [] }

def inPlaceTree : Metadata :=
  .ofList [("Shop", .ofList [("Soap", { operations := ∅, unwrap := true, endpoint := "a" })])]

theorem write_inPlace (text : String) :
    FileSystem.write inPlaceWorld.store inPlace.output text = .ok { inPlaceWorld.store with
      files := inPlaceWorld.store.files.insert "shop.json" text.toUTF8 } := by
  have ht : inPlaceWorld.store.target inPlace.output = .ok ["shop.json"] := by decide +kernel
  change inPlaceWorld.store.write inPlace.output text = _
  rw [FileStore.write, ht]
  rfl

theorem stages_inPlace :
    ∃ store, stages inPlace inPlaceWorld.store = (.ok 1, store) ∧
      FileSystem.write inPlaceWorld.store inPlace.output (Metadata.toJson inPlaceTree).prettyText =
        .ok store := by
  have hc : configured inPlaceWorld.store inPlace.config = .ok { namespaces := ∅ } := by
    decide +kernel
  have hd : described inPlaceWorld.store inPlace.input =
      .ok [{ service := "Shop", port := "Soap", address := "a", operations := [] }] := by
    decide +kernel
  have ht : ((Settings.chosen { namespaces := ∅ } inPlace.unwrap).generate
      [{ service := "Shop", port := "Soap", address := "a", operations := [] }]).outcome =
        .ok inPlaceTree := rfl
  refine ⟨_, ?_, write_inPlace _⟩
  simp only [stages, hc, hd, ht, write_inPlace]
  rfl

theorem run_by_stages_inPlace :
    ∃ store log, inPlaceWorld.perform (run inPlace) = (.ok 1, { store, log }) ∧
      (∃ settings services,
        Completes inPlace inPlaceWorld.store settings services inPlaceTree 1 store) ∧
      ∃ text, store.read inPlace.output = .ok text ∧
        (Json.Document.read? text >>= Json.Document.metadata?) = some inPlaceTree := by
  have ⟨result, store, log, h, hs, _, hn⟩ := run_by_stages inPlace inPlaceWorld
  obtain ⟨store', hs', hw⟩ := stages_inPlace
  obtain ⟨rfl, rfl⟩ := Prod.mk.inj (hs.trans hs')
  obtain ⟨settings, services, tree, hc⟩ := hn 1 rfl
  have ht : tree = inPlaceTree :=
    Metadata.prettyText_inj (hc.written.text_eq (LawfulFileSystem.write_eq_ok hw))
  exact ⟨store, log, h, ⟨settings, services, ht ▸ hc⟩, _, FileStore.read_of_write hw,
    inPlaceTree.read?_prettyText⟩

-- In a file store the tree can then be read where it was to be written.
theorem read_output_of_run {a : Arguments} {w w' : World FileStore} {n : Nat}
    (h : w.perform (run a) = (.ok n, w')) :
    ∃ settings services tree,
      ((Settings.chosen settings a.unwrap).generate services).outcome = .ok tree ∧
        w'.store.read a.output = .ok (Metadata.toJson tree).prettyText := by
  have ⟨log, hr⟩ := perform_run w a
  have ⟨h₁, h₂⟩ := Prod.mk.inj (hr.symm.trans h)
  have hs : stages a w.store = (.ok n, w'.store) := Prod.ext h₁ (congrArg World.store h₂)
  have ⟨settings, services, tree, _, _, ht, _, hw⟩ := stages_eq_ok hs
  exact ⟨settings, services, tree, ht, FileStore.read_of_write hw⟩

end SoapBindings

import SoapBindings.CommandLine
import SoapBindings.FileStore
import SoapBindings.LogFilter
import SoapBindings.Metadata.Format
import SoapBindings.Service.Format
import SoapBindings.Settings
-- A run of the program: settings and service descriptions are read from files, and the metadata is
-- written to a file. The first stage that fails decides the outcome, and nothing is written before
-- the last stage. What a run needs of the world around it are files and a log.

namespace SoapBindings

class MonadDisk (m : Type → Type) where
  readText  : String → m (Except DiskError String)
  writeText : String → String → m (Except DiskError Unit)

class MonadJournal (m : Type → Type) where
  log : LogRecord → m Unit

export MonadDisk (readText writeText)

inductive LoadError where
  | unreadable (e : DiskError)
  | invalid (e : SettingsError)
  deriving DecidableEq, Repr

def LoadError.message? : LoadError → Option String
  | unreadable e => some s!"Unable to read config file: {e.message}"
  | invalid e    => e.message?

inductive RunError where
  | settings (e : LoadError)
  | disk (e : DiskError)
  | services (e : Json.ReadError)
  | generate (e : GenerateError)
  deriving DecidableEq, Repr

-- Errors in the texts that are read have no wording of their own here.
def RunError.message? : RunError → Option String
  | settings _ => none
  | disk e     => some s!"Unable to read services or write metadata: {e.message}"
  | services _ => none
  | generate e => some s!"Unable to generate metadata: {e.message}"

-- Errors with all that they are made of.
def GenerateError.debugText : GenerateError → String
  | unresolvedNamespace nspace =>
    s!"GenerateError(UnresolvedNamespace \x7b namespace: {Text.quoted nspace} \x7d)"

def LoadError.debugText : LoadError → String
  | unreadable e => s!"ReadError({e.debugText})"
  | invalid e    => s!"ParseError({e.debugText})"

def RunError.debugText : RunError → String
  | settings e => s!"ConfigError({e.debugText})"
  | disk e     => s!"IoError({e.debugText})"
  | services e => s!"JsonError({e.debugText})"
  | generate e => e.debugText

namespace Log

def programTarget : String :=
  "suds"

def settingsTarget : String :=
  "suds::config"

def generatorTarget : String :=
  "suds_metadata::generator"

end Log

section

variable {m : Type → Type} [Monad m] [MonadDisk m] [MonadJournal m]

-- Notices go to the log, and questions are between a generator and its naming strategy.
def logEvent : Event → m Unit
  | .notice n  =>
    MonadJournal.log { severity := n.severity, target := Log.generatorTarget, text := n.text }
  | .inquiry _ => pure ()

-- The value of a computation, whose report goes to the log.
def logged {α : Type} (x : Journaled α) : m α := do
  x.events.forM logEvent
  return x.value

def Settings.load (path : String) : ExceptT LoadError m Settings := do
  (MonadJournal.log {
    severity := .debug
    target   := Log.settingsTarget
    text     := s!"Loading config from {path}" } : m Unit)
  match ← (readText path : m _) with
  | .error e => throw (.unreadable e)
  | .ok text =>
    match Settings.parse text with
    | .error e => throw (.invalid e)
    | .ok s    => return s

-- The generator for a run, of which an argument may override the unwrap setting.
def overriding (g : Generator) : Option Bool → Generator
  | some unwrap => g.setUnwrap unwrap
  | none        => g

-- The result of a run is the number of services in the metadata.
def run (a : Arguments) : ExceptT RunError m Nat := do
  let settings ← (Settings.load a.config).adapt RunError.settings
  let text ← attempt RunError.disk (readText a.input)
  let services ← attempt RunError.services (pure (Service.format.list.read text))
  let g ← (logged (settings.generator .short) : m _)
  let tree ← attempt RunError.generate (logged ((overriding g a.unwrap).generate services).run)
  attempt RunError.disk (writeText a.output (Metadata.toJson tree).prettyText)
  return tree.size
where
  attempt {ε α : Type} (wrap : ε → RunError) (x : m (Except ε α)) : ExceptT RunError m α :=
    (ExceptT.mk x).adapt wrap

inductive Failure where
  | usage (e : UsageError)
  | run (e : RunError)
  deriving DecidableEq, Repr

-- What an invocation of the program leaves behind besides files and the log.
structure Report where
  output  : String := ""
  failure : Option Failure := none
  deriving DecidableEq, Repr

def Report.exitCode (r : Report) : Nat :=
  if r.failure.isSome then 1 else 0

def invoke (args : List String) : m Report := do
  match CommandLine.parse args with
  | .error .help      => return { output := CommandLine.helpText }
  | .error .version   => return { output := CommandLine.versionText }
  | .error (.usage e) => return { failure := some (.usage e) }
  | .ok a =>
    match ← (run a).run with
    | .error e  => return { failure := some (.run e) }
    | .ok count =>
      MonadJournal.log {
        severity := .info
        target   := Log.programTarget
        text     := s!"Wrote metadata for {count} services to {a.output}" }
      return {}

end

end SoapBindings

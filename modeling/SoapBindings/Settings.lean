import SoapBindings.Generator
import SoapBindings.Mismatch
import SoapBindings.Decimal.Notation
import SoapBindings.Toml.Document
-- The settings of a generator, as a TOML document holds them: a host namespace for each XML
-- namespace, base namespaces, alternative endpoints of ports, and whether messages are unwrapped.

namespace SoapBindings

structure Settings where
  namespaces : StringMap String
  base       : StringMap String := ∅
  endpoints  : StringMap (StringMap String) := ∅
  unwrap     : Bool := false
  deriving DecidableEq

-- The text is no TOML document, or the document does not hold settings.
inductive SettingsError where
  | malformed
  | mismatch (m : Mismatch)
  | missingField (name : String)
  deriving DecidableEq, Repr

namespace SettingsError

def message? : SettingsError → Option String
  | malformed         => none
  | mismatch m        => some m.message
  | missingField name => some s!"missing field `{name}`"

-- Two dots stand for the place in the document, and for the wording where there is none.
def debugText (e : SettingsError) : String :=
  let told :=
    match e.message? with
    | some message => s!"message: {Text.quoted message}, .."
    | none         => ".."
  s!"Error \x7b inner: Error \x7b inner: TomlError \x7b {told} \x7d \x7d \x7d"

end SettingsError

namespace Toml.Value

def layout : Decimal.Layout where
  isPositional _ := true
  tie            := .upward

def found : Value → Found
  | string s   => .string s
  | integer n  => .integer n
  | float x    => .float (Decimal.render layout x)
  | boolean b  => .boolean b
  | dateTime _ => .map
  | array _    => .sequence
  | table _    => .map

-- The key under which a date or a time counts as a table.
def dateTimeKey : String :=
  "$__toml_private_datetime"

-- A date or a time counts as a table with its text as the one entry.
def entries? : Value → Option (List (String × Value))
  | table entries => some entries
  | dateTime d    => some [(dateTimeKey, string d.text)]
  | _             => none

end Toml.Value

namespace Settings

open Toml (Value)

abbrev Read := Except SettingsError

def readString : Value → Read String
  | .string s => return s
  | v         => throw (.mismatch ⟨v.found, .string⟩)

def readBoolean : Value → Read Bool
  | .boolean b => return b
  | v          => throw (.mismatch ⟨v.found, .boolean⟩)

-- The entries are read in their order, and the first that cannot be read is the error.
def readMap {α : Type} (readValue : Value → Read α) (v : Value) : Read (StringMap α) :=
  match v.entries? with
  | some entries => do
    let pairs ← entries.mapM fun (key, value) => do return (key, ← readValue value)
    return .ofList pairs
  | none => throw (.mismatch ⟨v.found, .map⟩)

-- The settings in the course of being read.
structure Draft where
  namespaces : Option (StringMap String) := none
  base       : StringMap String := ∅
  endpoints  : StringMap (StringMap String) := ∅
  unwrap     : Bool := false

-- Entries that are no settings may have any value.
def Draft.read (d : Draft) (key : String) (value : Value) : Read Draft := do
  if key = "namespaces" then
    return { d with namespaces := some (← readMap readString value) }
  else if key = "base_ns" then
    return { d with base := ← readMap readString value }
  else if key = "endpoints" then
    return { d with endpoints := ← readMap (readMap readString) value }
  else if key = "unwrap" then
    return { d with unwrap := ← readBoolean value }
  else return d

-- The namespaces are the one setting that must be there.
def Draft.complete (d : Draft) : Read Settings :=
  match d.namespaces with
  | none            => throw (.missingField "namespaces")
  | some namespaces =>
    return { namespaces, base := d.base, endpoints := d.endpoints, unwrap := d.unwrap }

def ofEntries (entries : List (String × Value)) : Read Settings := do
  let d ← entries.foldlM (fun (d : Draft) (key, value) => d.read key value) {}
  d.complete

def parse (text : String) : Read Settings :=
  match Toml.parse? text with
  | some entries => ofEntries entries
  | none         => throw .malformed

-- A generator made of the entries of maps in any order.
def assemble (naming : NamingStrategy) (namespaces : StringMap String) (unwrap : Bool)
    (base : List (String × String)) (endpoints : List (String × List (String × String))) :
    Journaled Generator := do
  let g : Generator := { naming, namespaces }
  let g ← g.setBaseNamespaces base
  return endpoints.foldl
    (fun g (service, ports) =>
      ports.foldl (fun g (port, endpoint) => g.addAlternativeEndpoint service port endpoint) g)
    (g.setUnwrap unwrap)

def generator (s : Settings) (naming : NamingStrategy) : Journaled Generator :=
  assemble naming s.namespaces s.unwrap s.base.entries
    (s.endpoints.entries.map fun (service, ports) => (service, ports.entries))

end Settings
end SoapBindings

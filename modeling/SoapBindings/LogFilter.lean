import SoapBindings.Journal
import SoapBindings.Text
import SoapBindings.Text.Pattern.Notation
-- Records of the log, and the filters that choose among them. A filter has a level for the records
-- of each target, of which the most specific entry counts, and may have a pattern for their texts.

namespace SoapBindings

structure LogRecord where
  severity : Severity
  target   : String
  text     : String
  deriving DecidableEq, Repr

-- The lines of the log that the text of a record fills. Those after the first are set in.
def LogRecord.lines (r : LogRecord) : List String :=
  match Text.split '\n' r.text with
  | []            => []
  | first :: more => first :: more.map ("    " ++ ·)

namespace LogFilter

-- How many of the severities pass, from the most severe one on.
abbrev Level := Nat

def level? (name : String) : Option Level :=
  let name := name.map Char.toLower
  if name = "off" then some 0
  else ([.error, .warn, .info, .debug, .trace] : List Severity).find?
    (·.name.map Char.toLower = name) |>.map Severity.rank

-- The level for the targets whose names begin with a text, or for all targets.
structure Entry where
  target : Option String
  level  : Level
  deriving DecidableEq, Repr

-- A level alone is for all targets, and a target alone has all levels.
def entry? (text : String) : Option Entry :=
  let cs := text.toList
  let name := String.ofList (cs.takeWhile (· ≠ '='))
  match cs.dropWhile (· ≠ '=') with
  | [] =>
    match level? name with
    | some level => some { target := none, level }
    | none       => some { target := name, level := Severity.trace.rank }
  | _ :: cs =>
    let value := Text.trim (.ofList cs)
    if value.isEmpty then some { target := name, level := Severity.trace.rank }
    else (level? value).map fun level => { target := name, level }

-- An entry replaces the one for the same target.
def insert (entries : List Entry) (e : Entry) : List Entry :=
  if entries.any (·.target = e.target) then
    entries.map fun old => if old.target = e.target then e else old
  else entries ++ [e]

end LogFilter

structure LogFilter where
  entries : List LogFilter.Entry
  pattern : Option Text.Pattern

namespace LogFilter

-- Where nothing is asked for, errors pass.
def ofEntries (entries : List Entry) (pattern : Option Text.Pattern) : LogFilter where
  entries := if entries.isEmpty then [⟨none, Severity.error.rank⟩] else entries
  pattern := pattern

-- Entries that say nothing have no part in a filter, and neither has an invalid pattern.
def ofText (text : Option String) : LogFilter :=
  match Text.split '/' (text.getD "") with
  | [entries]          => ofEntries (readEntries entries) none
  | [entries, pattern] => ofEntries (readEntries entries) (Text.Pattern.ofText? pattern)
  | _                  => ofEntries [] none
where
  readEntries (text : String) : List Entry :=
    let pieces := (Text.split ',' text).map Text.trim
    ((pieces.filter (!·.isEmpty)).filterMap entry?).foldl insert []

-- Of the entries that a target falls under, the one with the longest text, and of two the later
-- one.
def levelFor (f : LogFilter) (target : String) : Level :=
  let (_, level) := f.entries.foldl
    (fun (length, level) e =>
      let text := e.target.getD ""
      if text.toList.isPrefixOf target.toList && length ≤ text.length then (text.length, e.level)
      else (length, level))
    (0, 0)
  level

def accepts (f : LogFilter) (r : LogRecord) : Bool :=
  r.severity.rank ≤ f.levelFor r.target && f.pattern.all (·.occursIn r.text)

end LogFilter
end SoapBindings

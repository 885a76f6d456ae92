import SoapBindings.Text.Quoted
-- A value of one kind where a reader needs one of another kind.

namespace SoapBindings

-- What was found. Numbers are here as the format in question writes them.
inductive Found where
  | null
  | boolean (b : Bool)
  | integer (n : Int)
  | float (text : String)
  | string (s : String)
  | sequence
  | map
  deriving DecidableEq, Repr

inductive Expected where
  | string
  | boolean
  | sequence
  | map
  | record (name : String)
  deriving DecidableEq, Repr

def Found.text : Found → String
  | null       => "null"
  | boolean b  => s!"boolean `{b}`"
  | integer n  => s!"integer `{n}`"
  | float text => s!"floating point `{text}`"
  | string s   => s!"string {Text.quoted s}"
  | sequence   => "sequence"
  | map        => "map"

def Expected.text : Expected → String
  | string      => "a string"
  | boolean     => "a boolean"
  | sequence    => "a sequence"
  | map         => "a map"
  | record name => s!"struct {name}"

structure Mismatch where
  found    : Found
  expected : Expected
  deriving DecidableEq, Repr

def Mismatch.message (m : Mismatch) : String :=
  s!"invalid type: {m.found.text}, expected {m.expected.text}"

end SoapBindings

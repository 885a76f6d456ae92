-- The command line: options that take a value, of which the config is required, and one input.
-- Arguments are read from the first to the last and an unknown one is an error at once. What is
-- missing or too much is found at the end.

namespace SoapBindings

structure Arguments where
  config : String
  output : String
  unwrap : Option Bool
  input  : String
  deriving DecidableEq, Repr

inductive UsageError where
  | missingArgument
  | unknownArgument
  | repeatedOption
  | missingValue
  | invalidValue
  deriving DecidableEq, Repr

namespace CommandLine

inductive OptionName where
  | config
  | output
  | unwrap
  deriving DecidableEq, Repr

namespace OptionName

def ofLong? (name : List Char) : Option OptionName :=
  if name = "config".toList then some config
  else if name = "output".toList then some output
  else if name = "unwrap".toList then some unwrap
  else none

def ofShort? : Char → Option OptionName
  | 'c' => some config
  | 'o' => some output
  | _   => none

end OptionName

-- There are no arguments for a run, because of an error or because other information is asked for.
inductive Stop where
  | usage (e : UsageError)
  | help
  | version
  deriving DecidableEq, Repr

def Stop.ofLong? (name : List Char) : Option Stop :=
  if name = "help".toList then some help
  else if name = "version".toList then some version
  else none

def Stop.ofShort? : Char → Option Stop
  | 'h' => some help
  | 'V' => some version
  | _   => none

-- How often an option is given, and with which values.
structure Given where
  count  : Nat := 0
  values : List String := []
  deriving DecidableEq, Repr

def Given.isBare (g : Given) : Bool :=
  0 < g.count && g.values.isEmpty

-- The arguments so far. An option that waits takes the next argument for its value. After `--`
-- every argument is an input.
structure Progress where
  waiting : Option OptionName := none
  plain   : Bool := false
  config  : Given := {}
  output  : Given := {}
  unwrap  : Given := {}
  input   : Option String := none
  deriving DecidableEq, Repr

namespace Progress

def given (p : Progress) : OptionName → Given
  | .config => p.config
  | .output => p.output
  | .unwrap => p.unwrap

def modify (p : Progress) (f : Given → Given) : OptionName → Progress
  | .config => { p with config := f p.config }
  | .output => { p with output := f p.output }
  | .unwrap => { p with unwrap := f p.unwrap }

def addValue (p : Progress) (o : OptionName) (value : String) : Progress :=
  { p.modify (fun g => { g with values := g.values ++ [value] }) o with waiting := none }

-- An option with its value attached, or an option that waits for its value. Signs of equality in
-- front of an attached value do not belong to it.
def addOption (p : Progress) (o : OptionName) (attached : Option (List Char)) : Progress :=
  let p := p.modify (fun g => { g with count := g.count + 1 }) o
  match attached with
  | some value => p.addValue o (.ofList (value.dropWhile (· = '=')))
  | none       => { p with waiting := some o }

def addInput (p : Progress) (arg : String) : Except Stop Progress :=
  match p.input with
  | some _ => .error (.usage .unknownArgument)
  | none   => .ok { p with input := some arg }

-- A long option with a value has a sign of equality between the two.
def addLong (p : Progress) (body : List Char) : Except Stop Progress :=
  let name := body.takeWhile (· ≠ '=')
  match OptionName.ofLong? name with
  | some o =>
    match body.dropWhile (· ≠ '=') with
    | []         => .ok (p.addOption o none)
    | _ :: value => .ok (p.addOption o (some value))
  | none => .error ((Stop.ofLong? name).getD (.usage .unknownArgument))

-- The value of a short option follows its letter.
def addShort (p : Progress) (letter : Char) (value : List Char) : Except Stop Progress :=
  match OptionName.ofShort? letter with
  | some o => .ok (p.addOption o (if value.isEmpty then none else some value))
  | none   => .error ((Stop.ofShort? letter).getD (.usage .unknownArgument))

def addValueOrInput (p : Progress) (arg : String) : Except Stop Progress :=
  match p.waiting with
  | some o => .ok (p.addValue o arg)
  | none   => p.addInput arg

-- A hyphen alone is a value or an input as any other.
def add (p : Progress) (arg : String) : Except Stop Progress :=
  if p.plain then p.addInput arg
  else match arg.toList with
    | ['-']              => p.addValueOrInput arg
    | ['-', '-']         => .ok { p with plain := true }
    | '-' :: '-' :: body => p.addLong (body.dropWhile (· = '-'))
    | '-' :: c :: value  => p.addShort c value
    | _                  => p.addValueOrInput arg

end Progress

def defaultOutput : String :=
  "./metadata.json"

def boolean? (s : String) : Option Bool :=
  if s = "true" then some true
  else if s = "false" then some false
  else none

-- The required arguments come first, then options that were given without a value. Only the output
-- may be, for it has a default.
def Progress.finish (p : Progress) : Except UsageError Arguments := do
  let some input := p.input | throw .missingArgument
  if p.config.count = 0 then throw .missingArgument
  let some config := p.config.values.head? | throw .missingValue
  if p.unwrap.isBare then throw .missingValue
  if p.unwrap.values.any fun v => (boolean? v).isNone then throw .invalidValue
  if 1 < p.config.count || 1 < p.output.count || 1 < p.unwrap.count then throw .repeatedOption
  return {
    config
    output := p.output.values.head?.getD defaultOutput
    unwrap := p.unwrap.values.head? >>= boolean?
    input
  }

-- The arguments after the name of the program.
def parse (args : List String) : Except Stop Arguments := do
  let p ← args.foldlM Progress.add {}
  match p.finish with
  | .ok a    => .ok a
  | .error e => .error (.usage e)

def versionText : String :=
  "suds 0.1.0\n"

def helpText : String :=
  versionText ++
  "\nUSAGE:\n" ++
  "    suds [OPTIONS] <input> --config <config>\n" ++
  "\nFLAGS:\n" ++
  "    -h, --help       Prints help information\n" ++
  "    -V, --version    Prints version information\n" ++
  "\nOPTIONS:\n" ++
  "    -c, --config <config>    \n" ++
  "    -o, --output <output>     [default: ./metadata.json]\n" ++
  "        --unwrap <unwrap>    Override the config's unwrap setting (`true` or `false`)\n" ++
  "\nARGS:\n" ++
  "    <input>    JSON array of parsed per-port service descriptions\n"

end CommandLine
end SoapBindings

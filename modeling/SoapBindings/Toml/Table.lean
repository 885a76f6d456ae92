import SoapBindings.Toml.Value
-- Tables while a document is being read. A table remembers how it came about, which decides what
-- may still be added to it.

namespace SoapBindings.Toml

inductive Origin where
  -- It has a header of its own.
  | header
  -- Only tables within it have headers so far.
  | implied
  -- Dotted keys made it.
  | dotted
  deriving DecidableEq, Repr

inductive Item where
  | value (v : Value)
  | table (origin : Origin) (entries : List (String × Item))
  | tables (elements : List (List (String × Item)))

abbrev Table := List (String × Item)

-- A value with the keys that lead to it.
structure Assignment where
  path  : List String
  key   : String
  value : Value

namespace Table

def item? (t : Table) (key : String) : Option Item :=
  t.lookup key

-- Puts an item in the place of the one under its key.
def replace (t : Table) (key : String) (item : Item) : Table :=
  t.map fun (k, i) => if k = key then (k, item) else (k, i)

def remove (t : Table) (key : String) : Table :=
  t.filter (·.1 ≠ key)

-- Changes the last table of an array of tables.
def changeLast (change : Table → Option Table) : List Table → Option (List Table)
  | []      => none
  | [t]     => (change t).map ([·])
  | t :: ts => (changeLast change ts).map (t :: ·)

def putHere (t : Table) (key : String) (v : Value) : Option Table :=
  match t.item? key with
  | some _ => none
  | none   => some (t ++ [(key, .value v)])

-- Dotted keys make the tables that they lead through. They may also lead through tables that have
-- no header, but they add to such tables only as dotted keys have made.
def put (path : List String) (key : String) (v : Value) (t : Table) : Option Table :=
  match path with
  | [] => t.putHere key v
  | p :: path =>
    match t.item? p with
    | none => do
      let inner ← put path key v []
      return t ++ [(p, .table .dotted inner)]
    | some (.table origin inner) =>
      if origin = .header || (path.isEmpty && origin ≠ .dotted) then none
      else do
        let inner ← put path key v inner
        return t.replace p (.table origin inner)
    | some (.tables elements) =>
      if path.isEmpty then none
      else do
        let elements ← changeLast (put path key v) elements
        return t.replace p (.tables elements)
    | some (.value _) => none

def assign (t : Table) (a : Assignment) : Option Table :=
  put a.path a.key a.value t

-- The tables that a header leads through come about by it where they are not there yet. In an array
-- of tables the way goes through the last one.
def descend (change : Table → Option Table) (path : List String) (t : Table) : Option Table :=
  match path with
  | [] => change t
  | p :: path =>
    match t.item? p with
    | none => do
      let inner ← descend change path []
      return t ++ [(p, .table .implied inner)]
    | some (.table origin inner) => do
      let inner ← descend change path inner
      return t.replace p (.table origin inner)
    | some (.tables elements) => do
      let elements ← changeLast (descend change path) elements
      return t.replace p (.tables elements)
    | some (.value _) => none

-- A table has one header. If it is there already, then because of headers within it, and it moves
-- to the place of its own header.
def openTable (key : String) (body : List Assignment) (t : Table) : Option Table :=
  match t.item? key with
  | none => do
    let inner ← body.foldlM assign []
    return t ++ [(key, .table .header inner)]
  | some (.table .implied inner) => do
    let inner ← body.foldlM assign inner
    return t.remove key ++ [(key, .table .header inner)]
  | some _ => none

-- An array of tables takes one more table for each of its headers.
def openElement (key : String) (body : List Assignment) (t : Table) : Option Table :=
  match t.item? key with
  | none => do
    let inner ← body.foldlM assign []
    return t ++ [(key, .tables [inner])]
  | some (.tables elements) => do
    let inner ← body.foldlM assign []
    return t.replace key (.tables (elements ++ [inner]))
  | some _ => none

end Table

mutual

-- What a finished table says.
def Item.toValue : Item → Value
  | .value v         => v
  | .table _ entries => .table (Item.entries entries)
  | .tables elements => .array (Item.elements elements)

def Item.entries : List (String × Item) → List (String × Value)
  | []                  => []
  | (key, item) :: rest => (key, item.toValue) :: Item.entries rest

def Item.elements : List (List (String × Item)) → List Value
  | []              => []
  | element :: rest => .table (Item.entries element) :: Item.elements rest

end

end SoapBindings.Toml

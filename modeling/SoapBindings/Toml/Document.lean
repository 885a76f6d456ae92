import SoapBindings.Toml.Lexical
import SoapBindings.Toml.Table
-- TOML documents. A document is a list of statements, one to a line: assignments, and the headers
-- of the tables to which the assignments after them belong.

namespace SoapBindings.Toml

-- Arrays and inline tables may be nested this deep, and so many keys may be joined by dots.
def depthLimit : Nat :=
  79

namespace Key

def isBare (c : Char) : Bool :=
  isDigit c || ('a' ≤ c && c ≤ 'z') || ('A' ≤ c && c ≤ 'Z') || c = '_' || c = '-'

-- A key is bare or quoted on one line.
def simple : Reader String := fun cs => do
  match cs with
  | '"' :: cs =>
    let (content, cs) ← Strings.basic .plain cs
    return (.ofList content, cs)
  | '\'' :: cs =>
    let (content, cs) ← Strings.literal cs
    return (.ofList content, cs)
  | cs =>
    let content := cs.takeWhile isBare
    if content.isEmpty then none else some (.ofList content, cs.dropWhile isBare)

-- Keys joined by dots, with blanks around each of them. `fuel` is the length of the text.
def joined : (fuel : Nat) → Reader (List String)
  | 0, _ => none
  | fuel + 1, cs => do
    let (key, cs) ← simple (skipBlanks cs)
    match skipBlanks cs with
    | '.' :: cs =>
      let (keys, cs) ← joined fuel cs
      return (key :: keys, cs)
    | cs => return ([key], cs)

-- The keys before the last one, and the last one.
def path : Reader (List String × String) := fun cs => do
  let (keys, cs) ← joined cs.length cs
  let last ← keys.getLast?
  if depthLimit < keys.length then none else return ((keys.dropLast, last), cs)

end Key

def assignment (value : Reader Value) : Reader Assignment := fun cs => do
  let ((path, key), cs) ← Key.path cs
  match cs with
  | '=' :: cs =>
    let (v, cs) ← value (skipBlanks cs)
    return ({ path, key, value := v }, cs)
  | _ => none

-- Blanks, line breaks and comments between the items of an array. `fuel` is the length of the text.
def skipLines : (fuel : Nat) → List Char → List Char
  | 0,        cs => cs
  | fuel + 1, cs =>
    match skipComment (skipBlanks cs) with
    | '\n' :: cs         => skipLines fuel cs
    | '\r' :: '\n' :: cs => skipLines fuel cs
    | cs                 => cs

def skipSpace (cs : List Char) : List Char :=
  skipLines cs.length cs

-- The items of an array after its opening bracket. There may be a comma after the last one.
def items (value : Reader Value) : (fuel : Nat) → Reader (List Value)
  | 0, _ => none
  | fuel + 1, cs => do
    match skipSpace cs with
    | ']' :: cs => return ([], cs)
    | cs =>
      let (v, cs) ← value cs
      match skipSpace cs with
      | ',' :: cs =>
        let (vs, cs) ← items value fuel cs
        return (v :: vs, cs)
      | ']' :: cs => return ([v], cs)
      | _ => none

-- The assignments of an inline table, of which there is one at least.
def inlineAssignments (value : Reader Value) : (fuel : Nat) → Reader (List Assignment)
  | 0, _ => none
  | fuel + 1, cs => do
    let (a, cs) ← assignment value cs
    match skipBlanks cs with
    | ',' :: cs =>
      let (rest, cs) ← inlineAssignments value fuel cs
      return (a :: rest, cs)
    | '\x7d' :: cs => return ([a], cs)
    | _ => none

-- An inline table stands on one line, after its opening brace, and is finished with its closing
-- one.
def inlineTable (value : Reader Value) : Reader Value := fun cs => do
  match skipBlanks cs with
  | '\x7d' :: cs => return (.table [], cs)
  | cs =>
    let (assignments, cs) ← inlineAssignments value cs.length cs
    let t ← assignments.foldlM Table.assign []
    return (.table (Item.entries t), cs)

-- A value within so many levels of arrays and inline tables.
def value : (levels : Nat) → Reader Value
  | 0, cs =>
    match cs with
    | '[' :: _    => none
    | '\x7b' :: _ => none
    | cs          => scalar cs
  | levels + 1, cs =>
    match cs with
    | '[' :: cs    => (items (value levels) cs.length cs).map fun (vs, cs) => (.array vs, cs)
    | '\x7b' :: cs => inlineTable (value levels) cs
    | cs           => scalar cs

-- A header opens a table, or one more table of an array.
inductive HeaderKind where
  | table
  | element
  deriving DecidableEq, Repr

inductive Statement where
  | assign (a : Assignment)
  | header (kind : HeaderKind) (path : List String) (key : String)

namespace Statement

def read? : Reader Statement := fun cs => do
  match cs with
  | '[' :: '[' :: cs =>
    let ((path, key), cs) ← Key.path cs
    match cs with
    | ']' :: ']' :: cs => return (.header .element path key, cs)
    | _ => none
  | '[' :: cs =>
    let ((path, key), cs) ← Key.path cs
    match cs with
    | ']' :: cs => return (.header .table path key, cs)
    | _ => none
  | cs =>
    let (a, cs) ← assignment (value depthLimit) cs
    return (.assign a, cs)

-- The statements of a text. A line may have none. `fuel` exceeds the number of lines.
def readAll : (fuel : Nat) → List Char → Option (List Statement)
  | 0, _ => none
  | fuel + 1, cs =>
    match skipBlanks cs with
    | [] => some []
    | c :: cs =>
      if c = '#' || c = '\n' || c = '\r' then do
        readAll fuel (← restOfLine (c :: cs))
      else do
        let (s, cs) ← read? (c :: cs)
        let rest ← readAll fuel (← restOfLine cs)
        return s :: rest

end Statement

-- A header with the assignments after it.
structure Section where
  kind : HeaderKind
  path : List String
  key  : String
  body : List Assignment

-- The assignments before the first header, and the sections.
def sections : List Statement → List Assignment × List Section
  | [] => ([], [])
  | s :: rest =>
    let (body, more) := sections rest
    match s with
    | .assign a              => (a :: body, more)
    | .header kind path key  => ([], { kind, path, key, body } :: more)

def Section.add (t : Table) (s : Section) : Option Table :=
  t.descend
    (match s.kind with
      | .table   => Table.openTable s.key s.body
      | .element => Table.openElement s.key s.body)
    s.path

def Table.ofStatements? (statements : List Statement) : Option Table := do
  let (body, more) := sections statements
  let root ← body.foldlM Table.assign []
  more.foldlM Section.add root

-- There may be a byte order mark in front of a text.
def withoutMark : List Char → List Char
  | '\uFEFF' :: cs => cs
  | cs             => cs

-- What a text says if it is a TOML document.
def parse? (text : String) : Option (List (String × Value)) := do
  let cs := withoutMark text.toList
  let statements ← Statement.readAll (cs.length + 1) cs
  let root ← Table.ofStatements? statements
  return Item.entries root

end SoapBindings.Toml

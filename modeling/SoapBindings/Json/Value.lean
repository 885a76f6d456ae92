-- JSON values and their written forms, the compact one without blanks and the pretty one on lines
-- of their own.

namespace SoapBindings.Json

-- The members of an object have an order, and a name may occur more than once.
inductive Value where
  | null
  | boolean (b : Bool)
  | string (s : String)
  | array (items : List Value)
  | object (members : List (String × Value))

namespace Value

def hexDigit (n : Nat) : Char :=
  Nat.digitChar (n % 16)

-- A quote, a backslash and the controls are escaped, and nothing else.
def escape (c : Char) : List Char :=
  match c with
  | '"'    => ['\\', '"']
  | '\\'   => ['\\', '\\']
  | '\x08' => ['\\', 'b']
  | '\x0c' => ['\\', 'f']
  | '\n'   => ['\\', 'n']
  | '\r'   => ['\\', 'r']
  | '\t'   => ['\\', 't']
  | c      =>
    if c.toNat < 0x20 then ['\\', 'u', '0', '0', hexDigit (c.toNat / 16), hexDigit c.toNat]
    else [c]

def quote (s : String) : List Char :=
  '"' :: s.toList.flatMap escape ++ ['"']

def word : Bool → List Char
  | true  => ['t', 'r', 'u', 'e']
  | false => ['f', 'a', 'l', 's', 'e']

mutual

def compact : Value → List Char
  | null           => ['n', 'u', 'l', 'l']
  | boolean b      => word b
  | string s       => quote s
  | array items    => '[' :: compactItems items ++ [']']
  | object members => '\x7b' :: compactMembers members ++ ['\x7d']

def compactItems : List Value → List Char
  | []                   => []
  | [item]               => compact item
  | item :: more :: rest => compact item ++ ',' :: compactItems (more :: rest)

def compactMembers : List (String × Value) → List Char
  | []                          => []
  | [(name, value)]             => quote name ++ ':' :: compact value
  | (name, value) :: more :: rest =>
    quote name ++ ':' :: compact value ++ ',' :: compactMembers (more :: rest)

end

-- A line break and two blanks for each level.
def newline (level : Nat) : List Char :=
  '\n' :: List.replicate (2 * level) ' '

mutual

def pretty (level : Nat) : Value → List Char
  | null           => ['n', 'u', 'l', 'l']
  | boolean b      => word b
  | string s       => quote s
  | array []       => ['[', ']']
  | array items    => '[' :: prettyItems (level + 1) items ++ newline level ++ [']']
  | object []      => ['\x7b', '\x7d']
  | object members => '\x7b' :: prettyMembers (level + 1) members ++ newline level ++ ['\x7d']

def prettyItems (level : Nat) : List Value → List Char
  | []                   => []
  | [item]               => newline level ++ pretty level item
  | item :: more :: rest =>
    newline level ++ pretty level item ++ ',' :: prettyItems level (more :: rest)

def prettyMembers (level : Nat) : List (String × Value) → List Char
  | []                            => []
  | [(name, value)]               => newline level ++ quote name ++ ':' :: ' ' :: pretty level value
  | (name, value) :: more :: rest =>
    newline level ++ quote name ++ ':' :: ' ' :: pretty level value ++
      ',' :: prettyMembers level (more :: rest)

end

def compactText (v : Value) : String :=
  .ofList v.compact

def prettyText (v : Value) : String :=
  .ofList (v.pretty 0)

end Value
end SoapBindings.Json

import SoapBindings.StringMap
import SoapBindings.Text
import SoapBindings.Text.Quoted
-- Files by their names as seen from a directory, with the rules by which paths lead to them. Reading
-- and writing fail for the causes that are listed here, and a failed write changes nothing.

namespace SoapBindings

-- An error as the system tells of it: by its kind, in words, and by its number if it has one.
structure SystemError where
  kind  : String
  words : String
  code? : Option Nat := none
  deriving DecidableEq, Repr

namespace SystemError

def message (e : SystemError) : String :=
  match e.code? with
  | some code => s!"{e.words} (os error {code})"
  | none      => e.words

def debugText (e : SystemError) : String :=
  let told := s!"kind: {e.kind}, message: {Text.quoted e.words}"
  match e.code? with
  | some code => s!"Os \x7b code: {code}, {told} \x7d"
  | none      => s!"Error \x7b {told} \x7d"

end SystemError

inductive DiskError where
  | notFound
  | notDirectory
  | isDirectory
  | nameTooLong
  | zeroInName
  | invalidText
  | other (e : SystemError)
  deriving DecidableEq, Repr

namespace DiskError

def cause : DiskError → SystemError
  | notFound     => { kind := "NotFound", words := "No such file or directory", code? := some 2 }
  | notDirectory => { kind := "NotADirectory", words := "Not a directory", code? := some 20 }
  | isDirectory  => { kind := "IsADirectory", words := "Is a directory", code? := some 21 }
  | nameTooLong  => { kind := "InvalidFilename", words := "File name too long", code? := some 36 }
  | zeroInName   =>
    { kind := "InvalidInput", words := "file name contained an unexpected NUL byte" }
  | invalidText  => { kind := "InvalidData", words := "stream did not contain valid UTF-8" }
  | other e      => e

def message (e : DiskError) : String :=
  e.cause.message

def debugText (e : DiskError) : String :=
  e.cause.debugText

end DiskError

-- A directory is there if it is listed, or if there is something in it.
structure FileStore where
  files       : StringMap ByteArray
  directories : List String

namespace FileStore

inductive Kind where
  | file (content : ByteArray)
  | directory
  | missing

-- The directory that holds all others.
def top : List String :=
  ["/"]

-- The name of a file, from the names along the way.
def nameOf (way : List String) : String :=
  String.intercalate "/" way

-- The directory itself, one that it is in, or the top. These are always there.
def isAround (way : List String) : Bool :=
  way.all (· = "..") || way = top

def parent (way : List String) : List String :=
  if way = top then top
  else if way.all (· = "..") then way ++ [".."]
  else way.dropLast

def contains (s : FileStore) (way : List String) : Bool :=
  let inside := (nameOf way).toList ++ ['/']
  isAround way || s.directories.contains (nameOf way) ||
    (s.files.keys ++ s.directories).any fun name => inside.isPrefixOf name.toList

def kind (s : FileStore) (way : List String) : Kind :=
  match s.files.find? (nameOf way) with
  | some content => .file content
  | none         => if s.contains way then .directory else .missing

-- The most bytes that a name may have.
def nameLimit : Nat :=
  255

-- A path is shorter than this number of bytes.
def pathLimit : Nat :=
  4096

-- Follows names from a directory on. Each but the last leads to a directory.
def follow (s : FileStore) : List String → List String → Except DiskError (List String)
  | way, []            => .ok way
  | way, name :: names =>
    match s.kind way with
    | .file _    => .error .notDirectory
    | .missing   => .error .notFound
    | .directory =>
      if name = "" || name = "." then s.follow way names
      else if name = ".." then s.follow (parent way) names
      else if nameLimit < name.utf8ByteSize then .error .nameTooLong
      else s.follow (way ++ [name]) names

-- A path splits into names at its slashes.
def names (path : String) : Except DiskError (List String) :=
  if path.isEmpty then .error .notFound
  else if path.toList.contains '\x00' then .error .zeroInName
  else if pathLimit ≤ path.utf8ByteSize then .error .nameTooLong
  else .ok (Text.split '/' path)

-- A path that begins with a slash starts at the top.
def start (names : List String) : List String :=
  if names.head? = some "" then top else []

def locate (s : FileStore) (path : String) : Except DiskError (List String) := do
  let names ← names path
  s.follow (start names) names

def read (s : FileStore) (path : String) : Except DiskError String := do
  match s.kind (← s.locate path) with
  | .missing      => .error .notFound
  | .directory    => .error .isDirectory
  | .file content =>
    match String.fromUTF8? content with
    | some text => .ok text
    | none      => .error .invalidText

-- The names in a path up to the last that is not empty.
def significant (names : List String) : List String :=
  (names.reverse.dropWhile (·.isEmpty)).reverse

-- Where a file is to be written, there or not. A name with a slash after it is no file's, and
-- nothing is looked up under it.
def target (s : FileStore) (path : String) : Except DiskError (List String) := do
  let names ← names path
  let kept := significant names
  if kept = names then
    let way ← s.follow (start names) names
    match s.kind way with
    | .directory => .error .isDirectory
    | _          => .ok way
  else
    let _ ← s.follow (start names) (kept.dropLast ++ ["."])
    .error .isDirectory

def write (s : FileStore) (path : String) (text : String) : Except DiskError FileStore := do
  let way ← s.target path
  return { s with files := s.files.insert (nameOf way) text.toUTF8 }

end FileStore
end SoapBindings

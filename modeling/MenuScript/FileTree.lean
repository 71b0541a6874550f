/-! The files of a system as a value, with the rules by which a path is followed and a file is read
as text. There are no links, so the way that a path leads can be told from its parts alone. -/

namespace MenuScript

inductive FileFault where
  | notFound
  | denied
  | notDirectory
  | isDirectory
  | nameTooLong
  | zeroInName
  | notUtf8
  deriving DecidableEq, Repr

def FileFault.message : FileFault → String
  | .notFound => "No such file or directory (os error 2)"
  | .denied => "Permission denied (os error 13)"
  | .notDirectory => "Not a directory (os error 20)"
  | .isDirectory => "Is a directory (os error 21)"
  | .nameTooLong => "File name too long (os error 36)"
  | .zeroInName => "file name contained an unexpected NUL byte"
  | .notUtf8 => "stream did not contain valid UTF-8"

/-- The files and directories of a system, each by the names on the way to it from the topmost
directory. A directory that something lies in need not be listed. -/
structure FileTree where
  files : List (List String × ByteArray)
  directories : List (List String) := []
  /-- Files and directories that may not be opened. -/
  locked : List (List String) := []
  here : List String := []

namespace FileTree

inductive Place where
  | file (content : ByteArray)
  | directory
  | locked

/-- Looks along a way of names from the topmost directory. -/
def at? (t : FileTree) (way : List String) : Option Place :=
  if t.locked.contains way then some .locked
  else
    match t.files.lookup way with
    | some content => some (.file content)
    | none =>
      if way.isPrefixOf t.here || t.directories.any way.isPrefixOf || t.locked.any way.isPrefixOf
          || t.files.any (way.isPrefixOf ·.1) then
        some .directory
      else none

/-- Puts a file at the end of a way, in place of any other that stands there. -/
def put (t : FileTree) (way : List String) (content : ByteArray) : FileTree :=
  { t with files := (way, content) :: t.files.filter fun f => f.1 != way }

/-- `parts`, with the characters of the part being read, newest first. -/
def partsFrom (current : List Char) : List Char → List String
  | [] => [String.ofList current.reverse]
  | c :: rest =>
    if c = '/' then String.ofList current.reverse :: partsFrom [] rest
    else partsFrom (c :: current) rest

def parts (path : String) : List String := partsFrom [] path.toList

/-- Longest name of a file, in bytes. -/
def longestName : Nat := 255

/-- Longest path, in bytes, with the byte that ends it. -/
def longestPath : Nat := 4096

/-- The way after one more part: a part can stay where it is, go up, or name what lies there. There
is nothing above the topmost directory. -/
def turn (way : List String) (part : String) : List String :=
  if part = "" ∨ part = "." then way else if part = ".." then way.dropLast else way ++ [part]

/-- Where a path starts from: the topmost directory if it starts with a slash, and the working
directory otherwise. -/
def start (t : FileTree) (path : String) : List String :=
  if path.toList.head? = some '/' then [] else t.here

def wayTo (t : FileTree) (path : String) : List String := (parts path).foldl turn (t.start path)

/-- Follows the parts of a path from the place that `way` leads to. -/
def follow (t : FileTree) (way : List String) : List String → Except FileFault Place
  | [] =>
    match t.at? way with
    | some place => .ok place
    | none => .error .notFound
  | part :: rest =>
    match t.at? way with
    | none => .error .notFound
    | some (.file _) => .error .notDirectory
    | some .locked => .error .denied
    | some .directory =>
      if longestName < part.utf8ByteSize then .error .nameTooLong
      else t.follow (turn way part) rest

/-- The place that a path leads to. An empty path stays at the working directory. -/
def find (t : FileTree) (path : String) : Except FileFault Place :=
  if path.toList.contains '\x00' then .error .zeroInName
  else if longestPath ≤ path.utf8ByteSize then .error .nameTooLong
  else t.follow (t.start path) (parts path)

def readText (t : FileTree) (path : String) : Except FileFault String :=
  match t.find path with
  | .error fault => .error fault
  | .ok .directory => .error .isDirectory
  | .ok .locked => .error .denied
  | .ok (.file content) =>
    match String.fromUTF8? content with
    | some text => .ok text
    | none => .error .notUtf8

end FileTree

end MenuScript

/-!
# Reading files

Why a file may fail to be read, and a volume: a directory tree held in memory, in
which paths are followed from its root as an operating system follows them from the
working directory.  A path that leaves the volume upwards finds directories only.
-/

namespace Assay.Command

inductive ReadFailure where
  | notFound
  | isDirectory
  | notDirectory
  | invalidText
  | other (text : String)
  deriving DecidableEq, Repr

namespace ReadFailure

def message : ReadFailure → String
  | notFound => "No such file or directory (os error 2)"
  | isDirectory => "Is a directory (os error 21)"
  | notDirectory => "Not a directory (os error 20)"
  | invalidText => "stream did not contain valid UTF-8"
  | other text => text

end ReadFailure

def decodeText (bytes : ByteArray) : Except ReadFailure String :=
  match String.fromUTF8? bytes with
  | some text => .ok text
  | none => .error .invalidText

def pathParts (path : String) : List String := path.splitOn "/"

/-- The last name in a path; the whole path when it ends in no name. -/
def fileName (path : String) : String :=
  match ((pathParts path).filter fun part => part ≠ "" ∧ part ≠ ".").getLast? with
  | none | some ".." => path
  | some name => name

structure Volume where
  files : List (List String × ByteArray)
  directories : List (List String)

namespace Volume

/-- Where a path has led: to a place inside the volume, named from the root, or to
directories above it. -/
inductive Place where
  | inside (names : List String)
  | outside
  deriving DecidableEq, Repr

def ofNames (files : List (String × ByteArray)) (directories : List String) : Volume :=
  ⟨files.map fun file => (pathParts file.1, file.2), directories.map pathParts⟩

/-- A directory is the root, one that was made, or one that holds something. -/
def isDirectory (volume : Volume) : Place → Bool
  | .outside => true
  | .inside names =>
      names.isEmpty ||
        volume.directories.any (names.isPrefixOf ·) ||
        volume.files.any fun file => names.isPrefixOf file.1 && names ≠ file.1

def isFile (volume : Volume) : Place → Bool
  | .outside => false
  | .inside names => volume.files.any fun file => names = file.1

def step (part : String) : Place → Option Place
  | .inside names =>
      if part = "" ∨ part = "." then some (.inside names)
      else if part = ".." then
        some (if names = [] then .outside else .inside names.dropLast)
      else some (.inside (names ++ [part]))
  | .outside => if part = "" ∨ part = "." ∨ part = ".." then some .outside else none

/-- Follows the parts of a path.  All but the last have to lead to directories. -/
def walk (volume : Volume) (place : Place) : List String → Except ReadFailure Place
  | [] => .ok place
  | part :: parts =>
      if volume.isDirectory place then
        match step part place with
        | some next => volume.walk next parts
        | none => .error .notFound
      else if volume.isFile place then .error .notDirectory
      else .error .notFound

def read (volume : Volume) (path : String) : Except ReadFailure String := do
  let start : Place := if path.startsWith "/" then .outside else .inside []
  let place ← volume.walk start (pathParts path)
  if volume.isDirectory place then .error .isDirectory
  else
    match place with
    | .outside => .error .isDirectory
    | .inside names =>
        match volume.files.lookup names with
        | some bytes => decodeText bytes
        | none => .error .notFound

end Volume

end Assay.Command

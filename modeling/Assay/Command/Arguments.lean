/-!
# Command line arguments

The command takes the path of one source file and a few options.  Arguments are read
from left to right, and the first that settles what to do decides: a fault, or an
option that asks for information, comes before anything after it.
-/

namespace Assay.Command

inductive Request where
  | analyze (path : String) (timings : Bool)
  | version
  | help
  | misuse
  deriving DecidableEq, Repr

inductive Argument where
  | path (text : String)
  | timings
  | version
  | help
  | endOfOptions
  | unknown
  deriving DecidableEq, Repr

namespace Argument

/-- An argument that starts with a dash is an option, unless it is the dash alone.
Short options may be joined, so the first letter counts. -/
def ofText (text : String) : Argument :=
  if text = "--" then endOfOptions
  else if text = "--timings" then timings
  else if text = "--version" then version
  else if text = "--help" then help
  else
    match text.toList with
    | ['-'] => path text
    | '-' :: 'V' :: _ => version
    | '-' :: 'h' :: _ => help
    | '-' :: _ => unknown
    | _ => path text

end Argument

structure Progress where
  path? : Option String
  timings : Bool
  deriving DecidableEq, Repr

namespace Progress

def start : Progress := ⟨none, false⟩

def addPath? (progress : Progress) (path : String) : Option Progress :=
  if progress.path?.isSome ∨ path = "" then none else some { progress with path? := some path }

def addTimings? (progress : Progress) : Option Progress :=
  if progress.timings then none else some { progress with timings := true }

def finish (progress : Progress) : Request :=
  match progress.path? with
  | some path => .analyze path progress.timings
  | none => .misuse

end Progress

def readPaths (progress : Progress) : List String → Request
  | [] => progress.finish
  | text :: others =>
      match progress.addPath? text with
      | some progress => readPaths progress others
      | none => .misuse

def readArguments (progress : Progress) : List String → Request
  | [] => progress.finish
  | text :: others =>
      match Argument.ofText text with
      | .path text =>
          match progress.addPath? text with
          | some progress => readArguments progress others
          | none => .misuse
      | .timings =>
          match progress.addTimings? with
          | some progress => readArguments progress others
          | none => .misuse
      | .version => .version
      | .help => .help
      | .endOfOptions => readPaths progress others
      | .unknown => .misuse

def Request.ofArguments (arguments : List String) : Request := readArguments .start arguments

end Assay.Command

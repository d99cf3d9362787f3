import Assay.Analysis
import Assay.Command.Arguments
import Assay.Command.Volume
import Assay.Diagnostic.Rendering

/-!
# Running the command

The command reads a source file, analyzes it and prints its metrics; a fault is
rendered on the error channel instead.  What it needs from its surroundings is a
host, so that it runs the same way on a real machine and on a volume in memory.
-/

namespace Assay.Command

inductive ExitCode where
  | success
  | failure
  | usage
  deriving DecidableEq, Repr

def ExitCode.code : ExitCode → UInt32
  | success => 0
  | failure => 1
  | usage => 2

inductive Stage where
  | tokenized
  | parsed
  | checked
  | total
  deriving DecidableEq, Repr

def Stage.label : Stage → String
  | tokenized => "Tokenized in "
  | parsed => "Parsed in "
  | checked => "Type checked in "
  | total => "Total time: "

/-- The surroundings of the command. -/
structure Host (m : Type → Type) where
  read : String → m (Except ReadFailure String)
  print : String → m Unit
  report : String → m Unit
  /-- Notes that the reading is over and the stages begin. -/
  begin : m Unit
  /-- The time that a stage which just ended has taken. -/
  elapsed : Stage → m String

def versionLine : String := "analyzer 0.1.0"

def usageLine : String := "Usage: analyzer [OPTIONS] <FILE>"

def helpText : String :=
  "Type checks a program and reports its usage counters\n\n" ++ usageLine ++
    "\n\nArguments:\n  <FILE>  Source file to check\n\nOptions:\n" ++
    "      --timings  Print the time spent in each stage to stderr\n" ++
    "  -h, --help     Print help\n  -V, --version  Print version"

section

variable {m : Type → Type} [Monad m] (host : Host m) (color timings : Bool)

def reportStages (stages : List Stage) : m Unit :=
  if timings then
    stages.forM fun stage => do host.report (stage.label ++ (← host.elapsed stage))
  else pure ()

def failWith (file source : String) (diagnostic : Diagnostic) : m ExitCode := do
  host.report (diagnostic.render color file source)
  return .failure

def analyzeSource (file source : String) : m ExitCode := do
  host.begin
  match tokenize source (some file) with
  | .error diagnostic => failWith host color file source diagnostic
  | .ok tokens =>
      reportStages host timings [.tokenized]
      match parse tokens file with
      | .error diagnostic => failWith host color file source diagnostic
      | .ok program =>
          reportStages host timings [.parsed]
          match program.metrics with
          | .error diagnostic =>
              reportStages host timings [.checked, .total]
              failWith host color file source diagnostic
          | .ok metrics =>
              reportStages host timings [.checked, .total]
              host.print metrics.display
              return .success

def analyzeFile (path : String) : m ExitCode := do
  match ← host.read path with
  | .ok source => analyzeSource host color timings (fileName path) source
  | .error failure =>
      host.report (Styled.emphasise color "Error:" ++ " failed to read " ++ path ++ ": " ++
        failure.message)
      return .failure

def run (arguments : List String) : m ExitCode :=
  match Request.ofArguments arguments with
  | .analyze path timings => analyzeFile host color timings path
  | .version => do
      host.print versionLine
      return .success
  | .help => do
      host.print helpText
      return .success
  | .misuse => do
      host.report usageLine
      return .usage

end

/-! ## Running on a volume -/

structure Transcript where
  output : String
  errors : String
  deriving DecidableEq, Repr

/-- The host that reads from a volume and keeps a transcript.  Every duration is
written the same way. -/
def Volume.host (volume : Volume) (duration : String) : Host (StateM Transcript) where
  read path := pure (volume.read path)
  print line := modify fun transcript =>
    { transcript with output := transcript.output ++ line ++ "\n" }
  report line := modify fun transcript =>
    { transcript with errors := transcript.errors ++ line ++ "\n" }
  begin := pure ()
  elapsed _ := pure duration

def Volume.run (volume : Volume) (color : Bool) (duration : String) (arguments : List String) :
    ExitCode × Transcript :=
  Command.run (volume.host duration) color arguments ⟨"", ""⟩

end Assay.Command

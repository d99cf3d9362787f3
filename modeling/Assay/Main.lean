import Assay.Command.Run
import Assay.Command.Terminal

/-!
# The program

The command on the machine it runs on.
-/

namespace Assay.Command

/-- The cause behind an error of the system.  A directory in the place of a file is told
from a file in the place of a directory by its code. -/
def readFailure : IO.Error → ReadFailure
  | .noFileOrDirectory _ _ _ => .notFound
  | .inappropriateType _ code _ => if code = 21 then .isDirectory else .notDirectory
  | failure => .other (toString failure)

def readMachineFile (path : String) : IO (Except ReadFailure String) := do
  try
    return decodeText (← IO.FS.readBinFile path)
  catch failure =>
    return .error (readFailure failure)

structure Watch where
  started : Nat
  last : Nat

def Watch.elapsed (watch : Watch) (now : Nat) : Stage → Nat
  | .total => now - watch.started
  | _ => now - watch.last

def machineHost (watch : IO.Ref Watch) : Host IO where
  read := readMachineFile
  print := IO.println
  report := IO.eprintln
  begin := do
    let now ← IO.monoNanosNow
    watch.set ⟨now, now⟩
  elapsed stage := do
    let now ← IO.monoNanosNow
    let current ← watch.get
    watch.set { current with last := now }
    return durationText (current.elapsed now stage)

end Assay.Command

def main (arguments : List String) : IO UInt32 := do
  let color := Assay.Command.wantsColor (← (← IO.getStdout).isTty) (← IO.getEnv "CLICOLOR")
    (← IO.getEnv "NO_COLOR") (← IO.getEnv "CLICOLOR_FORCE")
  let watch ← IO.mkRef (⟨0, 0⟩ : Assay.Command.Watch)
  let exit ← Assay.Command.run (Assay.Command.machineHost watch) color arguments
  return exit.code

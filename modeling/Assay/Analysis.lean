import Assay.Parsing.Statement
import Assay.Token.Stream
import Assay.Typing.Checker

/-!
# Analysis

`analyze` takes a source through all stages: tokens, program tree, and the metrics of
the checked program.  The first fault ends it.
-/

namespace Assay

def analyze (source file : String) : Except Diagnostic Metrics := do
  let tokens ← tokenize source (some file)
  let program ← parse tokens file
  program.metrics

theorem analyze_eq_ok {source file : String} {metrics : Metrics} :
    analyze source file = .ok metrics ↔
      ∃ tokens program, tokenize source (some file) = .ok tokens ∧
        parse tokens file = .ok program ∧ program.metrics = .ok metrics := by
  unfold analyze
  cases htokens : tokenize source (some file) with
  | error fault => simp [bind, Except.bind]
  | ok tokens =>
      cases hprogram : parse tokens file with
      | error fault => simp [hprogram, bind, Except.bind]
      | ok program => simp [hprogram, bind, Except.bind]

theorem analyze_eq_error {source file : String} {diagnostic : Diagnostic} :
    analyze source file = .error diagnostic ↔
      tokenize source (some file) = .error diagnostic ∨
      ∃ tokens, tokenize source (some file) = .ok tokens ∧
        (parse tokens file = .error diagnostic ∨
          ∃ program, parse tokens file = .ok program ∧ program.metrics = .error diagnostic) := by
  unfold analyze
  cases htokens : tokenize source (some file) with
  | error fault => simp [bind, Except.bind]
  | ok tokens =>
      cases hprogram : parse tokens file with
      | error fault => simp [hprogram, bind, Except.bind]
      | ok program => simp [hprogram, bind, Except.bind]

end Assay

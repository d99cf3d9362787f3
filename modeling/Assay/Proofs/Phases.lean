import Mathlib
import Assay.Analysis
import Assay.Proofs.Parsing.Formed
import Assay.Proofs.Parsing.Rejection
import Assay.Proofs.Token.Stream
import Assay.Proofs.Typing.Decision

/-!
# The phases of an analysis

Each phase has causes of its own.  Reading tokens fails where no lexeme is recognised,
parsing rejects a token, and the checker, which meets formed trees only, finds faults of
meaning: where it could give up on the form of a tree, it never arrives.

Closed runs are evaluated here by equation lemmas that only the whole library holds.
-/

namespace Assay

/-! ## Causes of each phase -/

private theorem tokenize_error {source : String} {file? : Option String} {diagnostic : Diagnostic}
    (h : tokenize source file? = .error diagnostic) :
    ∃ token, diagnostic.cause = .unrecognisedToken token := by
  have hcuts := cuts_tokenize source file?
  rw [h] at hcuts
  obtain ⟨-, c, -, -, -, hcause⟩ := hcuts.stuck
  exact ⟨c.toString, hcause⟩

theorem Rejection.not_isSemantic {cursor : Cursor} {diagnostic : Diagnostic}
    (h : Rejection cursor diagnostic) : ¬ diagnostic.cause.isSemantic := by
  cases h <;> nofun

theorem Rejection.not_malformed {cursor : Cursor} {diagnostic : Diagnostic}
    (h : Rejection cursor diagnostic) (node : String) (children : Nat) :
    diagnostic.cause ≠ .malformedNode node children := by
  cases h <;> nofun

private theorem Block.metrics_error {program : Block} (hformed : program.Formed)
    {diagnostic : Diagnostic}
    (h : program.metrics = .error diagnostic) : diagnostic.cause.isSemantic := by
  obtain ⟨body, span⟩ := program
  have hdecides := Stmt.checkAll_decides body hformed .new
  unfold Block.metrics at h
  split at h
  · cases h
  · next hresult =>
      cases h
      exact (hdecides.of_error hresult).1

private theorem Check.infer_formed {expr : Expr} (hformed : expr.Formed) (checker : Checker) :
    Ensures (infer expr) checker (fun ty? _ => ty?.isSome)
      fun diagnostic _ => diagnostic.cause.isSemantic := by
  refine (infer_decides expr hformed checker).mono ?_ fun _ _ hfailure => hfailure.1
  intro ty? after hdecides
  obtain ⟨⟨ty, rfl, -⟩, -⟩ := (hdecides ty? after.seen).mpr ⟨rfl, rfl⟩
  rfl

/-! ## The phase that fails -/

private theorem analyze_error_cases {source file : String} {diagnostic : Diagnostic}
    (h : analyze source file = .error diagnostic) :
    diagnostic.cause.isSemantic ∧
        (∃ tokens program, tokenize source (some file) = .ok tokens ∧
          parse tokens file = .ok program) ∨
      ¬ diagnostic.cause.isSemantic ∧
        (∀ node children, diagnostic.cause ≠ .malformedNode node children) ∧
        ∀ tokens program, tokenize source (some file) = .ok tokens →
          parse tokens file ≠ .ok program := by
  obtain htokens | ⟨tokens, htokens, hparse | ⟨program, hparse, hmetrics⟩⟩ := analyze_eq_error.mp h
  · obtain ⟨token, hcause⟩ := tokenize_error htokens
    refine .inr ⟨?_, ?_, ?_⟩
    · simp [hcause, Cause.isSemantic]
    · simp [hcause]
    · simp [htokens]
  · obtain ⟨cursor, -, hrejection⟩ := parse_error hparse
    refine .inr ⟨hrejection.not_isSemantic, hrejection.not_malformed, ?_⟩
    rintro other program hother hprogram
    cases htokens.symm.trans hother
    cases hparse.symm.trans hprogram
  · exact .inl ⟨Block.metrics_error (formed_of_parse hparse) hmetrics, tokens, program, htokens,
      hparse⟩

/-- An analysis fails for a semantic cause exactly when it gets past parsing, and never for
the form of a node; and of a parsed program, every expression has a type or a fault of
meaning, whatever the state of the checker. -/
theorem phases_separate (source file : String) :
    (∀ diagnostic, analyze source file = .error diagnostic →
      (diagnostic.cause.isSemantic ↔
        ∃ tokens program, tokenize source (some file) = .ok tokens ∧
          parse tokens file = .ok program) ∧
      ∀ node children, diagnostic.cause ≠ .malformedNode node children) ∧
    ∀ tokens program, parse tokens file = .ok program →
      ∀ expr ∈ program.parts, ∀ checker,
        Ensures (Check.infer expr) checker (fun ty? _ => ty?.isSome)
          fun diagnostic _ => diagnostic.cause.isSemantic := by
  constructor
  · intro diagnostic h
    obtain ⟨hsemantic, hparsed⟩ | ⟨hsemantic, hmalformed, hunparsed⟩ := analyze_error_cases h
    · refine ⟨iff_of_true hsemantic hparsed, ?_⟩
      intro node children hcause
      rw [hcause] at hsemantic
      cases hsemantic
    · refine ⟨iff_of_false hsemantic ?_, hmalformed⟩
      rintro ⟨tokens, program, htokens, hparse⟩
      exact hunparsed tokens program htokens hparse
  · intro tokens program hparse expr hexpr checker
    exact Check.infer_formed ((formed_of_parse hparse).parts expr hexpr) checker

/-- A name that was never declared is a fault that parsing does not see. -/
theorem phases_separate_undeclared :
    let source := "while (!x && 1 < 2) \x7b\x7d"
    analyze source "demo" = .error ⟨.undeclaredVariable "x", ⟨8, "demo"⟩⟩ ∧
      ∃ tokens program, tokenize source (some "demo") = .ok tokens ∧
        parse tokens "demo" = .ok program ∧
        ∀ expr ∈ program.parts, ∀ checker,
          Ensures (Check.infer expr) checker (fun ty? _ => ty?.isSome)
            fun diagnostic _ => diagnostic.cause.isSemantic := by
  intro source
  have hanalyze : analyze source "demo" = .error ⟨.undeclaredVariable "x", ⟨8, "demo"⟩⟩ := by cbv
  obtain ⟨hfails, hparts⟩ := phases_separate source "demo"
  obtain ⟨tokens, program, htokens, hparse⟩ := (hfails _ hanalyze).1.mp rfl
  exact ⟨hanalyze, tokens, program, htokens, hparse, hparts tokens program hparse⟩

end Assay

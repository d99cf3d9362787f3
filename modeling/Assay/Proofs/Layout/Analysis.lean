import Mathlib
import Assay.Analysis
import Assay.Proofs.Layout.Checking
import Assay.Proofs.Layout.Parsing
import Assay.Proofs.Token.Stream
import Assay.Text.Lines

/-!
# Analysis and layout

Sources whose tokens agree in kind and text are analysed alike: the metrics are the same, or
the cause and the token at which it is found.  And as every stream is a layout of itself,
one such analysis says of what it reports that it stands at a token which fits the cause.

Closed runs are evaluated here by equation lemmas that only the whole library holds.
-/

namespace Assay

namespace Layouts

/-! ## Whole runs -/

private theorem closing_right (layouts : Layouts) :
    ∃ others last, layouts.right = others ++ [last] ∧ last.kind = .endOfInput := by
  rcases layouts.closing with ⟨others, last, hleft, hkind⟩
  have hsame := layouts.same
  rw [hleft, List.map_append, List.map_singleton, eq_comm, List.map_eq_append_iff] at hsame
  rcases hsame with ⟨before, after, hright, -, hafter⟩
  rcases List.map_eq_singleton_iff.mp hafter with ⟨twin, rfl, hspelling⟩
  exact ⟨before, twin, hright, (congrArg Prod.fst hspelling).trans hkind⟩

private theorem abreast_ofTokens (layouts : Layouts) (file file' : String) :
    layouts.Abreast 0 (.ofTokens file layouts.left) (.ofTokens file' layouts.right) := by
  have hstart {tokens : List Token} (file : String)
      (h : ∃ others last, tokens = others ++ [last] ∧ last.kind = .endOfInput) :
      (Cursor.ofTokens file tokens).tokens = tokens ∧
        (Cursor.ofTokens file tokens).passed.length = 0 := by
    rcases h with ⟨others, last, rfl, hkind⟩
    rw [Cursor.tokens_ofTokens_closed, Cursor.closed_append file others hkind,
      Cursor.passed_ofTokens]
    exact ⟨rfl, rfl⟩
  have hleft := hstart file layouts.closing
  have hright := hstart file' layouts.closing_right
  exact ⟨hleft.1, hright.1, hleft.2, hright.2⟩

theorem parse_alike (layouts : Layouts) (file file' : String) :
    (∃ program program', parse layouts.left file = .ok program ∧
        parse layouts.right file' = .ok program' ∧ program.Alike layouts program') ∨
      ∃ diagnostic diagnostic', parse layouts.left file = .error diagnostic ∧
        parse layouts.right file' = .error diagnostic' ∧ diagnostic.Alike layouts diagnostic' := by
  have hruns := Parse.program_inStep file file' _ _ (layouts.abreast_ofTokens file file')
  unfold parse
  rcases hruns.cases with ⟨program, _, program', _, hleft, hright, _, -, halike⟩ |
    ⟨diagnostic, _, diagnostic', _, hleft, hright, halike⟩
  · rw [hleft, hright]
    exact .inl ⟨program, program', rfl, rfl, halike⟩
  · rw [hleft, hright]
    exact .inr ⟨diagnostic, diagnostic', rfl, rfl, halike⟩

private theorem metrics_alike {layouts : Layouts} {program program' : Block}
    (h : program.Alike layouts program') :
    (∃ metrics, program.metrics = .ok metrics ∧ program'.metrics = .ok metrics) ∨
      ∃ diagnostic diagnostic', program.metrics = .error diagnostic ∧
        program'.metrics = .error diagnostic' ∧ diagnostic.Alike layouts diagnostic' := by
  cases h with
  | mk hbody =>
      unfold Block.metrics Block.body
      rcases (hbody.checkAll_agree .new).cases with
        ⟨_, checker, _, checker', hleft, hright, -, rfl⟩ |
        ⟨diagnostic, _, diagnostic', _, hleft, hright, halike⟩
      · rw [hleft, hright]
        exact .inl ⟨checker.metrics, rfl, rfl⟩
      · rw [hleft, hright]
        exact .inr ⟨diagnostic, diagnostic', rfl, rfl, halike⟩

private theorem analyze_alike (layouts : Layouts) {source source' file file' : String}
    (hleft : tokenize source (some file) = .ok layouts.left)
    (hright : tokenize source' (some file') = .ok layouts.right) :
    (∃ metrics, analyze source file = .ok metrics ∧ analyze source' file' = .ok metrics) ∨
      ∃ diagnostic diagnostic', analyze source file = .error diagnostic ∧
        analyze source' file' = .error diagnostic' ∧ diagnostic.Alike layouts diagnostic' := by
  simp only [analyze, hleft, hright, bind, Except.bind]
  rcases layouts.parse_alike file file' with ⟨program, program', hprogram, hprogram', halike⟩ |
    ⟨diagnostic, diagnostic', hparse, hparse', halike⟩
  · simp only [hprogram, hprogram']
    exact metrics_alike halike
  · simp only [hparse, hparse']
    exact .inr ⟨diagnostic, diagnostic', rfl, rfl, halike⟩

end Layouts

private theorem tokenize_closing {source : String} {file? : Option String} {tokens : List Token}
    (h : tokenize source file? = .ok tokens) :
    ∃ others last, tokens = others ++ [last] ∧ last.kind = .endOfInput := by
  rcases tokenize_sealed h with ⟨others, last, htokens, hlast, -⟩
  exact ⟨others, last, htokens, hlast⟩

/-- Sources whose tokens agree in kind and text have the same metrics, or fail for the same
cause at tokens with the same index. -/
theorem analyze_layout {source source' file file' : String} {tokens tokens' : List Token}
    (htokens : tokenize source (some file) = .ok tokens)
    (htokens' : tokenize source' (some file') = .ok tokens')
    (hsame : tokens.map Token.spelling = tokens'.map Token.spelling) :
    (∃ metrics, analyze source file = .ok metrics ∧ analyze source' file' = .ok metrics) ∨
      ∃ diagnostic diagnostic', analyze source file = .error diagnostic ∧
        analyze source' file' = .error diagnostic' ∧ diagnostic.cause = diagnostic'.cause ∧
        ∃ (index : Nat) (token token' : Token), tokens[index]? = some token ∧
          tokens'[index]? = some token' ∧ diagnostic.position = token.span.start ∧
          diagnostic'.position = token'.span.start := by
  let layouts : Layouts := ⟨tokens, tokens', hsame, tokenize_closing htokens⟩
  rcases layouts.analyze_alike htokens htokens' with
    hmetrics | ⟨diagnostic, diagnostic', hleft, hright, halike⟩
  · exact .inl hmetrics
  · rcases halike.pointsAt with ⟨hcause, index, ⟨token, htoken, hstart, -⟩, token', htoken',
      hstart', -⟩
    exact .inr ⟨diagnostic, diagnostic', hleft, hright, hcause, index, token, token', htoken,
      htoken', hstart, hstart'⟩

/-- A comment and line breaks move the name that was never declared. -/
theorem analyze_layout_spread :
    ∃ tokens tokens', tokenize "declare n: int = m;" (some "demo") = .ok tokens ∧
      tokenize "declare n // a count\n : int\n = m ;" (some "demo") = .ok tokens' ∧
      tokens.map Token.spelling = tokens'.map Token.spelling ∧
      ∃ diagnostic diagnostic', analyze "declare n: int = m;" "demo" = .error diagnostic ∧
        analyze "declare n // a count\n : int\n = m ;" "demo" = .error diagnostic' ∧
        diagnostic.cause = diagnostic'.cause ∧
        ∃ (index : Nat) (token token' : Token), tokens[index]? = some token ∧
          tokens'[index]? = some token' ∧ diagnostic.position = token.span.start ∧
          diagnostic'.position = token'.span.start := by
  have hfault : analyze "declare n: int = m;" "demo" =
      .error ⟨.undeclaredVariable "m", ⟨17, "demo"⟩⟩ := by cbv
  have hspelling : (tokenize "declare n: int = m;" (some "demo")).map (·.map Token.spelling) =
      (tokenize "declare n // a count\n : int\n = m ;" (some "demo")).map
        (·.map Token.spelling) := by cbv
  obtain ⟨tokens, htokens⟩ : ∃ tokens, tokenize "declare n: int = m;" (some "demo") = .ok tokens :=
    ⟨_, by cbv⟩
  obtain ⟨tokens', htokens'⟩ : ∃ tokens',
      tokenize "declare n // a count\n : int\n = m ;" (some "demo") = .ok tokens' := ⟨_, by cbv⟩
  rw [htokens, htokens'] at hspelling
  have hsame := Except.ok.inj hspelling
  refine ⟨tokens, tokens', htokens, htokens', hsame, ?_⟩
  rcases analyze_layout htokens htokens' hsame with ⟨metrics, hmetrics, -⟩ | hfails
  · cases hfault.symm.trans hmetrics
  · exact hfails

/-! ## Where an analysis fails -/

theorem Token.Arrives.placed {source file : String} {before after : List Char}
    {position : Position} (h : Token.Arrives file 0 source.toList before after position)
    (hsize : Text.byteLength source.toList < 2 ^ 32) :
    position.file = file ∧ position.offset.toNat = Text.byteLength before ∧
      (Text.lineAt? source position.offset.toNat).isSome := by
  rcases h with ⟨hsource, -, rfl⟩
  rw [hsource, Text.byteLength_append] at hsize
  have hoffset : (Position.ofBytes file (0 + Text.byteLength before)).offset.toNat =
      Text.byteLength before := by
    rw [Position.toNat_ofBytes (by omega), Nat.zero_add]
  refine ⟨rfl, hoffset, ?_⟩
  rw [hoffset, Text.lineAt?, hsource, Text.byteLength_append, if_neg (by omega)]
  rfl

/-- A fault of analysis is placed in the file that was analysed, at the boundary of a
character.  There the rules have arrived at a character that starts no lexeme, which is the
one reported; or one token starts there, which fits the cause. -/
theorem analyze_error_placed {source file : String} {diagnostic : Diagnostic}
    (hsize : Text.byteLength source.toList < 2 ^ 32)
    (h : analyze source file = .error diagnostic) :
    diagnostic.position.file = file ∧
      (Text.lineAt? source diagnostic.position.offset.toNat).isSome ∧
      ∃ before after, source.toList = before ++ after ∧
        diagnostic.position.offset.toNat = Text.byteLength before ∧
        ((∃ c rest, after = c :: rest ∧ Token.Reaches before after ∧
            LexemeRule.first? after = none ∧ diagnostic.cause = .unrecognisedToken c.toString) ∨
          ∃ tokens index, tokenize source (some file) = .ok tokens ∧
            diagnostic.PointsAt tokens index ∧
            ∀ other token, tokens[other]? = some token →
              token.span.start = diagnostic.position → other = index) := by
  have hcuts := cuts_tokenize source (some file)
  cases htokens : tokenize source (some file) with
  | error fault =>
      rw [htokens] at hcuts
      cases h.symm.trans (analyze_eq_error.mpr (.inl htokens))
      rcases hcuts.stuck with ⟨before, c, rest, harrives, hnone, hcause⟩
      rcases harrives.placed hsize with ⟨hfile, hoffset, hline⟩
      exact ⟨hfile, hline, before, c :: rest, harrives.text_eq, hoffset,
        .inl ⟨c, rest, rfl, harrives.reaches, hnone, hcause⟩⟩
  | ok tokens =>
      rw [htokens] at hcuts
      let layouts : Layouts := ⟨tokens, tokens, rfl, tokenize_closing htokens⟩
      rcases layouts.analyze_alike htokens htokens with ⟨metrics, hmetrics, -⟩ |
        ⟨fault, _, hfault, -, halike⟩
      · cases h.symm.trans hmetrics
      · cases h.symm.trans hfault
        rcases halike.pointsAt with ⟨-, index, ⟨token, htoken, hstart, hfits⟩, -⟩
        rcases hcuts.start (List.mem_of_getElem? htoken) with ⟨before, after, harrives⟩
        rw [← hstart] at harrives
        rcases harrives.placed hsize with ⟨hfile, hoffset, hline⟩
        refine ⟨hfile, hline, before, after, harrives.text_eq, hoffset,
          .inr ⟨tokens, index, rfl, ⟨token, htoken, hstart, hfits⟩, ?_⟩⟩
        intro other token' htoken' hposition'
        exact index_eq_of_start_eq hsize htokens htoken' htoken (hposition'.trans hstart)

/-- The type of the second variable is not known; the variable before it is in order. -/
theorem analyze_error_placed_unknownType :
    let source := "declare a: bool;\u00a0declare n: number;"
    let diagnostic : Diagnostic := ⟨.unknownType "number", ⟨18, "demo"⟩⟩
    analyze source "demo" = .error diagnostic ∧
      (Text.lineAt? source 18).isSome ∧
      ∃ before after, source.toList = before ++ after ∧ 18 = Text.byteLength before ∧
        ∃ tokens index, tokenize source (some "demo") = .ok tokens ∧
          diagnostic.PointsAt tokens index := by
  intro source diagnostic
  have hanalyze : analyze source "demo" = .error diagnostic := by cbv
  have hsize : Text.byteLength source.toList < 2 ^ 32 := by decide
  rcases analyze_error_placed hsize hanalyze with
    ⟨-, hline, before, after, hsource, hoffset, hcause⟩
  refine ⟨hanalyze, hline, before, after, hsource, hoffset, ?_⟩
  rcases hcause with ⟨_, _, _, _, _, hcause⟩ | ⟨tokens, index, htokens, hpoints, -⟩
  · cases hcause
  · exact ⟨tokens, index, htokens, hpoints⟩

end Assay

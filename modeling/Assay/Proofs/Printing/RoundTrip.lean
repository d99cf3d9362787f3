import Assay.Proofs.Layout.Analysis
import Assay.Proofs.Parsing.Completeness
import Assay.Proofs.Printing.Canonical

/-!
# Printing and parsing

The printed text of a parsed program is read and parsed again, to the same program.
-/

namespace Assay

open Numeral (Spelling)

/-! ## Spans are not written -/

private theorem Expr.category_eraseSpans (tree : Expr) :
    tree.eraseSpans.category = tree.category := by
  cases tree <;> rfl

private theorem Expr.enclosed_eraseSpans (category : Grammar.Category) (tree : Expr)
    (tokens : List Token) :
    tree.eraseSpans.enclosed category tokens = tree.enclosed category tokens := by
  rw [enclosed, enclosed, category_eraseSpans]

private theorem Expr.enclosedFirst_eraseSpans (operator : Comparator) (tree : Expr)
    (tokens : List Token) :
    tree.eraseSpans.enclosedFirst operator tokens = tree.enclosedFirst operator tokens := by
  rw [enclosedFirst, enclosedFirst, restartedBy_eraseSpans, enclosed_eraseSpans]

mutual

private theorem Expr.written_eraseSpans (spelling : Spelling) (tree : Expr) :
    tree.eraseSpans.written spelling = tree.written spelling := by
  match tree with
  | .integer _ _ | .float _ _ | .identifier _ | .hole _ => rfl
  | .bool truth _ => cases truth <;> rfl
  | .value inner _ => exact inner.written_eraseSpans spelling
  | .list elements _ =>
      rw [Expr.eraseSpans, Expr.written, Expr.written, Expr.writtenElements_eraseAll]
  | .unary operator operand _ =>
      rw [Expr.eraseSpans, Expr.written, Expr.written, operand.written_eraseSpans,
        Expr.enclosed_eraseSpans]
  | .chain family operands operators _ =>
      match operands with
      | [] => rfl
      | first :: others =>
          rw [Expr.eraseSpans, Expr.eraseAll, Expr.written, Expr.written,
            first.written_eraseSpans, Expr.enclosed_eraseSpans, Expr.writtenLinks_eraseAll]
  | .comparison operator operands _ =>
      match operands with
      | [] => rfl
      | first :: others =>
          rw [Expr.eraseSpans, Expr.eraseAll, Expr.written, Expr.written,
            first.written_eraseSpans, Expr.enclosedFirst_eraseSpans, Expr.writtenLinks_eraseAll]
          simp
  | .ternary operands _ =>
      match operands with
      | [condition, whenTrue, whenFalse] =>
          simp only [Expr.eraseSpans, Expr.eraseAll, Expr.written, condition.written_eraseSpans,
            whenTrue.written_eraseSpans, whenFalse.written_eraseSpans, Expr.enclosed_eraseSpans]
      | [] | [_] | [_, _] | _ :: _ :: _ :: _ :: _ => rfl

theorem Expr.writtenElements_eraseAll (spelling : Spelling) (elements : List Expr) :
    Expr.writtenElements spelling (Expr.eraseAll elements) =
      Expr.writtenElements spelling elements := by
  match elements with
  | [] => rfl
  | [last] => exact last.written_eraseSpans spelling
  | element :: next :: elements =>
      exact congrArg₂ (· ++ .fixed .comma :: ·) (element.written_eraseSpans spelling)
        (Expr.writtenElements_eraseAll spelling (next :: elements))

theorem Expr.writtenLinks_eraseAll (spelling : Spelling) (category : Grammar.Category)
    (operands : List Expr) (signs : List Token) :
    Expr.writtenLinks spelling category (Expr.eraseAll operands) signs =
      Expr.writtenLinks spelling category operands signs := by
  match operands, signs with
  | [], _ => rfl
  | _ :: _, [] => rfl
  | operand :: operands, sign :: signs =>
      rw [Expr.eraseAll, Expr.writtenLinks, Expr.writtenLinks, operand.written_eraseSpans,
        Expr.enclosed_eraseSpans, Expr.writtenLinks_eraseAll]

end

private theorem Condition.written_eraseSpans (spelling : Spelling) (condition : Condition) :
    condition.eraseSpans.written spelling = condition.written spelling := by
  rcases condition with ⟨expr?, span⟩
  cases expr? with
  | none => rfl
  | some tree => simp [Condition.written, Condition.eraseSpans, tree.written_eraseSpans]

private theorem Expr.writtenValue_eraseSpans (spelling : Spelling) (value? : Option Expr) :
    Expr.writtenValue spelling (value?.map Expr.eraseSpans) =
      Expr.writtenValue spelling value? := by
  cases value? with
  | none => rfl
  | some tree => simp [Expr.writtenValue, tree.written_eraseSpans]

mutual

theorem Stmt.written_eraseSpans (spelling : Spelling) (stmt : Stmt) :
    stmt.eraseSpans.written spelling = stmt.written spelling := by
  match stmt with
  | .declare name typeName value? _ =>
      rw [Stmt.eraseSpans, Stmt.written, Stmt.written, Expr.writtenValue_eraseSpans]
      rfl
  | .assign name value _ =>
      rw [Stmt.eraseSpans, Stmt.written, Stmt.written, value.written_eraseSpans]
      rfl
  | .branch condition thenBody none _ =>
      rw [Stmt.eraseSpans, Stmt.written, Stmt.written, condition.written_eraseSpans,
        thenBody.written_eraseSpans]
  | .branch condition thenBody (some elseBody) _ =>
      rw [Stmt.eraseSpans, Stmt.written, Stmt.written, condition.written_eraseSpans,
        thenBody.written_eraseSpans, Block.writtenElse, Block.writtenElse,
        elseBody.written_eraseSpans]
  | .loop condition body _ | .doLoop body condition _ =>
      rw [Stmt.eraseSpans, Stmt.written, Stmt.written, condition.written_eraseSpans,
        body.written_eraseSpans]

theorem Block.written_eraseSpans (spelling : Spelling) (block : Block) :
    block.eraseSpans.written spelling = block.written spelling := by
  match block with
  | .mk body _ =>
      rw [Block.eraseSpans, Block.written, Block.written, Stmt.writtenAll_eraseAll]

private theorem Stmt.writtenAll_eraseAll (spelling : Spelling) (stmts : List Stmt) :
    Stmt.writtenAll spelling (Stmt.eraseAll stmts) = Stmt.writtenAll spelling stmts := by
  match stmts with
  | [] => rfl
  | stmt :: stmts =>
      rw [Stmt.eraseAll, Stmt.writtenAll, Stmt.writtenAll, stmt.written_eraseSpans,
        Stmt.writtenAll_eraseAll]

end

private theorem Block.print_eraseSpans (spelling : Spelling) (program : Block) :
    program.eraseSpans.print spelling = program.print spelling := by
  rcases program with ⟨body, span⟩
  exact congrArg Token.joined (Stmt.writtenAll_eraseAll spelling body)

/-! ## Written statements are phrases -/

namespace Grammar

structure Readable (phrase : List Token → Prop) (tokens : List Token) : Prop where
  phrase : phrase tokens
  lexical : Token.AllLexical tokens

theorem Derives.written {limit level : Nat} {tokens : List Token} {tree : Expr}
    (h : Derives limit .expression level tokens tree) (hlexical : Token.AllLexical tokens)
    (spelling : Spelling) :
    Readable (Derives limit .expression level · tree) (tree.written spelling) :=
  have hcanonical := h.canonical hlexical spelling
  ⟨hcanonical.expression (h.level_le (by simp)), hcanonical.lexical⟩

theorem InitialValue.written {limit blocks : Nat} {tokens : List Token} {value? : Option Expr}
    (h : InitialValue limit blocks tokens value?) (hlexical : Token.AllLexical tokens)
    (spelling : Spelling) :
    Readable (InitialValue limit blocks · value?) (Expr.writtenValue spelling value?) := by
  cases h with
  | absent => exact ⟨.absent, .nil⟩
  | present _ hvalue =>
      have hvalue' := hvalue.written hlexical.tail spelling
      constructor
      · exact .present rfl hvalue'.phrase
      · exact .fixed rfl hvalue'.lexical

theorem Guard.written {limit blocks : Nat} {tokens : List Token} {condition : Condition}
    (h : Guard limit blocks tokens condition) (hlexical : Token.AllLexical tokens)
    (spelling : Spelling) :
    Readable (Guard limit blocks · condition) (condition.written spelling) := by
  cases h with
  | mk _ _ hexpr =>
      have hexpr' := hexpr.written hlexical.tail.left spelling
      constructor
      · exact .mk rfl rfl hexpr'.phrase
      · exact .fixed rfl (hexpr'.lexical.append (.fixed rfl .nil))

mutual

theorem Statement.written {limit blocks : Nat} {tokens : List Token} {stmt : Stmt}
    (h : Statement limit blocks tokens stmt) (hlexical : Token.AllLexical tokens)
    (spelling : Spelling) : Readable (Statement limit blocks · stmt) (stmt.written spelling) := by
  match h with
  | .declare _ hname _ htypeName _ hvalue =>
      have htype := hlexical.tail.tail.tail
      have hvalue' := hvalue.written htype.tail.left spelling
      rw [Stmt.written]
      constructor
      · exact .declare rfl rfl rfl rfl rfl hvalue'.phrase
      · exact .fixed rfl (.cons (hlexical.tail.head.name hname) (.fixed rfl
          (.cons (htype.head.name htypeName) (hvalue'.lexical.append (.fixed rfl .nil)))))
  | .assign hname _ _ hvalue =>
      have hvalue' := hvalue.written hlexical.tail.tail.left spelling
      rw [Stmt.written]
      constructor
      · exact .assign rfl rfl rfl hvalue'.phrase
      · exact .cons (hlexical.head.name hname)
          (.fixed rfl (hvalue'.lexical.append (.fixed rfl .nil)))
  | .branch _ hcondition hthenBody helseBody =>
      have hcondition' := hcondition.written hlexical.tail.left spelling
      have hthenBody' := hthenBody.written hlexical.tail.right.left spelling
      have helseBody' := helseBody.written hlexical.tail.right.right spelling
      rw [Stmt.written]
      constructor
      · exact .branch rfl hcondition'.phrase hthenBody'.phrase helseBody'.phrase
      · exact .fixed rfl (hcondition'.lexical.append (hthenBody'.lexical.append helseBody'.lexical))
  | .loop _ hcondition hbody =>
      have hcondition' := hcondition.written hlexical.tail.left spelling
      have hbody' := hbody.written hlexical.tail.right spelling
      rw [Stmt.written]
      constructor
      · exact .loop rfl hcondition'.phrase hbody'.phrase
      · exact .fixed rfl (hcondition'.lexical.append hbody'.lexical)
  | .doLoop _ _ _ hbody hcondition =>
      have hbody' := hbody.written hlexical.tail.left spelling
      have hcondition' := hcondition.written hlexical.tail.right.tail.left spelling
      rw [Stmt.written]
      constructor
      · exact .doLoop rfl rfl rfl hbody'.phrase hcondition'.phrase
      · exact .fixed rfl (hbody'.lexical.append
          (.fixed rfl (hcondition'.lexical.append (.fixed rfl .nil))))

theorem Braced.written {limit blocks : Nat} {tokens : List Token} {block : Block}
    (h : Braced limit blocks tokens block) (hlexical : Token.AllLexical tokens)
    (spelling : Spelling) : Readable (Braced limit blocks · block) (block.written spelling) := by
  match h with
  | .mk hlevel _ _ hbody =>
      have hbody' := hbody.written hlexical.tail.left spelling
      rw [Block.written]
      constructor
      · exact .mk hlevel rfl rfl hbody'.phrase
      · exact .fixed rfl (hbody'.lexical.append (.fixed rfl .nil))

theorem ElseBody.written {limit blocks : Nat} {tokens : List Token} {elseBody? : Option Block}
    (h : ElseBody limit blocks tokens elseBody?) (hlexical : Token.AllLexical tokens)
    (spelling : Spelling) :
    Readable (ElseBody limit blocks · elseBody?) (Block.writtenElse spelling elseBody?) := by
  match h with
  | .absent => exact ⟨.absent, .nil⟩
  | .present _ hbody =>
      have hbody' := hbody.written hlexical.tail spelling
      constructor
      · exact .present rfl hbody'.phrase
      · exact .fixed rfl hbody'.lexical

theorem Statements.written {limit blocks : Nat} {tokens : List Token} {stmts : List Stmt}
    (h : Statements limit blocks tokens stmts) (hlexical : Token.AllLexical tokens)
    (spelling : Spelling) :
    Readable (Statements limit blocks · stmts) (Stmt.writtenAll spelling stmts) := by
  match h with
  | .nil => exact ⟨.nil, .nil⟩
  | .cons hstmt hstmts =>
      have hstmt' := hstmt.written hlexical.left spelling
      have hstmts' := hstmts.written hlexical.right spelling
      rw [Stmt.writtenAll]
      constructor
      · exact .cons hstmt'.phrase hstmts'.phrase
      · exact hstmt'.lexical.append hstmts'.lexical

end

theorem Program.written {limit : Nat} {tokens : List Token} {program : Block}
    (h : Program limit tokens program) (hlexical : Token.AllLexical tokens)
    (spelling : Spelling) :
    Readable (Program limit · program) (Stmt.writtenAll spelling program.body) := by
  cases h with
  | mk hbody =>
      have hbody' := hbody.written hlexical spelling
      exact ⟨.mk hbody'.phrase, hbody'.lexical⟩

end Grammar

/-! ## The round trip -/

private theorem lexical_beforeEnd {source : String} {file? : Option String} {tokens : List Token}
    (h : tokenize source file? = .ok tokens) : Token.AllLexical (Token.beforeEnd tokens) := by
  have hcuts := cuts_tokenize source file?
  rw [h] at hcuts
  intro token htoken
  have hkind : token.kind ≠ .endOfInput := by simpa using List.mem_takeWhile_imp htoken
  exact hcuts.lexical (List.takeWhile_subset _ htoken) hkind

/-- Lexemes that spell a program are parsed to it from the text they are joined to. -/
theorem parse_joined {tokens : List Token} {tree : Block}
    (h : Grammar.Readable (Grammar.Program Parse.nestingLimit · tree) tokens)
    (file? : Option String) (file : String) :
    ∃ placed program, tokenize (Token.joined tokens) file? = .ok placed ∧
      parse placed file = .ok program ∧ program.eraseSpans = tree := by
  rcases tokenize_joined h.lexical file? with ⟨placed, hplaced, hspelling⟩
  let layouts : Layouts :=
    ⟨tokens ++ [.fixed .endOfInput], placed, by simp [hspelling]; rfl, tokens, _, rfl, rfl⟩
  have hprogram : Grammar.Program Parse.nestingLimit (Token.beforeEnd layouts.left) tree := by
    have hend : Token.beforeEnd layouts.left = tokens := by
      rw [Token.beforeEnd_append _ fun token htoken => (h.lexical token htoken).kind_ne]
      exact List.append_nil tokens
    rw [hend]
    exact h.phrase
  rcases Parse.program_complete file hprogram with ⟨unplaced, hunplaced, rfl⟩
  rcases layouts.parse_alike file file with ⟨left, right, hleft, hright, halike⟩ |
    ⟨diagnostic, _, hleft, -, -⟩
  · cases hunplaced.symm.trans hleft
    exact ⟨placed, right, hplaced, hright, halike.eraseSpans_eq.symm⟩
  · cases hunplaced.symm.trans hleft

/-- The text that a parsed program is printed to is parsed to the same program. -/
theorem parse_print (spelling : Spelling) {source : String} {file? : Option String}
    {tokens : List Token} {file : String} {program : Block}
    (htokens : tokenize source file? = .ok tokens) (hparse : parse tokens file = .ok program)
    (file?' : Option String) (file' : String) :
    ∃ tokens' program', tokenize (program.print spelling) file?' = .ok tokens' ∧
      parse tokens' file' = .ok program' ∧ program'.eraseSpans = program.eraseSpans := by
  have hprogram : Grammar.Program Parse.nestingLimit (Token.beforeEnd tokens) program.eraseSpans :=
    Parse.program_sound hparse
  have hreadable := hprogram.written (lexical_beforeEnd htokens) spelling
  rw [← program.print_eraseSpans]
  exact parse_joined hreadable file?' file'

/-- Parentheses that are not needed are left out, and so is a comma behind the last element. -/
theorem parse_print_regrouped :
    ∃ (spelling : Spelling) (tokens : List Token) (program : Block),
      tokenize "x = ((1 + 2)) * -3 < (4 < 5) == (a || b) ? [(c),] : (d ? e : f);" none =
        .ok tokens ∧
      parse tokens "demo" = .ok program ∧
      program.print spelling =
        "x = ( 1 + 2 ) * - 3 < ( 4 < 5 ) == ( a || b ) ? [ c ] : d ? e : f ;" ∧
      ∃ tokens' program', tokenize (program.print spelling) none = .ok tokens' ∧
        parse tokens' "demo" = .ok program' ∧ program'.eraseSpans = program.eraseSpans := by
  obtain ⟨spelling⟩ : Nonempty Spelling := inferInstance
  obtain ⟨tokens, htokens, hprint⟩ : ∃ tokens,
      tokenize "x = ((1 + 2)) * -3 < (4 < 5) == (a || b) ? [(c),] : (d ? e : f);" none =
        .ok tokens ∧
      (parse tokens "demo").map (·.print spelling) =
        .ok "x = ( 1 + 2 ) * - 3 < ( 4 < 5 ) == ( a || b ) ? [ c ] : d ? e : f ;" :=
    ⟨_, by cbv, by cbv⟩
  cases hparse : parse tokens "demo" with
  | error diagnostic => simp [hparse, Except.map] at hprint
  | ok program =>
      simp only [hparse, Except.map, Except.ok.injEq] at hprint
      exact ⟨spelling, tokens, program, htokens, hparse, hprint,
        parse_print spelling htokens hparse none "demo"⟩

end Assay

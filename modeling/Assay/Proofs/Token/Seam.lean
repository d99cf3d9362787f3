import Assay.Proofs.Token.Lossless

/-!
# Texts joined at a newline

A newline parts a text into two that are read on their own.  No lexeme but a run of blanks
crosses it, and a run of blanks may be cut anywhere, for it makes no token.  So the tokens of
the whole are the tokens of the front part, without the closing one, and behind them those
of the back part, moved by the length of what stands before them.
-/

namespace Assay

/-! ## Lexemes in front of a newline -/

private theorem Text.isBlank_newline : isBlank '\n' := by
  decide

namespace LexemeRule

open Numeral (isDigit)

private theorem takeWhile_barrier {inClass : Char → Bool} {barrier : Char} (h : ¬ inClass barrier)
    (text more : List Char) :
    (text ++ barrier :: more).takeWhile inClass = text.takeWhile inClass := by
  induction text with
  | nil => simp [h]
  | cons c rest ih => simp only [List.cons_append, List.takeWhile_cons, ih]

private theorem run?_barrier {inClass : Char → Bool} {barrier : Char} (h : ¬ inClass barrier)
    (text more : List Char) : run? inClass (text ++ barrier :: more) = run? inClass text := by
  unfold run?
  rw [takeWhile_barrier h]

private theorem word?_newline (text more : List Char) :
    word? (text ++ '\n' :: more) = word? text := by
  cases text with
  | nil => rfl
  | cons c rest => rw [List.cons_append, word?, takeWhile_barrier (by decide), word?]

private theorem decimal?_newline (text more : List Char) :
    decimal? (text ++ '\n' :: more) = decimal? text := by
  have hbarrier : ¬ isDigit '\n' := by decide
  unfold decimal?
  rw [run?_barrier hbarrier]
  cases hwhole : run? isDigit text with
  | none => rfl
  | some whole =>
      obtain ⟨rest, rfl⟩ := (run?_eq_some hwhole).2
      rw [List.append_assoc, Option.bind_some, Option.bind_some, List.drop_left, List.drop_left]
      cases rest with
      | nil => rfl
      | cons c rest =>
          rw [List.cons_append]
          by_cases hc : c = '.'
          · subst hc
            simp only [run?_barrier hbarrier]
          · simp [hc]

private theorem comment?_newline (text more : List Char) :
    comment? (text ++ '\n' :: more) = comment? text := by
  by_cases htext : ∃ rest, text = '/' :: '/' :: rest
  · rcases htext with ⟨rest, rfl⟩
    simp only [List.cons_append, comment?]
    rw [takeWhile_barrier (by decide)]
  · rcases text with - | ⟨c, - | ⟨d, rest⟩⟩ <;> simp_all [comment?]

private theorem pair?_newline {first second : Char} (h : '\n' ∉ [first, second])
    (text more : List Char) :
    pair? first second (text ++ '\n' :: more) = pair? first second text := by
  rcases text with - | ⟨c, - | ⟨d, rest⟩⟩
  · cases more <;> simp_all [pair?]
  · simp_all [pair?]
  · rfl

private theorem mark?_newline {sign : Char} (h : '\n' ∉ [sign]) (text more : List Char) :
    mark? sign (text ++ '\n' :: more) = mark? sign text := by
  cases text with
  | nil => simp_all [mark?]
  | cons c rest => rfl

private theorem newline_notMem_signs : ∀ rule ∈ table, '\n' ∉ rule.signs := by
  decide

/-- A rule other than that for blanks does not see what follows a newline. -/
theorem lexeme?_newline {rule : LexemeRule} (hrule : rule ∈ table) (hblank : rule ≠ .blank)
    (text more : List Char) : rule.lexeme? (text ++ '\n' :: more) = rule.lexeme? text := by
  have hsigns := newline_notMem_signs rule hrule
  cases rule with
  | word => exact word?_newline text more
  | decimal => exact decimal?_newline text more
  | integer => exact run?_barrier (by decide) text more
  | blank => exact absurd rfl hblank
  | comment => exact comment?_newline text more
  | pair kind first second literal => exact pair?_newline hsigns text more
  | mark kind sign literal => exact mark?_newline hsigns text more

private theorem first?_newline {c : Char} (hc : ¬ Text.isBlank c) (rest more : List Char) :
    first? (c :: rest ++ '\n' :: more) = first? (c :: rest) := by
  unfold first?
  rw [← List.head?_filterMap, ← List.head?_filterMap]
  congr 1
  apply List.filterMap_congr
  intro rule hrule
  by_cases hblank : rule = .blank
  · subst hblank
    rw [lexeme?_blank, lexeme?_blank, List.cons_append, run?_eq_none hc, run?_eq_none hc]
  · rw [lexeme?_newline hrule hblank]

private theorem first?_append_newline {rule : LexemeRule} {lexeme rest : List Char}
    (hfirst : first? (lexeme ++ rest) = some (rule, lexeme)) (hrule : rule ≠ .blank)
    (more : List Char) : first? (lexeme ++ (rest ++ '\n' :: more)) = some (rule, lexeme) := by
  cases lexeme with
  | nil => exact absurd rfl (lexeme?_eq_some (lexeme?_of_first? hfirst)).1
  | cons c others =>
      have hc : ¬ Text.isBlank c := by
        intro hc
        rw [List.cons_append, first?_blank hc, Option.some.injEq, Prod.mk.injEq] at hfirst
        exact hrule hfirst.1.symm
      rw [← List.append_assoc, List.cons_append, first?_newline hc, ← List.cons_append, hfirst]

end LexemeRule

namespace Token

open LexemeRule

/-! ## Blanks -/

private theorem stream_skip {file : String} {offset : Nat} {lexeme rest : List Char}
    {rule : LexemeRule}
    (hfirst : first? (lexeme ++ rest) = some (rule, lexeme)) (hkind : rule.kind? lexeme = none) :
    stream file offset (lexeme ++ rest) =
      stream file (offset + Text.byteLength lexeme) rest := by
  rw [stream_of_first? hfirst, hkind]
  exact congrFun Except.map_id _

private theorem stream_unrecognised {file : String} {offset : Nat} {c : Char} {rest : List Char}
    (h : first? (c :: rest) = none) :
    stream file offset (c :: rest) =
      .error ⟨.unrecognisedToken c.toString, .ofBytes file offset⟩ := by
  rw [stream]
  split
  · rfl
  · next hfirst => simp [h] at hfirst

private theorem stream_takeWhile (file : String) (offset : Nat) (text : List Char) :
    stream file offset text =
      stream file (offset + Text.byteLength (text.takeWhile Text.isBlank))
        (text.dropWhile Text.isBlank) := by
  cases text with
  | nil => rfl
  | cons c rest =>
      by_cases hc : Text.isBlank c
      · have hsplit : (c :: rest).takeWhile Text.isBlank ++ (c :: rest).dropWhile Text.isBlank =
            c :: rest := List.takeWhile_append_dropWhile
        have hfirst := first?_blank hc rest
        rw [← List.takeWhile_cons_of_pos hc] at hfirst
        calc stream file offset (c :: rest)
          _ = stream file offset
                ((c :: rest).takeWhile Text.isBlank ++ (c :: rest).dropWhile Text.isBlank) := by
              rw [hsplit]
          _ = _ := stream_skip (by rw [hsplit, hfirst]) rfl
      · simp [hc]

private theorem stream_blanks {blanks : List Char} (h : ∀ c ∈ blanks, Text.isBlank c)
    (file : String) (offset : Nat) (rest : List Char) :
    stream file offset (blanks ++ rest) = stream file (offset + Text.byteLength blanks) rest := by
  rw [stream_takeWhile, List.takeWhile_append_of_pos h, List.dropWhile_append_of_pos h,
    Text.byteLength_append, ← Nat.add_assoc, ← stream_takeWhile]

/-! ## The two parts -/

/-- Behind a newline the tokens are those of the text that starts there. -/
theorem Cuts.stream_newline {file : String} {offset : Nat} {front : List Char}
    {result : Except Diagnostic (List Token)} (h : Cuts file offset front result)
    (back : List Char) :
    stream file offset (front ++ '\n' :: back) =
      result.bind fun tokens =>
        (stream file (offset + Text.byteLength front + 1) back).map (tokens.dropLast ++ ·) := by
  induction h with
  | @done offset =>
      have hnewline : ∀ c ∈ ['\n'], Text.isBlank c := by simp [Text.isBlank_newline]
      rw [List.nil_append, ← List.singleton_append, stream_blanks hnewline]
      exact (congrFun Except.map_id _).symm
  | @unrecognised offset c rest hfirst =>
      have hc : ¬ Text.isBlank c := by
        intro hc
        simp [first?_blank hc] at hfirst
      rw [← first?_newline hc rest back] at hfirst
      exact stream_unrecognised hfirst
  | @separator offset rule lexeme rest result hfirst hkind _ ih =>
      have hskip : stream file offset (lexeme ++ (rest ++ '\n' :: back)) =
          stream file (offset + Text.byteLength lexeme) (rest ++ '\n' :: back) := by
        by_cases hrule : rule = .blank
        · -- A run of blanks may go on behind the newline, where the lexeme is another one.
          subst hrule
          exact stream_blanks (mem_of_run? (lexeme?_of_first? hfirst)) _ _ _
        · exact stream_skip (first?_append_newline hfirst hrule back) hkind
      rw [List.append_assoc, hskip, ih, Text.byteLength_append, Nat.add_assoc offset]
  | @token offset rule lexeme rest kind result hfirst hkind hrest ih =>
      have hrule : rule ≠ .blank := by
        rintro rfl
        cases hkind
      -- The closing token of the front part stays the last one when a token is put before it.
      rw [List.append_assoc, stream_of_first? (first?_append_newline hfirst hrule back), ih, hkind,
        Text.byteLength_append, Nat.add_assoc offset]
      cases result with
      | error diagnostic => rfl
      | ok tokens =>
          obtain ⟨before, rfl, -⟩ := hrest.ends
          rw [Except.bind, Except.map, Except.bind, List.dropLast_cons_of_ne_nil (by simp)]
          cases stream file (offset + (Text.byteLength lexeme + Text.byteLength rest) + 1) back <;>
            rfl

end Token

/-! ## Texts that start further on -/

structure Position.Shifted (distance : Nat) (position shifted : Position) : Prop where
  file_eq : shifted.file = position.file
  offset_eq : shifted.offset.toNat = position.offset.toNat + distance

private theorem Position.shifted_ofBytes {file : String} {count distance : Nat}
    (h : count + distance < 2 ^ 32) :
    Shifted distance (ofBytes file count) (ofBytes file (count + distance)) where
  file_eq := rfl
  offset_eq := by rw [toNat_ofBytes h, toNat_ofBytes (by omega)]

structure Token.Shifted (distance : Nat) (token shifted : Token) : Prop where
  kind_eq : shifted.kind = token.kind
  text_eq : shifted.text = token.text
  start : token.span.start.Shifted distance shifted.span.start
  stop : token.span.stop.Shifted distance shifted.span.stop

inductive Token.ShiftedResult (distance : Nat) :
    Except Diagnostic (List Token) → Except Diagnostic (List Token) → Prop where
  | ok {tokens shifted : List Token} (h : List.Forall₂ (Shifted distance) tokens shifted) :
      ShiftedResult distance (.ok tokens) (.ok shifted)
  | error {cause : Cause} {position shifted : Position} (h : position.Shifted distance shifted) :
      ShiftedResult distance (.error ⟨cause, position⟩) (.error ⟨cause, shifted⟩)

namespace Token

open LexemeRule

theorem Cuts.shifted {file : String} {offset distance : Nat} {text : List Char}
    {result : Except Diagnostic (List Token)} (h : Cuts file offset text result)
    (hsize : offset + distance + Text.byteLength text < 2 ^ 32) :
    ShiftedResult distance result (stream file (offset + distance) text) := by
  induction h with
  | @done offset =>
      have hplace : Position.Shifted distance (.ofBytes file offset)
          (.ofBytes file (offset + distance)) := Position.shifted_ofBytes hsize
      rw [stream]
      exact .ok (.cons ⟨rfl, rfl, hplace, hplace⟩ .nil)
  | @unrecognised offset c rest hfirst =>
      rw [stream_unrecognised hfirst]
      exact .error (Position.shifted_ofBytes (by omega))
  | @separator offset rule lexeme rest result hfirst hkind _ ih =>
      rw [Text.byteLength_append] at hsize
      rw [stream_skip hfirst hkind, Nat.add_right_comm]
      exact ih (by omega)
  | @token offset rule lexeme rest kind result hfirst hkind hrest ih =>
      rw [Text.byteLength_append] at hsize
      rw [stream_of_first? hfirst, hkind, Nat.add_right_comm]
      generalize stream file (offset + Text.byteLength lexeme + distance) rest = later at ih
      cases ih (by omega) with
      | ok hlater =>
          refine .ok (.cons ⟨rfl, rfl, Position.shifted_ofBytes (by omega), ?_⟩ hlater)
          rw [Span.ofBytes, Span.ofBytes, Nat.add_right_comm]
          exact Position.shifted_ofBytes (by omega)
      | error hlater => exact .error hlater

end Token

/-- A source that is joined at a newline is read like its two parts.  A fault of the front part
stays where it is; the tokens or the fault of the back part are moved by the length of the front
part and the newline. -/
theorem tokenize_newline (front back : String) (file? : Option String)
    (hsize : Text.byteLength front.toList + 1 + Text.byteLength back.toList < 2 ^ 32) :
    let distance := Text.byteLength front.toList + 1
    let whole := tokenize (front ++ "\n" ++ back) file?
    (∀ diagnostic, tokenize front file? = .error diagnostic → whole = .error diagnostic) ∧
    (∀ tokens cause position, tokenize front file? = .ok tokens →
      tokenize back file? = .error ⟨cause, position⟩ →
      ∃ shifted, position.Shifted distance shifted ∧ whole = .error ⟨cause, shifted⟩) ∧
    ∀ tokens others, tokenize front file? = .ok tokens → tokenize back file? = .ok others →
      ∃ before closing shifted, tokens = before ++ [closing] ∧ closing.kind = .endOfInput ∧
        List.Forall₂ (Token.Shifted distance) others shifted ∧ whole = .ok (before ++ shifted) := by
  intro distance whole
  have hcuts := cuts_tokenize front file?
  have hwhole : whole = (tokenize front file?).bind fun tokens =>
      (Token.stream (file?.getD interactiveFile) (0 + distance) back.toList).map
        (tokens.dropLast ++ ·) := by
    have hseam := hcuts.stream_newline back.toList
    have htext : (front ++ "\n" ++ back).toList = front.toList ++ '\n' :: back.toList := by simp
    rwa [← htext, Nat.add_assoc] at hseam
  have hback : Token.ShiftedResult distance (tokenize back file?)
      (Token.stream (file?.getD interactiveFile) (0 + distance) back.toList) :=
    (cuts_tokenize back file?).shifted (by omega)
  generalize Token.stream (file?.getD interactiveFile) (0 + distance) back.toList = later
    at hwhole hback
  refine ⟨?_, ?_, ?_⟩
  · intro diagnostic hfront
    rw [hwhole, hfront]
    rfl
  · intro tokens cause position hfront hfault
    rw [hfault] at hback
    cases hback with
    | error hshifted =>
        refine ⟨_, hshifted, ?_⟩
        rw [hwhole, hfront]
        rfl
  · intro tokens others hfront hothers
    rw [hothers] at hback
    rw [hfront] at hcuts
    rcases hcuts.ends with ⟨before, rfl, -⟩
    cases hback with
    | ok hshifted =>
        refine ⟨before, _, _, rfl, rfl, hshifted, ?_⟩
        rw [hwhole, hfront]
        simp [Except.bind, Except.map]

/-- Behind a comment and among blanks, the back part is read as it is on its own; an ampersand
that the newline cuts off from another is no token. -/
theorem tokenize_newline_comment :
    (∃ before closing shifted, [⟨.identifier, "x", .ofBytes "demo" 0 1⟩,
        .endAt (.ofBytes "demo" 6)] = before ++ [closing] ∧ closing.kind = .endOfInput ∧
      List.Forall₂ (Token.Shifted 7)
        [⟨.integer, "7", .ofBytes "demo" 1 1⟩, .endAt (.ofBytes "demo" 2)] shifted ∧
      tokenize ("x //<=" ++ "\n" ++ " 7") (some "demo") = .ok (before ++ shifted)) ∧
    tokenize ("x &" ++ "\n" ++ "& y") (some "demo") =
      .error ⟨.unrecognisedToken "&", .ofBytes "demo" 2⟩ := by
  have hfront : tokenize "x //<=" (some "demo") =
      .ok [⟨.identifier, "x", .ofBytes "demo" 0 1⟩, .endAt (.ofBytes "demo" 6)] := by cbv
  have hback : tokenize " 7" (some "demo") =
      .ok [⟨.integer, "7", .ofBytes "demo" 1 1⟩, .endAt (.ofBytes "demo" 2)] := by cbv
  have hfault : tokenize "x &" (some "demo") =
      .error ⟨.unrecognisedToken "&", .ofBytes "demo" 2⟩ := by cbv
  exact ⟨(tokenize_newline "x //<=" " 7" (some "demo") (by decide)).2.2 _ _ hfront hback,
    (tokenize_newline "x &" "& y" (some "demo") (by decide)).1 _ hfault⟩

end Assay

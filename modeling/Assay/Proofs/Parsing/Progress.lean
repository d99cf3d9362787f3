import Assay.Proofs.Parsing.Steps

/-!
# Parsing makes progress

A form that the parser turns to passes the token that it was chosen for, unless it fails.  So
a loop that turns to a form in each round is over within as many rounds as there are tokens
left, and phrases lie no deeper in one another than that.

Two runs are followed side by side.  They may be given different numbers of rounds and of
levels, and their streams may differ behind a closing token: as long as there is enough of
everything up to there, they end alike.
-/

namespace Assay

def Cause.isStalled : Cause → Bool
  | stalled _ => true
  | _ => false

private theorem Cursor.passed_next {cursor : Cursor} {token : Token} {others : List Token}
    (h : cursor.rest = token :: others) (hothers : others ≠ []) :
    cursor.next.passed = token :: cursor.passed := by
  obtain ⟨passed, current, ahead⟩ := cursor
  obtain ⟨rfl, rfl⟩ := List.cons.inj h
  cases ahead with
  | nil => exact absurd rfl hothers
  | cons next others => rfl

/-! ## Streams that part -/

/-- Two streams that part behind a closing token. -/
structure Parting where
  last : Token
  left : List Token
  right : List Token
  closes : last.kind = .endOfInput

namespace Parting

/-- Cursors that have passed the same tokens and have the same tokens left up to where their
streams part: `count` of them and the closing one. -/
structure Beside (parting : Parting) (count : Nat) (cursor twin : Cursor) : Prop where
  passed_eq : cursor.passed = twin.passed
  rest_eq : ∃ tokens : List Token, tokens.length = count ∧
    (∀ token ∈ tokens, token.kind ≠ .endOfInput) ∧
    cursor.rest = tokens ++ parting.last :: parting.left ∧
    twin.rest = tokens ++ parting.last :: parting.right

namespace Beside

variable {parting : Parting} {count : Nat} {cursor twin : Cursor}

theorem current_eq (h : parting.Beside count cursor twin) : cursor.current = twin.current := by
  rcases h.rest_eq with ⟨tokens, -, -, hcursor, htwin⟩
  cases tokens with
  | nil => rw [Cursor.current_eq hcursor, Cursor.current_eq htwin]
  | cons token tokens => rw [Cursor.current_eq hcursor, Cursor.current_eq htwin]

theorem kind_eq (h : parting.Beside count cursor twin) : cursor.kind = twin.kind := by
  rw [Cursor.kind, Cursor.kind, h.current_eq]

theorem previousEnd_eq (h : parting.Beside count cursor twin) :
    cursor.previousEnd = twin.previousEnd := by
  rw [Cursor.previousEnd, Cursor.previousEnd, h.passed_eq, h.current_eq]

theorem length_left (h : parting.Beside count cursor twin) :
    cursor.rest.length = count + 1 + parting.left.length := by
  rcases h.rest_eq with ⟨tokens, rfl, -, hcursor, -⟩
  simp only [hcursor, List.length_append, List.length_cons]
  omega

theorem length_right (h : parting.Beside count cursor twin) :
    twin.rest.length = count + 1 + parting.right.length := by
  rcases h.rest_eq with ⟨tokens, rfl, -, -, htwin⟩
  simp only [htwin, List.length_append, List.length_cons]
  omega

theorem count_lt_left (h : parting.Beside count cursor twin) : count < cursor.rest.length := by
  have := h.length_left
  omega

theorem count_lt_right (h : parting.Beside count cursor twin) : count < twin.rest.length := by
  have := h.length_right
  omega

theorem next (h : parting.Beside count cursor twin) (hkind : cursor.kind ≠ .endOfInput) :
    ∃ fewer, fewer < count ∧ parting.Beside fewer cursor.next twin.next := by
  rcases h with ⟨hpassed, tokens, rfl, hinside, hcursor, htwin⟩
  cases tokens with
  | nil => exact absurd ((Cursor.kind_eq hcursor).trans parting.closes) hkind
  | cons token tokens =>
      have hpassed' : cursor.next.passed = twin.next.passed := by
        rw [Cursor.passed_next hcursor (by simp), Cursor.passed_next htwin (by simp), hpassed]
      exact ⟨tokens.length, Nat.lt_succ_self _, hpassed', tokens, rfl,
        (List.forall_mem_cons.mp hinside).2, Cursor.next_rest hcursor (by simp),
        Cursor.next_rest htwin (by simp)⟩

end Beside

/-! ## Steps side by side -/

/-- Two steps end with the same value, fewer than `limit` tokens before the closing one, or
with the same fault, which is not that a loop has run out of rounds. -/
inductive EndsAlike (parting : Parting) (limit : Nat) {α : Type} :
    EStateM.Result Diagnostic Cursor α → EStateM.Result Diagnostic Cursor α → Prop where
  | ok {value : α} {count : Nat} {stop stop' : Cursor} (hcount : count < limit)
      (hstop : parting.Beside count stop stop') :
      EndsAlike parting limit (.ok value stop) (.ok value stop')
  | error {fault : Diagnostic} {count : Nat} {stop stop' : Cursor}
      (hcause : ¬ fault.cause.isStalled) (hstop : parting.Beside count stop stop') :
      EndsAlike parting limit (.error fault stop) (.error fault stop')

/-- Taken on a token of the kind, fewer than `bound` tokens before the closing one, two steps
end alike and do not move back. -/
def SteadyOn {α : Type} (parting : Parting) (kind : TokenKind) (bound : Nat)
    (step other : Parse α) : Prop :=
  ∀ ⦃count : Nat⦄ ⦃cursor twin : Cursor⦄, count < bound → parting.Beside count cursor twin →
    cursor.kind = kind → parting.EndsAlike (count + 1) (step cursor) (other twin)

def Steady {α : Type} (parting : Parting) (bound : Nat) (step other : Parse α) : Prop :=
  ∀ kind, parting.SteadyOn kind bound step other

/-- Taken on a token of the kind, at most `bound` tokens before the closing one, two steps end
alike and have passed a token, unless they fail. -/
def StridesOn {α : Type} (parting : Parting) (kind : TokenKind) (bound : Nat)
    (step other : Parse α) : Prop :=
  ∀ ⦃count : Nat⦄ ⦃cursor twin : Cursor⦄, count ≤ bound → parting.Beside count cursor twin →
    cursor.kind = kind → parting.EndsAlike count (step cursor) (other twin)

def Strides {α : Type} (parting : Parting) (bound : Nat) (step other : Parse α) : Prop :=
  ∀ kind, parting.StridesOn kind bound step other

section

variable {parting : Parting} {α β : Type} {kind : TokenKind} {bound limit : Nat}
variable {step other : Parse α} {following following' : α → Parse β}

namespace EndsAlike

theorem mono {more : Nat} {result result' : EStateM.Result Diagnostic Cursor α}
    (h : parting.EndsAlike limit result result') (hmore : limit ≤ more) :
    parting.EndsAlike more result result' := by
  cases h with
  | ok hcount hstop => exact .ok (Nat.lt_of_lt_of_le hcount hmore) hstop
  | error hcause hstop => exact .error hcause hstop

theorem bind {cursor twin : Cursor} (hstep : parting.EndsAlike limit (step cursor) (other twin))
    (hfollowing : ∀ value, parting.Steady limit (following value) (following' value)) :
    parting.EndsAlike limit ((step >>= following) cursor) ((other >>= following') twin) := by
  change parting.EndsAlike limit (EStateM.bind step following cursor)
    (EStateM.bind other following' twin)
  unfold EStateM.bind
  generalize step cursor = first at hstep
  generalize other twin = second at hstep
  cases hstep with
  | ok hcount hstop => exact (hfollowing _ _ hcount hstop rfl).mono hcount
  | error hcause hstop => exact .error hcause hstop

theorem reject {count : Nat} {cause : String → Cause} {cursor twin : Cursor}
    (hcause : ∀ text, ¬ (cause text).isStalled) (hbeside : parting.Beside count cursor twin) :
    parting.EndsAlike limit ((Parse.reject cause : Parse α) cursor) (Parse.reject cause twin) := by
  unfold Parse.reject Cursor.position
  rw [hbeside.current_eq]
  exact .error (hcause _) hbeside

end EndsAlike

namespace StridesOn

theorem bind (hstep : parting.StridesOn kind bound step other)
    (hfollowing : ∀ value, parting.Steady bound (following value) (following' value)) :
    parting.StridesOn kind bound (step >>= following) (other >>= following') := by
  intro count cursor twin hcount hbeside hkind
  refine (hstep hcount hbeside hkind).bind fun value kind fewer _ _ hfewer => ?_
  exact hfollowing value kind (Nat.lt_of_lt_of_le hfewer hcount)

theorem steadyOn (h : parting.StridesOn kind bound step other) :
    parting.SteadyOn kind (bound + 1) step other :=
  fun count _ _ hcount hbeside hkind =>
    (h (Nat.le_of_lt_succ hcount) hbeside hkind).mono (Nat.le_succ count)

theorem reject {cause : String → Cause} (hcause : ∀ text, ¬ (cause text).isStalled) :
    parting.StridesOn kind bound (Parse.reject cause : Parse α) (Parse.reject cause) :=
  fun _ _ _ _ hbeside _ => .reject hcause hbeside

theorem unexpected : parting.StridesOn kind bound (Parse.unexpected : Parse α) Parse.unexpected :=
  reject (by simp [Cause.isStalled])

theorem unexpectedHere {message : String} :
    parting.StridesOn kind bound (Parse.unexpectedHere message : Parse α)
      (Parse.unexpectedHere message) :=
  reject (by simp [Cause.isStalled])

theorem advance (hkind : kind ≠ .endOfInput) :
    parting.StridesOn kind bound Parse.advance Parse.advance := by
  intro count cursor twin _ hbeside hcursor
  rcases hbeside.next (hcursor ▸ hkind) with ⟨fewer, hfewer, hnext⟩
  unfold Parse.advance
  rw [hbeside.current_eq]
  exact .ok hfewer hnext

theorem kind_bind {following following' : TokenKind → Parse β}
    (h : parting.StridesOn kind bound (following kind) (following' kind)) :
    parting.StridesOn kind bound (Parse.kind >>= following) (Parse.kind >>= following') := by
  intro count cursor twin hcount hbeside hkind
  rw [Parse.kind_bind_apply, Parse.kind_bind_apply, ← hbeside.kind_eq, hkind]
  exact h hcount hbeside hkind

theorem remaining_bind {following following' : List Token → Parse β}
    (h : ∀ fewer round rounds round' rounds', fewer ≤ bound → fewer ≤ rounds.length →
      fewer ≤ rounds'.length →
      parting.StridesOn kind fewer (following (round :: rounds)) (following' (round' :: rounds'))) :
    parting.StridesOn kind bound (Parse.remaining >>= following)
      (Parse.remaining >>= following') := by
  intro count cursor twin hcount hbeside hkind
  exact h count cursor.current cursor.ahead twin.current twin.ahead hcount
    (Nat.le_of_lt_succ hbeside.count_lt_left) (Nat.le_of_lt_succ hbeside.count_lt_right)
    (Nat.le_refl count) hbeside hkind

end StridesOn

namespace Strides

theorem bind (hstep : parting.Strides bound step other)
    (hfollowing : ∀ value, parting.Steady bound (following value) (following' value)) :
    parting.Strides bound (step >>= following) (other >>= following') :=
  fun kind => (hstep kind).bind hfollowing

theorem kind_bind {following following' : TokenKind → Parse β}
    (h : ∀ kind, parting.StridesOn kind bound (following kind) (following' kind)) :
    parting.Strides bound (Parse.kind >>= following) (Parse.kind >>= following') :=
  fun kind => .kind_bind (h kind)

theorem expectOr {expected : TokenKind} {cause : String → Cause}
    (hexpected : expected ≠ .endOfInput) (hcause : ∀ text, ¬ (cause text).isStalled) :
    parting.Strides bound (Parse.expectOr expected (Parse.reject cause))
      (Parse.expectOr expected (Parse.reject cause)) := by
  intro kind count cursor twin hcount hbeside hkind
  unfold Parse.expectOr
  rw [← hbeside.kind_eq, hkind]
  split
  · next h => exact StridesOn.advance (h ▸ hexpected) hcount hbeside hkind
  · exact .reject hcause hbeside

theorem expect {expected : TokenKind} (hexpected : expected ≠ .endOfInput) :
    parting.Strides bound (Parse.expect expected) (Parse.expect expected) :=
  expectOr hexpected (by simp [Cause.isStalled])

theorem expectHere {expected : TokenKind} {message : String} (hexpected : expected ≠ .endOfInput) :
    parting.Strides bound (Parse.expectHere expected message)
      (Parse.expectHere expected message) :=
  expectOr hexpected (by simp [Cause.isStalled])

end Strides

theorem SteadyOn.of_strides (h : ∀ fewer, fewer < bound → parting.StridesOn kind fewer step other) :
    parting.SteadyOn kind bound step other :=
  fun count _ _ hcount => (h count hcount).steadyOn (Nat.lt_succ_self count)

namespace Steady

theorem zero : parting.Steady 0 step other :=
  fun _ _ _ _ hcount => absurd hcount (Nat.not_lt_zero _)

theorem mono {fewer : Nat} (h : parting.Steady bound step other) (hfewer : fewer ≤ bound) :
    parting.Steady fewer step other :=
  fun kind _ _ _ hcount => h kind (Nat.lt_of_lt_of_le hcount hfewer)

theorem of_strides (h : ∀ fewer, fewer < bound → parting.Strides fewer step other) :
    parting.Steady bound step other :=
  fun kind => .of_strides fun fewer hfewer => h fewer hfewer kind

theorem pure (value : α) : parting.Steady bound (Pure.pure value) (Pure.pure value) :=
  fun _ count _ _ _ hbeside _ => .ok (Nat.lt_succ_self count) hbeside

theorem bind (hstep : parting.Steady bound step other)
    (hfollowing : ∀ value, parting.Steady bound (following value) (following' value)) :
    parting.Steady bound (step >>= following) (other >>= following') := by
  intro kind count cursor twin hcount hbeside hkind
  exact (hstep kind hcount hbeside hkind).bind fun value => (hfollowing value).mono hcount

theorem kind_bind {following following' : TokenKind → Parse β}
    (h : ∀ kind, parting.SteadyOn kind bound (following kind) (following' kind)) :
    parting.Steady bound (Parse.kind >>= following) (Parse.kind >>= following') := by
  intro kind count cursor twin hcount hbeside hkind
  rw [Parse.kind_bind_apply, Parse.kind_bind_apply, ← hbeside.kind_eq, hkind]
  exact h kind hcount hbeside hkind

theorem previousEnd_bind {following following' : Position → Parse β}
    (h : ∀ position, parting.Steady bound (following position) (following' position)) :
    parting.Steady bound (Parse.previousEnd >>= following) (Parse.previousEnd >>= following') := by
  intro kind count cursor twin hcount hbeside hkind
  rw [Parse.previousEnd_bind_apply, Parse.previousEnd_bind_apply, ← hbeside.previousEnd_eq]
  exact h _ kind hcount hbeside hkind

theorem remaining_bind {following following' : List Token → Parse β}
    (h : ∀ fewer rounds rounds', fewer ≤ bound → fewer ≤ rounds.length → fewer ≤ rounds'.length →
      parting.Steady fewer (following rounds) (following' rounds')) :
    parting.Steady bound (Parse.remaining >>= following) (Parse.remaining >>= following') := by
  intro kind count cursor twin hcount hbeside hkind
  rw [Parse.remaining_bind_rest, Parse.remaining_bind_rest]
  exact h (count + 1) _ _ hcount hbeside.count_lt_left hbeside.count_lt_right kind
    (Nat.lt_succ_self count) hbeside hkind

theorem unexpectedHere {message : String} :
    parting.Steady bound (Parse.unexpectedHere message : Parse α) (Parse.unexpectedHere message) :=
  of_strides fun _ _ _ => .unexpectedHere

theorem expect {expected : TokenKind} (hexpected : expected ≠ .endOfInput) :
    parting.Steady bound (Parse.expect expected) (Parse.expect expected) :=
  of_strides fun _ _ => .expect hexpected

theorem expectHere {expected : TokenKind} {message : String} (hexpected : expected ≠ .endOfInput) :
    parting.Steady bound (Parse.expectHere expected message)
      (Parse.expectHere expected message) :=
  of_strides fun _ _ => .expectHere hexpected

end Steady

end

end Parting

namespace Parse

open Parting

variable {parting : Parting} {kind : TokenKind} {bound : Nat}

/-! ## Loops -/

/-- What holds with nothing before the closing token, and in each round if it holds in the
rounds after it, holds wherever there are rounds enough. -/
theorem rounds_induction {P : Nat → List Token → List Token → Prop}
    (hzero : ∀ rounds rounds', P 0 rounds rounds')
    (hround : ∀ fewer round rounds round' rounds', fewer < bound → P fewer rounds rounds' →
      P (fewer + 1) (round :: rounds) (round' :: rounds'))
    {rounds rounds' : List Token} (hrounds : bound ≤ rounds.length)
    (hrounds' : bound ≤ rounds'.length) : P bound rounds rounds' := by
  induction bound generalizing rounds rounds' with
  | zero => exact hzero rounds rounds'
  | succ fewer ih =>
      obtain ⟨round, rounds, rfl⟩ := List.exists_cons_of_length_pos (Nat.zero_lt_of_lt hrounds)
      obtain ⟨round', rounds', rfl⟩ := List.exists_cons_of_length_pos (Nat.zero_lt_of_lt hrounds')
      refine hround fewer _ _ _ _ (Nat.lt_succ_self fewer) (ih ?_
        (Nat.le_of_succ_le_succ hrounds) (Nat.le_of_succ_le_succ hrounds'))
      intro least _ _ _ _ hleast
      exact hround least _ _ _ _ (Nat.lt_succ_of_lt hleast)

section

variable {rounds rounds' : List Token} (hrounds : bound ≤ rounds.length)
variable (hrounds' : bound ≤ rounds'.length) {operand operand' : Parse Expr}
variable (hoperand : parting.Steady bound operand operand')

include hrounds hrounds' hoperand

theorem elements_steady :
    parting.Steady bound (elements operand rounds) (elements operand' rounds') := by
  refine rounds_induction (P := fun bound rounds rounds' =>
    parting.Steady bound (elements operand rounds) (elements operand' rounds'))
    (fun _ _ => .zero) ?_ hrounds hrounds'
  intro fewer round rounds round' rounds' hfewer hothers
  refine .kind_bind fun kind => ?_
  split
  · exact Steady.pure _ kind
  refine (hoperand.mono hfewer).bind (fun first => .kind_bind fun next => ?_) kind
  split
  · exact ((StridesOn.advance (by decide)).bind fun _ => hothers.bind fun _ => .pure _).steadyOn
  · exact Steady.pure _ _
  · exact StridesOn.unexpectedHere.steadyOn

theorem links_steady (family : Family) :
    parting.Steady bound (links operand family rounds) (links operand' family rounds') := by
  refine rounds_induction (P := fun bound rounds rounds' =>
    parting.Steady bound (links operand family rounds) (links operand' family rounds'))
    (fun _ _ => .zero) ?_ hrounds hrounds'
  intro fewer round rounds round' rounds' hfewer hothers
  refine .kind_bind fun kind => ?_
  split
  · exact Steady.pure _ kind
  · next operator hoperator =>
      have hkind : kind ≠ .endOfInput := by
        rintro rfl
        cases family <;> cases hoperator
      exact ((StridesOn.advance hkind).bind fun _ => (hoperand.mono (Nat.le_of_lt hfewer)).bind
        fun _ => hothers.bind fun _ => .pure _).steadyOn

theorem comparands_steady {sign : TokenKind} (hsign : sign ≠ .endOfInput) :
    parting.Steady bound (comparands operand sign rounds) (comparands operand' sign rounds') := by
  refine rounds_induction (P := fun bound rounds rounds' =>
    parting.Steady bound (comparands operand sign rounds) (comparands operand' sign rounds'))
    (fun _ _ => .zero) ?_ hrounds hrounds'
  intro fewer round rounds round' rounds' hfewer hothers
  refine .kind_bind fun kind => ?_
  split
  · next hkind =>
      exact ((StridesOn.advance (hkind ▸ hsign)).bind fun _ =>
        (hoperand.mono (Nat.le_of_lt hfewer)).bind fun _ => hothers.bind fun _ => .pure _).steadyOn
  · exact Steady.pure _ kind

end

theorem statementsUntil_steady (ends : List TokenKind) {statement statement' : Parse Stmt}
    (hstatement : ∀ fewer, fewer < bound → parting.Strides fewer statement statement')
    {rounds rounds' : List Token} (hrounds : bound ≤ rounds.length)
    (hrounds' : bound ≤ rounds'.length) :
    parting.Steady bound (statementsUntil ends statement rounds)
      (statementsUntil ends statement' rounds') := by
  refine rounds_induction (P := fun bound rounds rounds' =>
    parting.Steady bound (statementsUntil ends statement rounds)
      (statementsUntil ends statement' rounds'))
    (fun _ _ => .zero) ?_ hrounds hrounds'
  intro fewer round rounds round' rounds' hfewer hothers
  refine .kind_bind fun kind => ?_
  split
  · exact Steady.pure _ kind
  · exact ((hstatement fewer hfewer kind).bind fun _ => hothers.bind fun _ => .pure _).steadyOn

/-! ## Expressions -/

private theorem number_strides {α : Type} (read? : String → Option α) (build : α → Span → Expr)
    (hkind : kind ≠ .endOfInput) :
    parting.StridesOn kind bound (number read? build) (number read? build) := by
  intro count cursor twin _ hbeside hcursor
  rcases hbeside.next (hcursor ▸ hkind) with ⟨fewer, hfewer, hnext⟩
  unfold number
  rw [hbeside.current_eq]
  cases read? twin.current.text with
  | some value => exact .ok hfewer hnext
  | none => exact .reject (by simp [Cause.isStalled]) hbeside

private theorem atom_strides : parting.Strides bound atom atom := by
  refine .kind_bind fun kind => ?_
  split
  · exact number_strides _ _ (by decide)
  · exact number_strides _ _ (by decide)
  · exact (StridesOn.advance (by decide)).bind fun _ => .pure _
  · exact (StridesOn.advance (by decide)).bind fun _ => .pure _
  · exact (StridesOn.advance (by decide)).bind fun _ => .pure _
  · exact .unexpected

section

variable {sub sub' : Power → Parse Expr}
variable (hsub : ∀ power, parting.Steady bound (sub power) (sub' power))

include hsub

theorem opening_strides (hkind : kind ≠ .endOfInput) (form : OpeningForm) :
    parting.StridesOn kind bound (opening sub form) (opening sub' form) := by
  have hadvance : parting.StridesOn kind bound advance advance := .advance hkind
  cases form with
  | atom => exact atom_strides kind
  | unary => exact hadvance.bind fun _ => (hsub .unary).bind fun _ => .pure _
  | group =>
      exact hadvance.bind fun _ => (hsub .lowest).bind fun _ =>
        (Steady.expect (by decide)).bind fun _ => .pure _
  | list =>
      refine hadvance.bind fun _ => .remaining_bind fun fewer rounds rounds' hfewer hrounds
        hrounds' => ?_
      exact (elements_steady hrounds hrounds' ((hsub .lowest).mono hfewer)).bind fun _ =>
        (Steady.expect (by decide)).bind fun _ => .previousEnd_bind fun _ => .pure _

private theorem chain_strides {family : Family} {operator : Operator family}
    (hoperator : family.operator? kind = some operator) (power : Power) (left : Expr) :
    parting.StridesOn kind bound (chain sub family power left) (chain sub' family power left) := by
  have hkind : kind ≠ .endOfInput := by
    rintro rfl
    cases family <;> cases hoperator
  refine .remaining_bind fun fewer round rounds round' rounds' hfewer hrounds hrounds' => ?_
  have hpower := (hsub power).mono hfewer
  have hothers := links_steady hrounds hrounds' hpower family
  refine StridesOn.bind (.kind_bind ?_) fun _ => .pure _
  rw [hoperator]
  exact (StridesOn.advance hkind).bind fun _ => hpower.bind fun _ => hothers.bind fun _ => .pure _

private theorem comparison_strides (hkind : kind ≠ .endOfInput) (power : Power) (left : Expr) :
    parting.StridesOn kind bound (comparison sub power left) (comparison sub' power left) := by
  refine .kind_bind ?_
  split
  · exact .unexpectedHere
  · refine .remaining_bind fun fewer round rounds round' rounds' hfewer hrounds hrounds' => ?_
    have hpower := (hsub power).mono hfewer
    have hothers := comparands_steady hrounds hrounds' hpower hkind
    refine StridesOn.bind (.kind_bind ?_) fun _ => .pure _
    rw [if_pos rfl, if_pos rfl]
    exact (StridesOn.advance hkind).bind fun _ => hpower.bind fun _ => hothers.bind fun _ => .pure _

/-- The form that continues an expression passes the token that selects it.  A chain does so
because its family has an operator for every token that the dialect gives to it. -/
theorem continuation_strides {form : ContinuationForm}
    (hform : Dialect.standard.continuation? kind = some form) (power : Power) (left : Expr) :
    parting.StridesOn kind bound (continuation sub power left form)
      (continuation sub' power left form) := by
  have hkind : kind ≠ .endOfInput := by
    rintro rfl
    cases hform
  cases form with
  | ternary =>
      exact (StridesOn.advance hkind).bind fun _ => (hsub .lowest).bind fun _ =>
        (Steady.expectHere (by decide)).bind fun _ => (hsub .lowest).bind fun _ => .pure _
  | chain family =>
      obtain ⟨operator, hoperator⟩ : ∃ operator, family.operator? kind = some operator := by
        cases kind <;> cases hform <;> exact ⟨_, rfl⟩
      exact chain_strides hsub hoperator power left
  | comparison => exact comparison_strides hsub hkind power left

theorem continued_steady {rounds rounds' : List Token} (hrounds : bound ≤ rounds.length)
    (hrounds' : bound ≤ rounds'.length) (power : Power) (left : Expr) :
    parting.Steady bound (continued .standard sub power rounds left)
      (continued .standard sub' power rounds' left) := by
  refine rounds_induction (P := fun bound rounds rounds' => ∀ left,
    parting.Steady bound (continued .standard sub power rounds left)
      (continued .standard sub' power rounds' left))
    (fun _ _ _ => .zero) ?_ hrounds hrounds' left
  intro fewer round rounds round' rounds' hfewer hothers left
  refine .kind_bind fun kind => ?_
  split
  · split
    · exact StridesOn.unexpected.steadyOn
    · next form hform =>
        have hfewerSub (power : Power) := (hsub power).mono (Nat.le_of_lt hfewer)
        exact ((continuation_strides hfewerSub hform _ left).bind hothers).steadyOn
  · exact Steady.pure _ kind

end

def LevelsAgree (bound levels levels' : Nat) : Prop :=
  levels = levels' ∨ bound < levels ∧ bound < levels'

theorem LevelsAgree.inner {levels levels' fewer : Nat}
    (h : LevelsAgree bound (levels + 1) (levels' + 1)) (hfewer : fewer < bound) :
    LevelsAgree fewer levels levels' := by
  unfold LevelsAgree at h ⊢
  omega

theorem LevelsAgree.eq_zero {levels' : Nat} (h : LevelsAgree bound 0 levels') : levels' = 0 := by
  unfold LevelsAgree at h
  omega

theorem LevelsAgree.eq_succ {levels levels' : Nat} (h : LevelsAgree bound (levels + 1) levels') :
    ∃ inner, levels' = inner + 1 :=
  ⟨levels' - 1, by unfold LevelsAgree at h; omega⟩

theorem expression_strides {levels levels' : Nat} (hlevels : LevelsAgree bound levels levels')
    (power : Power) :
    parting.Strides bound (expression .standard levels power)
      (expression .standard levels' power) := by
  induction levels generalizing levels' bound power with
  | zero =>
      cases hlevels.eq_zero
      exact fun _ => .unexpectedHere
  | succ levels ih =>
      rcases hlevels.eq_succ with ⟨levels', rfl⟩
      have hsub (power : Power) : parting.Steady bound (expression .standard levels power)
          (expression .standard levels' power) :=
        .of_strides fun fewer hfewer => ih (hlevels.inner hfewer) power
      refine .kind_bind fun kind => ?_
      split
      · exact .unexpected
      · next form hform =>
          have hkind : kind ≠ .endOfInput := by
            rintro rfl
            cases hform
          refine (opening_strides hsub hkind form).bind fun left => .remaining_bind
            fun fewer rounds rounds' hfewer hrounds hrounds' => ?_
          exact continued_steady (fun power => (hsub power).mono hfewer) hrounds hrounds' power left

/-! ## Statements -/

section

variable {expr expr' : Parse Expr} {body body' : Parse Block}
variable (hexpr : parting.Steady bound expr expr') (hbody : parting.Steady bound body body')

private theorem identifier_strides (message : String) :
    parting.Strides bound (identifier message) (identifier message) :=
  (Strides.expectHere (by decide)).bind fun _ => .pure _

include hexpr

private theorem condition_steady : parting.Steady bound (condition expr) (condition expr') :=
  (Steady.expect (by decide)).bind fun _ => hexpr.bind fun _ =>
    (Steady.expect (by decide)).bind fun _ => .previousEnd_bind fun _ => .pure _

private theorem initialValue_steady :
    parting.Steady bound (initialValue expr) (initialValue expr') := by
  refine .kind_bind fun kind => ?_
  split
  · next hkind =>
      refine .of_strides fun fewer hfewer => (StridesOn.advance (by simp [hkind])).bind fun _ => ?_
      exact (hexpr.mono (Nat.le_of_lt hfewer)).bind fun _ => .pure _
  · exact Steady.pure _ kind

include hbody

omit hexpr in
private theorem elseBody_steady : parting.Steady bound (elseBody body) (elseBody body') := by
  refine .kind_bind fun kind => ?_
  split
  · next hkind =>
      refine .of_strides fun fewer hfewer => (StridesOn.advance (by simp [hkind])).bind fun _ => ?_
      exact (hbody.mono (Nat.le_of_lt hfewer)).bind fun _ => .pure _
  · exact Steady.pure _ kind

theorem statementForm_strides (hkind : kind ≠ .endOfInput) (form : StatementForm) :
    parting.StridesOn kind bound (statementForm expr body form)
      (statementForm expr' body' form) := by
  have hadvance : parting.StridesOn kind bound advance advance := .advance hkind
  cases form with
  | declare =>
      exact hadvance.bind fun _ => (Steady.of_strides fun _ _ => identifier_strides _).bind fun _ =>
        (Steady.expect (by decide)).bind fun _ => (Steady.expectHere (by decide)).bind fun _ =>
          (initialValue_steady hexpr).bind fun _ => (Steady.expect (by decide)).bind fun _ =>
            .previousEnd_bind fun _ => .pure _
  | assign =>
      exact (identifier_strides _ kind).bind fun _ => (Steady.expectHere (by decide)).bind fun _ =>
        hexpr.bind fun _ => (Steady.expect (by decide)).bind fun _ =>
          .previousEnd_bind fun _ => .pure _
  | branch =>
      exact hadvance.bind fun _ => (condition_steady hexpr).bind fun _ => hbody.bind fun _ =>
        (elseBody_steady hbody).bind fun _ => .previousEnd_bind fun _ => .pure _
  | loop =>
      exact hadvance.bind fun _ => (condition_steady hexpr).bind fun _ => hbody.bind fun _ =>
        .previousEnd_bind fun _ => .pure _
  | doLoop =>
      exact hadvance.bind fun _ => hbody.bind fun _ => (Steady.expectHere (by decide)).bind fun _ =>
        (condition_steady hexpr).bind fun _ => (Steady.expect (by decide)).bind fun _ =>
          .previousEnd_bind fun _ => .pure _

private theorem statementWith_strides :
    parting.Strides bound (statementWith .standard expr body)
      (statementWith .standard expr' body') := by
  refine .kind_bind fun kind => ?_
  split
  · exact .unexpectedHere
  · next form hform =>
      refine statementForm_strides hexpr hbody ?_ form
      rintro rfl
      cases hform

end

private theorem blockWith_strides {body body' : Parse (List Stmt)}
    (hbody : parting.Steady bound body body') :
    parting.Strides bound (blockWith body) (blockWith body') :=
  (Strides.expect (by decide)).bind fun _ => hbody.bind fun _ =>
    (Steady.expect (by decide)).bind fun _ => .previousEnd_bind fun _ => .pure _

theorem block_strides {levels levels' : Nat} (hlevels : LevelsAgree bound levels levels') :
    parting.Strides bound (block .standard levels) (block .standard levels') := by
  induction levels generalizing levels' bound with
  | zero =>
      cases hlevels.eq_zero
      exact blockWith_strides .unexpectedHere
  | succ levels ih =>
      rcases hlevels.eq_succ with ⟨levels', rfl⟩
      have hexpr : parting.Steady bound (expression .standard levels .lowest)
          (expression .standard levels' .lowest) :=
        .of_strides fun fewer hfewer => expression_strides (hlevels.inner hfewer) .lowest
      have hbody : parting.Steady bound (block .standard levels) (block .standard levels') :=
        .of_strides fun fewer hfewer => ih (hlevels.inner hfewer)
      refine blockWith_strides (.remaining_bind
        fun fewer rounds rounds' hfewer hrounds hrounds' => ?_)
      exact statementsUntil_steady _ (fun least hleast =>
        statementWith_strides (hexpr.mono (by omega : least ≤ bound)) (hbody.mono (by omega)))
        hrounds hrounds'

theorem statement_strides (levels : Nat) :
    parting.Strides bound (statement .standard levels) (statement .standard levels) :=
  statementWith_strides (.of_strides fun _ _ => expression_strides (.inl rfl) .lowest)
    (.of_strides fun _ _ => block_strides (.inl rfl))

theorem program_steady (file : String) :
    parting.Steady bound (program .standard file) (program .standard file) := by
  refine .remaining_bind fun fewer rounds rounds' hfewer hrounds hrounds' => ?_
  refine (statementsUntil_steady [.endOfInput] (fun _ _ => statement_strides nestingLimit) hrounds
    hrounds').bind fun body kind count cursor twin _ hbeside _ => ?_
  have hposition : cursor.position = twin.position := by
    rw [Cursor.position, Cursor.position, hbeside.current_eq]
  change parting.EndsAlike (count + 1) (.ok (Block.mk body ⟨⟨0, file⟩, cursor.position⟩) cursor)
    (.ok (Block.mk body ⟨⟨0, file⟩, twin.position⟩) twin)
  rw [hposition]
  exact .ok (Nat.lt_succ_self count) hbeside

end Parse

end Assay

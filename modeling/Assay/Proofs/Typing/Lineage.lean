import Mathlib.Data.Set.Card
import Assay.Typing.Snapshots

/-!
# Snapshots and their lineage

What a scope binds is decided by the history of all steps.  Steps on a scope itself belong
to its lineage, and so do the steps on the scope it was taken from, up to the moment at
which it was taken, and so on to the first scope.  A scope binds a name as the earliest
declaration on its lineage has it, however steps on other scopes lie between.
-/

namespace Assay

namespace Scope

private theorem isSome_get?_iff (scope : Scope) (name : String) :
    (scope.get? name).isSome ↔ name ∈ scope.bindings.map Prod.fst := by
  rw [Option.isSome_iff_ne_none, get?, ne_eq, List.lookup_eq_none_iff]
  simp

private theorem size_eq_ncard (scope : Scope) :
    scope.size = {name | (scope.get? name).isSome}.ncard := by
  have hnames : {name | (scope.get? name).isSome} =
      ((scope.bindings.map Prod.fst).toFinset : Set String) := by
    ext name
    simp [isSome_get?_iff]
  rw [hnames, Set.ncard_coe_finset, List.toFinset_card_of_nodup scope.distinct, List.length_map,
    size]

end Scope

namespace Snapshots

/-! ## What a step does -/

structure Event where
  index : Nat
  action : Action
  answer : Except Diagnostic Answer

def Event.Binds (event : Event) (name : String) (ty : Ty) : Prop :=
  ∃ position, event.action = .declare name ty position ∧ event.answer = .ok .done

def Event.Takes (event : Event) (place : Nat) : Prop :=
  event.action = .child ∧ event.answer = .ok (.place place)

structure Event.Idle (event : Event) : Prop where
  binds : ∀ name ty, ¬ event.Binds name ty
  takes : ∀ place, ¬ event.Takes place

inductive Run : List Event → Snapshots → Prop where
  | start : Run [] initial
  | step {history : List Event} {snapshots after : Snapshots} {index : Nat} {action : Action}
      {answer : Except Diagnostic Answer} (hrun : Run history snapshots)
      (hstep : snapshots.perform? index action = some (answer, after)) :
      Run (history ++ [⟨index, action, answer⟩]) after

/-- What a step on a scope comes to: a name that was not bound is bound in this scope, or a
copy of the scope is added to the others, or nothing changes. -/
inductive Outcome (snapshots : Snapshots) (index : Nat) (scope : Scope) :
    Event → Snapshots → Prop where
  | declared {name : String} {ty : Ty} {position : Position} (fresh : scope.get? name = none) :
      Outcome snapshots index scope ⟨index, .declare name ty position, .ok .done⟩
        (snapshots.set index (scope.insert name ty fresh))
  | taken :
      Outcome snapshots index scope ⟨index, .child, .ok (.place snapshots.scopes.length)⟩
        ⟨snapshots.scopes ++ [scope]⟩
  | idle {action : Action} {answer : Except Diagnostic Answer}
      (hidle : Event.Idle ⟨index, action, answer⟩) :
      Outcome snapshots index scope ⟨index, action, answer⟩ snapshots

private theorem outcome_performOn (snapshots : Snapshots) (index : Nat) (scope : Scope)
    (action : Action) :
    Outcome snapshots index scope ⟨index, action, (snapshots.performOn index scope action).1⟩
      (snapshots.performOn index scope action).2 := by
  cases action with
  | declare name ty position =>
      cases hname : scope.get? name with
      | none =>
          simp only [performOn, Scope.declare_of_none hname]
          exact .declared hname
      | some bound =>
          simp only [performOn, Scope.declare_of_some hname]
          apply Outcome.idle
          constructor <;> simp [Event.Binds, Event.Takes]
  | child => exact .taken
  | get | lookup | assign =>
      apply Outcome.idle
      constructor <;> simp [Event.Binds, Event.Takes]

private theorem outcome_of_perform? {snapshots after : Snapshots} {index : Nat} {action : Action}
    {answer : Except Diagnostic Answer}
    (h : snapshots.perform? index action = some (answer, after)) :
    ∃ scope, snapshots.scopes[index]? = some scope ∧
      Outcome snapshots index scope ⟨index, action, answer⟩ after := by
  rcases Option.map_eq_some_iff.mp h with ⟨scope, hscope, hperform⟩
  have houtcome := outcome_performOn snapshots index scope action
  rw [hperform] at houtcome
  exact ⟨scope, hscope, houtcome⟩

/-! ## Lineage -/

/-- The event with number `step` is on the lineage of a scope as it stands at `time`, after
as many events. -/
inductive OnLineage (history : List Event) : (time index step : Nat) → Prop where
  | own {time step : Nat} {event : Event} (hevent : history[step]? = some event)
      (htime : step < time) : OnLineage history time event.index step
  | inherited {time index step taken : Nat} {event : Event}
      (hevent : history[taken]? = some event) (htakes : event.Takes index) (htime : taken < time)
      (hstep : OnLineage history taken event.index step) :
      OnLineage history time index step

private theorem onLineage_append {history more : List Event} {time index step : Nat}
    (htime : time ≤ history.length) :
    OnLineage (history ++ more) time index step ↔ OnLineage history time index step := by
  constructor
  · intro h
    induction h with
    | own hevent hstep =>
        rw [List.getElem?_append_left (by omega)] at hevent
        exact .own hevent hstep
    | inherited hevent htakes htaken _ ih =>
        rw [List.getElem?_append_left (by omega)] at hevent
        exact .inherited hevent htakes htaken (ih (by omega))
  · intro h
    induction h with
    | own hevent hstep =>
        refine .own ?_ hstep
        rw [List.getElem?_append_left (by omega), hevent]
    | inherited hevent htakes htaken _ ih =>
        refine .inherited ?_ htakes htaken (ih (by omega))
        rw [List.getElem?_append_left (by omega), hevent]

theorem OnLineage.lt {history : List Event} {time index step : Nat}
    (h : OnLineage history time index step) : step < time := by
  induction h with
  | own _ hstep => exact hstep
  | inherited _ _ htaken _ ih => omega

private theorem onLineage_mono {history : List Event} {time later index step : Nat}
    (hlater : time ≤ later)
    (h : OnLineage history time index step) : OnLineage history later index step := by
  cases h with
  | own hevent hstep => exact .own hevent (by omega)
  | inherited hevent htakes htaken hstep => exact .inherited hevent htakes (by omega) hstep

/-- What one more event adds to the lineage of a scope: itself if it was taken on the scope,
the lineage of the scope it was taken on if it made this one. -/
theorem onLineage_concat {history : List Event} {event : Event} {index step : Nat} :
    OnLineage (history ++ [event]) (history.length + 1) index step ↔
      OnLineage history history.length index step ∨
        (event.index = index ∧ step = history.length) ∨
        (event.Takes index ∧ OnLineage history history.length event.index step) := by
  constructor
  · intro h
    cases h with
    | @own _ _ other hevent hstep =>
        by_cases hlast : step = history.length
        · subst hlast
          rw [List.getElem?_concat_length, Option.some.injEq] at hevent
          subst hevent
          exact .inr (.inl ⟨rfl, rfl⟩)
        · rw [List.getElem?_append_left (by omega)] at hevent
          exact .inl (.own hevent (by omega))
    | @inherited _ _ _ taken other hevent htakes htaken hstep =>
        rw [onLineage_append (by omega)] at hstep
        by_cases hlast : taken = history.length
        · subst hlast
          rw [List.getElem?_concat_length, Option.some.injEq] at hevent
          subst hevent
          exact .inr (.inr ⟨htakes, hstep⟩)
        · rw [List.getElem?_append_left (by omega)] at hevent
          exact .inl (.inherited hevent htakes (by omega) hstep)
  · rintro (h | ⟨rfl, rfl⟩ | ⟨htakes, h⟩)
    · exact onLineage_mono (by omega) ((onLineage_append le_rfl).mpr h)
    · exact .own List.getElem?_concat_length (by omega)
    · exact .inherited List.getElem?_concat_length htakes (by omega)
        ((onLineage_append le_rfl).mpr h)

/-! ## Declarations on a lineage -/

def DeclaredAt (history : List Event) (index step : Nat) (name : String) (ty : Ty) : Prop :=
  OnLineage history history.length index step ∧
    ∃ event, history[step]? = some event ∧ event.Binds name ty

/-- The earliest declaration of the name on the lineage of the scope has the type. -/
def FirstDeclared (history : List Event) (index : Nat) (name : String) (ty : Ty) : Prop :=
  ∃ step, DeclaredAt history index step name ty ∧
    ∀ earlier < step, ∀ other, ¬ DeclaredAt history index earlier name other

private theorem declaredAt_concat {history : List Event} {event : Event} {index step : Nat}
    {name : String} {ty : Ty} :
    DeclaredAt (history ++ [event]) index step name ty ↔
      DeclaredAt history index step name ty ∨
        (event.index = index ∧ step = history.length ∧ event.Binds name ty) ∨
        (event.Takes index ∧ DeclaredAt history event.index step name ty) := by
  have hpast {scope : Nat} (h : OnLineage history history.length scope step) :
      (history ++ [event])[step]? = history[step]? := List.getElem?_append_left h.lt
  simp only [DeclaredAt, List.length_append, List.length_singleton, onLineage_concat]
  constructor
  · rintro ⟨h | ⟨hindex, rfl⟩ | ⟨htakes, h⟩, found, hfound, hbinds⟩
    · rw [hpast h] at hfound
      exact .inl ⟨h, found, hfound, hbinds⟩
    · rw [List.getElem?_concat_length, Option.some.injEq] at hfound
      subst hfound
      exact .inr (.inl ⟨hindex, rfl, hbinds⟩)
    · rw [hpast h] at hfound
      exact .inr (.inr ⟨htakes, h, found, hfound, hbinds⟩)
  · rintro (⟨h, found⟩ | ⟨hindex, rfl, hbinds⟩ | ⟨htakes, h, found⟩)
    · rw [hpast h]
      exact ⟨.inl h, found⟩
    · exact ⟨.inr (.inl ⟨hindex, rfl⟩), event, List.getElem?_concat_length, hbinds⟩
    · rw [hpast h]
      exact ⟨.inr (.inr ⟨htakes, h⟩), found⟩

private theorem firstDeclared_congr {history history' : List Event} {index index' : Nat}
    {name : String} {ty : Ty}
    (h : ∀ step other, DeclaredAt history index step name other ↔
      DeclaredAt history' index' step name other) :
    FirstDeclared history index name ty ↔ FirstDeclared history' index' name ty := by
  simp only [FirstDeclared, h]

theorem DeclaredAt.exists_first {history : List Event} {index step : Nat} {name : String} {ty : Ty}
    (h : DeclaredAt history index step name ty) :
    ∃ first, FirstDeclared history index name first := by
  classical
  have hexists : ∃ step first, DeclaredAt history index step name first := ⟨step, ty, h⟩
  rcases Nat.find_spec hexists with ⟨first, hfirst⟩
  refine ⟨first, Nat.find hexists, hfirst, ?_⟩
  intro earlier hearlier other hother
  exact Nat.find_min hexists hearlier ⟨other, hother⟩

private theorem firstDeclared_concat_of_none {history : List Event} {event : Event} {name : String}
    {ty other : Ty} (hbinds : event.Binds name ty)
    (hnone : ∀ step first, ¬ DeclaredAt history event.index step name first) :
    FirstDeclared (history ++ [event]) event.index name other ↔ other = ty := by
  have htakes : ¬ event.Takes event.index := by
    rintro ⟨hchild, -⟩
    rcases hbinds with ⟨position, hdeclare, -⟩
    simp [hdeclare] at hchild
  have hdeclared (step : Nat) (found : Ty) :
      DeclaredAt (history ++ [event]) event.index step name found ↔
        step = history.length ∧ event.Binds name found := by
    simp [declaredAt_concat, hnone, htakes]
  have hunique : event.Binds name other ↔ other = ty := by
    rcases hbinds with ⟨position, hdeclare, hanswer⟩
    simp [Event.Binds, hdeclare, hanswer, eq_comm]
  simp only [FirstDeclared, hdeclared, hunique]
  constructor
  · rintro ⟨step, ⟨-, hother⟩, -⟩
    exact hother
  · rintro hother
    exact ⟨history.length, ⟨rfl, hother⟩, fun earlier hearlier _ h => by omega⟩

/-! ## Runs -/

/-- The scopes are what their lineages say. -/
structure Traced (history : List Event) (snapshots : Snapshots) : Prop where
  inside : ∀ {index step : Nat}, OnLineage history history.length index step →
    index < snapshots.scopes.length
  bound : ∀ {index : Nat} {scope : Scope}, snapshots.scopes[index]? = some scope →
    ∀ name ty, scope.get? name = some ty ↔ FirstDeclared history index name ty

theorem Traced.get?_eq_none_iff {history : List Event} {snapshots : Snapshots}
    (h : Traced history snapshots) {index : Nat} {scope : Scope}
    (hscope : snapshots.scopes[index]? = some scope) {name : String} :
    scope.get? name = none ↔ ∀ step ty, ¬ DeclaredAt history index step name ty := by
  rw [Option.eq_none_iff_forall_ne_some]
  constructor
  · intro hnone step ty hdeclared
    rcases hdeclared.exists_first with ⟨first, hfirst⟩
    exact hnone first ((h.bound hscope name first).mpr hfirst)
  · rintro hnone ty hty
    rcases (h.bound hscope name ty).mp hty with ⟨step, hdeclared, -⟩
    exact hnone step ty hdeclared

private theorem traced_initial : Traced [] initial where
  inside h := by
    have := h.lt
    simp at this
  bound := by
    intro index scope hscope name ty
    have hempty : scope = .empty := by
      rcases List.mem_of_getElem? hscope with _ | ⟨_, h⟩
      · rfl
      · cases h
    simp [hempty, FirstDeclared, DeclaredAt]

section

variable {history : List Event} {snapshots : Snapshots} {index : Nat} {scope : Scope}

theorem Traced.inside_concat {event : Event} {count : Nat} (h : Traced history snapshots)
    (hcount : snapshots.scopes.length ≤ count) (hindex : event.index < count)
    (htakes : ∀ place, event.Takes place → place < count) {other step : Nat}
    (hlineage : OnLineage (history ++ [event]) (history ++ [event]).length other step) :
    other < count := by
  rw [List.length_append, List.length_singleton, onLineage_concat] at hlineage
  rcases hlineage with hold | ⟨rfl, -⟩ | ⟨hplace, -⟩
  · have := h.inside hold
    omega
  · exact hindex
  · exact htakes other hplace

theorem Traced.declared {name : String} {ty : Ty} (position : Position)
    (h : Traced history snapshots) (hscope : snapshots.scopes[index]? = some scope)
    (fresh : scope.get? name = none) :
    Traced (history ++ [⟨index, .declare name ty position, .ok .done⟩])
      (snapshots.set index (scope.insert name ty fresh)) where
  inside := by
    apply h.inside_concat
    · simp [set]
    · simpa [set] using (List.getElem?_eq_some_iff.mp hscope).1
    · simp [Event.Takes]
  bound := by
    intro other found hfound looked type
    by_cases hsame : other = index
    · subst hsame
      obtain rfl : scope.insert name ty fresh = found := by
        simpa [set, List.getElem?_set_self (List.getElem?_eq_some_iff.mp hscope).1] using hfound
      rw [Scope.get?_insert]
      by_cases hlooked : looked = name
      · subst hlooked
        rw [if_pos rfl, firstDeclared_concat_of_none ⟨position, rfl, rfl⟩
          ((h.get?_eq_none_iff hscope).mp fresh), Option.some.injEq, eq_comm]
      · rw [if_neg hlooked, h.bound hscope]
        apply firstDeclared_congr
        intro step other
        simp [declaredAt_concat, Event.Binds, Event.Takes, Ne.symm hlooked]
    · have hold : snapshots.scopes[other]? = some found := by
        simpa [set, List.getElem?_set_ne (Ne.symm hsame)] using hfound
      rw [h.bound hold]
      apply firstDeclared_congr
      intro step type
      simp [declaredAt_concat, Event.Takes, Ne.symm hsame]

theorem Traced.taken (h : Traced history snapshots)
    (hscope : snapshots.scopes[index]? = some scope) :
    Traced (history ++ [⟨index, .child, .ok (.place snapshots.scopes.length)⟩])
      ⟨snapshots.scopes ++ [scope]⟩ where
  inside := by
    have hindex := (List.getElem?_eq_some_iff.mp hscope).1
    apply h.inside_concat
    · simp
    · simp only [List.length_append]
      omega
    · simp [Event.Takes]
  bound := by
    intro other found hfound looked type
    by_cases hlast : other = snapshots.scopes.length
    · subst hlast
      -- No step was taken on a scope that did not exist, so the copy has no other lineage.
      have hnew (step : Nat) (type : Ty) :
          ¬ DeclaredAt history snapshots.scopes.length step looked type :=
        fun hdeclared => Nat.lt_irrefl _ (h.inside hdeclared.1)
      obtain rfl : scope = found := by simpa using hfound
      rw [h.bound hscope]
      apply firstDeclared_congr
      intro step type
      simp [declaredAt_concat, Event.Binds, Event.Takes, hnew]
    · have hold : snapshots.scopes[other]? = some found := by
        have hlt := (List.getElem?_eq_some_iff.mp hfound).1
        simp only [List.length_append, List.length_singleton] at hlt
        rwa [List.getElem?_append_left (by omega)] at hfound
      rw [h.bound hold]
      apply firstDeclared_congr
      intro step type
      simp [declaredAt_concat, Event.Binds, Event.Takes, Ne.symm hlast]

theorem Traced.idle {event : Event} (h : Traced history snapshots) (hidle : event.Idle)
    (hindex : event.index < snapshots.scopes.length) : Traced (history ++ [event]) snapshots where
  inside := by
    apply h.inside_concat le_rfl hindex
    intro place htakes
    exact absurd htakes (hidle.takes place)
  bound := by
    intro other found hfound looked type
    rw [h.bound hfound]
    apply firstDeclared_congr
    intro step type
    simp [declaredAt_concat, hidle.binds, hidle.takes]

theorem Traced.step {event : Event} {after : Snapshots} (h : Traced history snapshots)
    (hscope : snapshots.scopes[index]? = some scope)
    (houtcome : Outcome snapshots index scope event after) :
    Traced (history ++ [event]) after := by
  cases houtcome with
  | declared fresh => exact h.declared _ hscope fresh
  | taken => exact h.taken hscope
  | idle hidle => exact h.idle hidle (List.getElem?_eq_some_iff.mp hscope).1

end

theorem Run.traced {history : List Event} {snapshots : Snapshots} (h : Run history snapshots) :
    Traced history snapshots := by
  induction h with
  | start => exact traced_initial
  | step _ hstep ih =>
      rcases outcome_of_perform? hstep with ⟨scope, hscope, houtcome⟩
      exact ih.step hscope houtcome

/-! ## Answers and changes -/

private theorem declare_eq_done_iff {snapshots : Snapshots} {index : Nat} {scope : Scope}
    {name : String} {ty : Ty} {position : Position} :
    (snapshots.performOn index scope (.declare name ty position)).1 = .ok .done ↔
      scope.get? name = none := by
  cases hname : scope.get? name with
  | none => simp [performOn, Scope.declare_of_none hname]
  | some bound => simp [performOn, Scope.declare_of_some hname]

private theorem assign_eq_done_iff {snapshots : Snapshots} {index : Nat} {scope : Scope}
    {name : String} {ty? : Option Ty} {position : Position} :
    (snapshots.performOn index scope (.assign name ty? position)).1 = .ok .done ↔
      ∃ ty, ty? = some ty ∧ scope.get? name = some ty := by
  cases hname : scope.get? name with
  | none =>
      simp [performOn, Scope.assign, Scope.lookup_of_none hname, bind, Except.bind, Except.map]
  | some declared =>
      by_cases hsame : some declared = ty?
      · simp [performOn, Scope.assign, Scope.lookup_of_some hname, bind, Except.bind, Except.map,
          sameType, ← hsame]
      · have hother : ¬ ty? = some declared := fun h => hsame h.symm
        simp [performOn, Scope.assign, Scope.lookup_of_some hname, bind, Except.bind, Except.map,
          sameType, hsame, hother]

theorem Outcome.others {snapshots after : Snapshots} {index : Nat} {scope : Scope} {event : Event}
    (h : Outcome snapshots index scope event after) {other : Nat} (hother : other ≠ index)
    (hlength : other < snapshots.scopes.length) :
    after.scopes[other]? = snapshots.scopes[other]? := by
  cases h with
  | declared => simp [set, List.getElem?_set_ne (Ne.symm hother)]
  | taken => simp [List.getElem?_append_left hlength]
  | idle => rfl

theorem Outcome.changes {snapshots after : Snapshots} {index : Nat} {scope : Scope} {event : Event}
    (h : Outcome snapshots index scope event after) :
    after = snapshots ∨
      (∃ name ty fresh, event.Binds name ty ∧
        after = snapshots.set index (scope.insert name ty fresh)) ∨
      event.action = .child ∧ after = ⟨snapshots.scopes ++ [scope]⟩ := by
  cases h with
  | declared fresh => exact .inr (.inl ⟨_, _, fresh, ⟨_, rfl, rfl⟩, rfl⟩)
  | taken => exact .inr (.inr ⟨rfl, rfl⟩)
  | idle => exact .inl rfl

/-- After any history, a scope binds a name as the earliest declaration on its lineage has it,
and its size counts the names it binds.  A step on it succeeds according to what it binds, and
changes this scope by a declaration that succeeds, or adds a copy of it, or changes nothing. -/
theorem scope_of_run {history : List Event} {snapshots : Snapshots} (hrun : Run history snapshots)
    {index : Nat} {scope : Scope} (hscope : snapshots.scopes[index]? = some scope) :
    (∀ name ty, scope.get? name = some ty ↔ FirstDeclared history index name ty) ∧
      (∀ name, scope.get? name = none ↔ ∀ step ty, ¬ DeclaredAt history index step name ty) ∧
      scope.size = {name | (scope.get? name).isSome}.ncard ∧
      ∀ action, ∃ answer after, snapshots.perform? index action = some (answer, after) ∧
        (∀ name ty position, action = .declare name ty position →
          (answer = .ok .done ↔ scope.get? name = none)) ∧
        (∀ name ty? position, action = .assign name ty? position →
          (answer = .ok .done ↔ ∃ ty, ty? = some ty ∧ scope.get? name = some ty)) ∧
        (∀ other ≠ index, other < snapshots.scopes.length →
          after.scopes[other]? = snapshots.scopes[other]?) ∧
        (after = snapshots ∨
          (∃ name ty fresh, Event.Binds ⟨index, action, answer⟩ name ty ∧
            after = snapshots.set index (scope.insert name ty fresh)) ∨
          action = .child ∧ after = ⟨snapshots.scopes ++ [scope]⟩) := by
  have htraced := hrun.traced
  refine ⟨htraced.bound hscope, fun name => htraced.get?_eq_none_iff hscope,
    scope.size_eq_ncard, ?_⟩
  intro action
  have houtcome := outcome_performOn snapshots index scope action
  refine ⟨_, _, by rw [perform?, hscope, Option.map_some], ?_, ?_, ?_, houtcome.changes⟩
  · rintro name ty position rfl
    exact declare_eq_done_iff
  · rintro name ty? position rfl
    exact assign_eq_done_iff
  · intro other hother hlength
    exact houtcome.others hother hlength

/-- A name that is declared in a scope after a copy was taken can get another type in the
copy; a name declared before cannot. -/
theorem scope_of_run_copy :
    let outer : Scope := Scope.empty.insert "x" .int rfl
    let snapshots : Snapshots :=
      ⟨[outer.insert "y" .bool rfl, outer.insert "y" .list rfl]⟩
    let history : List Event :=
      [⟨0, .declare "x" .int .null, .ok .done⟩, ⟨0, .child, .ok (.place 1)⟩,
        ⟨0, .declare "y" .bool .null, .ok .done⟩,
        ⟨1, .declare "x" .float .null, .error ⟨.multipleDeclaration "x", .null⟩⟩,
        ⟨1, .declare "y" .list .null, .ok .done⟩]
    Run history snapshots ∧ FirstDeclared history 0 "y" .bool ∧
      FirstDeclared history 1 "y" .list ∧ FirstDeclared history 1 "x" .int := by
  intro outer snapshots history
  have hdeclared : Run (history.take 1) ⟨[outer]⟩ := .step .start rfl
  have htaken : Run (history.take 2) ⟨[outer, outer]⟩ := .step hdeclared rfl
  have hother : Run (history.take 3) ⟨[outer.insert "y" .bool rfl, outer]⟩ := .step htaken rfl
  have hrefused : Run (history.take 4) ⟨[outer.insert "y" .bool rfl, outer]⟩ := .step hother rfl
  have hrun : Run history snapshots := .step hrefused rfl
  have hfirst := scope_of_run hrun (show snapshots.scopes[0]? = some _ from rfl)
  have hcopy := scope_of_run hrun (show snapshots.scopes[1]? = some _ from rfl)
  exact ⟨hrun, (hfirst.1 "y" .bool).mp rfl, (hcopy.1 "y" .list).mp rfl, (hcopy.1 "x" .int).mp rfl⟩

end Snapshots

end Assay

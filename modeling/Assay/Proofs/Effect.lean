/-!
# Steps with effects

Parsing, inference and checking all are steps that change a state and end in a value or
in a fault.  `Ensures` says of one run of a step what holds in either case; what a step
ensures is put together from what its parts ensure.  `Together` does the same for two runs
side by side, which have to end in the same way, and `Mirrors` for two runs whose states are
related throughout.
-/

namespace Assay

section

variable {ε σ α β : Type} {start stop : σ} {step : EStateM ε σ α} {following : α → EStateM ε σ β}

theorem bind_eq_ok {result : β} :
    (step >>= following) start = .ok result stop ↔
      ∃ first middle, step start = .ok first middle ∧ following first middle = .ok result stop := by
  change EStateM.bind step following start = _ ↔ _
  unfold EStateM.bind
  constructor
  · intro h
    cases hstep : step start with
    | ok first middle => exact ⟨first, middle, rfl, by simpa only [hstep] using h⟩
    | error fault middle => simp [hstep] at h
  · rintro ⟨first, middle, hstep, hfollowing⟩
    rw [hstep]
    exact hfollowing

theorem bind_of_ok {first : α} (h : step start = .ok first stop) :
    (step >>= following) start = following first stop := by
  change EStateM.bind step following start = _
  unfold EStateM.bind
  rw [h]

theorem bind_of_error {fault : ε} (h : step start = .error fault stop) :
    (step >>= following) start = .error fault stop := by
  change EStateM.bind step following start = _
  unfold EStateM.bind
  rw [h]

/-- How a step ends that is run in the given state: with a value and a state that satisfy
one condition, or with a fault and a state that satisfy the other. -/
def Ensures (step : EStateM ε σ α) (start : σ) (success : α → σ → Prop)
    (failure : ε → σ → Prop) : Prop :=
  match step start with
  | .ok result stop => success result stop
  | .error fault stop => failure fault stop

namespace Ensures

variable {success success' : α → σ → Prop} {failure failure' : ε → σ → Prop}

theorem pure {result : α} (h : success result start) :
    Ensures (Pure.pure result : EStateM ε σ α) start success failure := h

theorem throw {fault : ε} (h : failure fault start) :
    Ensures (MonadExcept.throw fault : EStateM ε σ α) start success failure := h

theorem mono (h : Ensures step start success failure)
    (hsuccess : ∀ result stop, success result stop → success' result stop)
    (hfailure : ∀ fault stop, failure fault stop → failure' fault stop) :
    Ensures step start success' failure' := by
  unfold Ensures at h ⊢
  split at h
  · exact hsuccess _ _ h
  · exact hfailure _ _ h

theorem of_eq {other : EStateM ε σ α} {start' : σ} (heq : step start = other start')
    (h : Ensures other start' success failure) : Ensures step start success failure := by
  unfold Ensures at h ⊢
  rwa [heq]

theorem bind {goal : β → σ → Prop}
    (h : Ensures step start (fun first middle => Ensures (following first) middle goal failure)
      failure) :
    Ensures (step >>= following) start goal failure := by
  unfold Ensures at h ⊢
  change match EStateM.bind step following start with
    | .ok result stop => goal result stop
    | .error fault stop => failure fault stop
  unfold EStateM.bind
  cases hstep : step start with
  | ok first middle => simpa only [hstep] using h
  | error fault middle => simpa only [hstep] using h

theorem of_run (step : EStateM ε σ α) (start : σ) :
    Ensures step start (fun result stop => step start = .ok result stop)
      fun fault stop => step start = .error fault stop := by
  unfold Ensures
  split
  · assumption
  · assumption

/-- A sequence of steps, where the second needs to know how the first came to its end. -/
theorem bind_of_eq {goal : β → σ → Prop}
    (hok : ∀ first middle, step start = .ok first middle →
      Ensures (following first) middle goal failure)
    (herror : ∀ fault middle, step start = .error fault middle → failure fault middle) :
    Ensures (step >>= following) start goal failure := by
  apply bind
  unfold Ensures
  split
  · next first middle hstep => exact hok first middle hstep
  · next fault middle hstep => exact herror fault middle hstep

theorem of_ok {result : α} (h : Ensures step start success failure)
    (hstep : step start = .ok result stop) : success result stop := by
  simpa only [Ensures, hstep] using h

theorem of_error {fault : ε} (h : Ensures step start success failure)
    (hstep : step start = .error fault stop) : failure fault stop := by
  simpa only [Ensures, hstep] using h

end Ensures

/-- How two steps end that are run side by side: both with values and states that satisfy
one condition, or both with faults that satisfy the other. -/
def Together (step other : EStateM ε σ α) (start start' : σ)
    (success : α → σ → α → σ → Prop) (failure : ε → ε → Prop) : Prop :=
  match step start, other start' with
  | .ok result stop, .ok result' stop' => success result stop result' stop'
  | .error fault _, .error fault' _ => failure fault fault'
  | _, _ => False

namespace Together

variable {other : EStateM ε σ α} {following' : α → EStateM ε σ β} {start' stop' : σ}
variable {success success' : α → σ → α → σ → Prop} {failure : ε → ε → Prop}

theorem pure {result result' : α} (h : success result start result' start') :
    Together (Pure.pure result) (Pure.pure result') start start' success failure := h

theorem throw {fault fault' : ε} (h : failure fault fault') :
    Together (MonadExcept.throw fault) (MonadExcept.throw fault') start start' success
      failure := h

theorem mono (h : Together step other start start' success failure)
    (hsuccess : ∀ result stop result' stop',
      success result stop result' stop' → success' result stop result' stop') :
    Together step other start start' success' failure := by
  unfold Together at h ⊢
  split at h
  · exact hsuccess _ _ _ _ h
  · exact h
  · exact h.elim

theorem bind {goal : β → σ → β → σ → Prop}
    (h : Together step other start start'
      (fun first middle first' middle' =>
        Together (following first) (following' first') middle middle' goal failure) failure) :
    Together (step >>= following) (other >>= following') start start' goal failure := by
  change match EStateM.bind step following start, EStateM.bind other following' start' with
    | .ok result stop, .ok result' stop' => goal result stop result' stop'
    | .error fault _, .error fault' _ => failure fault fault'
    | _, _ => False
  unfold EStateM.bind
  unfold Together at h
  split at h
  · next hstep hother =>
      rw [hstep, hother]
      exact h
  · next hstep hother =>
      rw [hstep, hother]
      exact h
  · exact h.elim

theorem cases (h : Together step other start start' success failure) :
    (∃ result stop result' stop', step start = .ok result stop ∧
        other start' = .ok result' stop' ∧ success result stop result' stop') ∨
      ∃ fault stop fault' stop', step start = .error fault stop ∧
        other start' = .error fault' stop' ∧ failure fault fault' := by
  unfold Together at h
  split at h
  · next hstep hother => exact .inl ⟨_, _, _, _, hstep, hother, h⟩
  · next hstep hother => exact .inr ⟨_, _, _, _, hstep, hother, h⟩
  · exact h.elim

end Together

/-- The ends of two steps: the same value, or faults that correspond, and related states. -/
inductive Mirrored (states : σ → σ → Prop) (faults : ε → ε) :
    EStateM.Result ε σ α → EStateM.Result ε σ α → Prop where
  | ok {result : α} {stop stop' : σ} (h : states stop stop') :
      Mirrored states faults (.ok result stop) (.ok result stop')
  | error {fault : ε} {stop stop' : σ} (h : states stop stop') :
      Mirrored states faults (.error fault stop) (.error (faults fault) stop')

def Mirrors (states : σ → σ → Prop) (faults : ε → ε) (step other : EStateM ε σ α) : Prop :=
  ∀ start start', states start start' → Mirrored states faults (step start) (other start')

namespace Mirrors

variable {states : σ → σ → Prop} {faults : ε → ε} {other : EStateM ε σ α}

theorem pure (result : α) :
    Mirrors states faults (Pure.pure result : EStateM ε σ α) (Pure.pure result) :=
  fun _ _ h => .ok h

theorem throw {fault fault' : ε} (hfault : fault' = faults fault) :
    Mirrors states faults (MonadExcept.throw fault : EStateM ε σ α)
      (MonadExcept.throw fault') := by
  subst hfault
  exact fun _ _ h => .error h

theorem bind {following following' : α → EStateM ε σ β} (hstep : Mirrors states faults step other)
    (hfollowing : ∀ first, Mirrors states faults (following first) (following' first)) :
    Mirrors states faults (step >>= following) (other >>= following') := by
  intro start start' hstart
  have hends := hstep start start' hstart
  change Mirrored states faults (EStateM.bind step following start)
    (EStateM.bind other following' start')
  unfold EStateM.bind
  generalize step start = first at hends
  generalize other start' = second at hends
  cases hends with
  | ok h => exact hfollowing _ _ _ h
  | error h => exact .error h

theorem map (hstep : Mirrors states faults step other) (f : α → β) :
    Mirrors states faults (f <$> step) (f <$> other) := by
  rw [map_eq_pure_bind, map_eq_pure_bind]
  exact hstep.bind fun _ => .pure _

theorem ite {condition : Prop} [Decidable condition] {fallback fallback' : EStateM ε σ α}
    (hstep : Mirrors states faults step other)
    (hfallback : Mirrors states faults fallback fallback') :
    Mirrors states faults (if condition then step else fallback)
      (if condition then other else fallback') := by
  split
  · exact hstep
  · exact hfallback

end Mirrors

end

end Assay

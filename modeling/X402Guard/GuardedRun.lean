/-
Runs of a deterministic transition function whose steps all meet a guard.  A
guard that always holds gives the ordinary runs; a property that only holds
when some bad step is never taken is a property of the guarded ones.
-/
import Mathlib.Data.List.Basic

namespace Interaction

universe u v

variable {σ : Type u} {ι : Type v}

/-- `Run step Allowed s t`: `t` is reached from `s` by steps that are all
allowed in the state they are taken in. -/
inductive Run (step : σ → ι → Option σ) (Allowed : σ → ι → Prop) :
    σ → σ → Prop
  | refl (s : σ) : Run step Allowed s s
  | snoc {s t t' : σ} {action : ι} (run : Run step Allowed s t)
      (allowed : Allowed t action) (taken : step t action = some t') :
      Run step Allowed s t'

/-- The guard that rules nothing out. -/
def always : σ → ι → Prop := fun _ _ => True

variable {step : σ → ι → Option σ} {Allowed Allowed' : σ → ι → Prop}

theorem Run.trans {s t t' : σ} (first : Run step Allowed s t)
    (second : Run step Allowed t t') : Run step Allowed s t' := by
  induction second with
  | refl => exact first
  | snoc _ allowed taken ih => exact .snoc ih allowed taken

theorem Run.mono (h : ∀ s action, Allowed s action → Allowed' s action)
    {s t : σ} (run : Run step Allowed s t) : Run step Allowed' s t := by
  induction run with
  | refl => exact .refl _
  | snoc _ allowed taken ih => exact .snoc ih (h _ _ allowed) taken

/-- What holds at the start and is kept by every allowed step holds
throughout. -/
theorem Run.invariant {I : σ → Prop} {s t : σ}
    (run : Run step Allowed s t) (hs : I s)
    (hstep : ∀ t action t', I t → Allowed t action →
      step t action = some t' → I t') : I t := by
  induction run with
  | refl => exact hs
  | snoc _ allowed taken ih => exact hstep _ _ _ ih allowed taken

/-- A step that was taken, and the states before and after it. -/
structure Taken (σ : Type u) (ι : Type v) where
  before : σ
  action : ι
  after : σ

/-- `Trail step s steps t`: `t` is reached from `s` by taking the steps. -/
inductive Trail (step : σ → ι → Option σ) : σ → List (Taken σ ι) → σ → Prop
  | nil (s : σ) : Trail step s [] s
  | snoc {s t t' : σ} {steps : List (Taken σ ι)} {action : ι}
      (trail : Trail step s steps t) (taken : step t action = some t') :
      Trail step s (steps ++ [⟨t, action, t'⟩]) t'

/-- What every possible step satisfies, every step of a trail satisfies. -/
theorem Trail.forall_taken {P : Taken σ ι → Prop} {s t : σ}
    {steps : List (Taken σ ι)} (trail : Trail step s steps t)
    (h : ∀ t action t', step t action = some t' → P ⟨t, action, t'⟩) :
    ∀ taken ∈ steps, P taken := by
  induction trail with
  | nil => simp
  | snoc trail taken ih =>
      intro step hstep
      rw [List.mem_append, List.mem_singleton] at hstep
      rcases hstep with hstep | rfl
      · exact ih step hstep
      · exact h _ _ _ taken

/-- Take a list of steps, each of which must be possible and pass `ok`. -/
def exec (step : σ → ι → Option σ) (ok : σ → ι → Bool) :
    σ → List ι → Option σ
  | s, [] => some s
  | s, action :: rest =>
      if ok s action then (step s action).bind fun t => exec step ok t rest
      else none

/-- A list of steps that can be taken is a run. -/
theorem run_of_exec {ok : σ → ι → Bool} {s t : σ} {actions : List ι}
    (h : exec step ok s actions = some t) :
    Run step (fun s action => ok s action = true) s t := by
  induction actions generalizing s with
  | nil =>
      cases h
      exact .refl _
  | cons action rest ih =>
      simp only [exec] at h
      split at h
      · rename_i hok
        obtain ⟨next, htaken, hrest⟩ := Option.bind_eq_some_iff.mp h
        exact Run.trans (.snoc (.refl _) hok htaken) (ih hrest)
      · cases h

/-- Take a list of steps and keep the trail. -/
def execTrail (step : σ → ι → Option σ) :
    σ → List ι → Option (List (Taken σ ι) × σ)
  | s, [] => some ([], s)
  | s, action :: rest =>
      (step s action).bind fun t =>
        (execTrail step t rest).map fun (steps, t') =>
          (⟨s, action, t⟩ :: steps, t')

theorem Trail.cons {s t t' : σ} {action : ι} {steps : List (Taken σ ι)}
    (taken : step s action = some t) (trail : Trail step t steps t') :
    Trail step s (⟨s, action, t⟩ :: steps) t' := by
  induction trail with
  | nil => exact .snoc (.nil s) taken
  | snoc _ taken' ih => exact .snoc ih taken'

theorem trail_of_execTrail {s t : σ} {actions : List ι}
    {steps : List (Taken σ ι)}
    (h : execTrail step s actions = some (steps, t)) :
    Trail step s steps t := by
  induction actions generalizing s steps with
  | nil =>
      cases h
      exact .nil _
  | cons action rest ih =>
      simp only [execTrail, Option.bind_eq_some_iff, Option.map_eq_some_iff,
        Prod.mk.injEq, Prod.exists] at h
      obtain ⟨next, htaken, tail, last, hrest, rfl, rfl⟩ := h
      exact (ih hrest).cons htaken

theorem execTrail_actions {s t : σ} {actions : List ι}
    {steps : List (Taken σ ι)}
    (h : execTrail step s actions = some (steps, t)) :
    steps.map Taken.action = actions := by
  induction actions generalizing s steps with
  | nil =>
      cases h
      rfl
  | cons action rest ih =>
      simp only [execTrail, Option.bind_eq_some_iff, Option.map_eq_some_iff,
        Prod.mk.injEq, Prod.exists] at h
      obtain ⟨next, _, tail, last, hrest, rfl, rfl⟩ := h
      rw [List.map_cons, ih hrest]

end Interaction

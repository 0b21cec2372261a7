/-
Two programs executed side by side, each alone over a state of its own, while
their operations come to the same outcomes.  A relation between the states is
carried from operation to operation.
-/
import X402Guard.SoloExecution

namespace Interaction

universe u

variable {Op : Type u} {Reply : Op → Type u} {ε α α' β β' : Type u}
variable {Shared Outcome External : Type u}

namespace Prog

/-- The execution whose operations come to the given outcomes, in turn. -/
def under (sem : Semantics Op Reply Shared Outcome External) :
    Prog Op Reply ε α → (ℕ → Outcome) → Shared → Except ε α × Shared
  | .ret value, _, s => (.ok value, s)
  | .throw error, _, s => (.error error, s)
  | .call op next, outcomes, s =>
      (next (sem.perform op (outcomes 0) s).1).under sem
        (fun n => outcomes (n + 1)) (sem.perform op (outcomes 0) s).2

/-- Whatever the operations come to, the program ends with the same result in
both states. -/
def SameOutcome (sem : Semantics Op Reply Shared Outcome External)
    (p : Prog Op Reply ε α) (s s' : Shared) : Prop :=
  ∀ outcomes, (p.under sem outcomes s).1 = (p.under sem outcomes s').1

/-- `Paired sem Q p p' s s'`: executed from `s` and `s'` under the same
outcomes, `p` and `p'` fail with the same error, or end with values and states
of `Q`. -/
def Paired (sem : Semantics Op Reply Shared Outcome External)
    (Q : α → α' → Shared → Shared → Prop) :
    Prog Op Reply ε α → Prog Op Reply ε α' → Shared → Shared → Prop
  | .ret value, .ret value', s, s' => Q value value' s s'
  | .throw error, .throw error', _, _ => error = error'
  | .call op next, .call op' next', s, s' => ∀ outcome,
      Paired sem Q (next (sem.perform op outcome s).1)
        (next' (sem.perform op' outcome s').1)
        (sem.perform op outcome s).2 (sem.perform op' outcome s').2
  | _, _, _, _ => False

variable {sem : Semantics Op Reply Shared Outcome External}
variable {p : Prog Op Reply ε α} {p' : Prog Op Reply ε α'} {s s' : Shared}
variable {Q : α → α' → Shared → Shared → Prop}

theorem under_const (outcome : Outcome) (p : Prog Op Reply ε α)
    (s : Shared) :
    p.under sem (fun _ => outcome) s = p.alone sem outcome s := by
  induction p generalizing s with
  | ret value => rfl
  | throw error => rfl
  | call op next ih => exact ih _ _

/-- Programs that end with equal values end alike. -/
theorem Paired.sameOutcome {p : Prog Op Reply ε α}
    (h : p.Paired sem (fun value value' _ _ => value = value') p s s') :
    p.SameOutcome sem s s' := by
  suffices hboth : ∀ p' : Prog Op Reply ε α,
      p.Paired sem (fun value value' _ _ => value = value') p' s s' →
      ∀ outcomes, (p.under sem outcomes s).1 = (p'.under sem outcomes s').1
    from hboth p h
  clear h
  induction p generalizing s s' with
  | ret value =>
      intro p' h outcomes
      cases p' with
      | ret value' => exact congrArg Except.ok h
      | _ => exact h.elim
  | throw error =>
      intro p' h outcomes
      cases p' with
      | throw error' => exact congrArg Except.error h
      | _ => exact h.elim
  | call op next ih =>
      intro p' h outcomes
      cases p' with
      | call op' next' => exact ih _ _ (h (outcomes 0)) _
      | _ => exact h.elim

theorem Paired.mono {Q' : α → α' → Shared → Shared → Prop}
    (h : p.Paired sem Q p' s s')
    (hmono : ∀ value value' t t', Q value value' t t' →
      Q' value value' t t') : p.Paired sem Q' p' s s' := by
  induction p generalizing p' s s' with
  | ret value =>
      cases p' with
      | ret value' => exact hmono _ _ _ _ h
      | _ => exact h.elim
  | throw error =>
      cases p' with
      | throw error' => exact h
      | _ => exact h.elim
  | call op next ih =>
      cases p' with
      | call op' next' => exact fun outcome => ih _ (h outcome)
      | _ => exact h.elim

/-- Sequences are paired where their parts are, one after the other. -/
theorem Paired.bind {f : α → Prog Op Reply ε β} {f' : α' → Prog Op Reply ε β'}
    {Q' : β → β' → Shared → Shared → Prop}
    (h : p.Paired sem Q p' s s')
    (hf : ∀ value value' t t', Q value value' t t' →
      (f value).Paired sem Q' (f' value') t t') :
    (p >>= f).Paired sem Q' (p' >>= f') s s' := by
  induction p generalizing p' s s' with
  | ret value =>
      cases p' with
      | ret value' => exact hf _ _ _ _ h
      | _ => exact h.elim
  | throw error =>
      cases p' with
      | throw error' => exact h
      | _ => exact h.elim
  | call op next ih =>
      cases p' with
      | call op' next' => exact fun outcome => ih _ (h outcome)
      | _ => exact h.elim

theorem paired_lift {value? : Except ε α} {Q : α → α → Shared → Shared → Prop}
    (h : ∀ value, value? = .ok value → Q value value s s') :
    (lift value? : Prog Op Reply ε α).Paired sem Q (lift value?) s s' := by
  cases value? with
  | error error => rfl
  | ok value => exact h value rfl

theorem Paired.mapError {ε' : Type u} {f : ε → ε'}
    (h : p.Paired sem Q p' s s') :
    (p.mapError f).Paired sem Q (p'.mapError f) s s' := by
  induction p generalizing p' s s' with
  | ret value =>
      cases p' with
      | ret value' => exact h
      | _ => exact h.elim
  | throw error =>
      cases p' with
      | throw error' => exact congrArg f h
      | _ => exact h.elim
  | call op next ih =>
      cases p' with
      | call op' next' => exact fun outcome => ih _ (h outcome)
      | _ => exact h.elim

/-- A program whose operations answer related states alike and keep them
related is paired with itself. -/
theorem paired_of_within {R : Shared → Shared → Prop} {S : Op → Prop}
    (hp : p.Within S) (hs : R s s')
    (hstep : ∀ op outcome s s', S op → R s s' →
      (sem.perform op outcome s).1 = (sem.perform op outcome s').1 ∧
        R (sem.perform op outcome s).2 (sem.perform op outcome s').2) :
    p.Paired sem (fun value value' t t' => value = value' ∧ R t t') p s s' := by
  induction p generalizing s s' with
  | ret value => exact ⟨rfl, hs⟩
  | throw error => rfl
  | call op next ih =>
      intro outcome
      obtain ⟨hreply, hnext⟩ := hstep op outcome s s' hp.1 hs
      rw [← hreply]
      exact ih _ (hp.2 _) hnext

/-- What one of the programs ensures is known of its end. -/
theorem Paired.and_ensures {E : Shared → Prop} {P : α → Shared → Prop}
    (h : p.Paired sem Q p' s s') (hp : p.Ensures sem E P s) :
    p.Paired sem (fun value value' t t' => Q value value' t t' ∧ P value t)
      p' s s' := by
  induction p generalizing p' s s' with
  | ret value =>
      cases p' with
      | ret value' => exact ⟨h, hp⟩
      | _ => exact h.elim
  | throw error =>
      cases p' with
      | throw error' => exact h
      | _ => exact h.elim
  | call op next ih =>
      cases p' with
      | call op' next' => exact fun outcome => ih _ (h outcome) (hp outcome)
      | _ => exact h.elim

/-- Facts about every execution that ends with a value. -/
theorem ensures_of_solo {P : α → Shared → Prop}
    (h : ∀ value t, p.Solo sem s (.ok value) t → P value t) :
    p.Ensures sem (fun _ => True) P s := by
  induction p generalizing s with
  | ret value => exact h value s (.ret value s)
  | throw error => trivial
  | call op next ih =>
      exact fun outcome => ih _ fun value t solo =>
        h value t (.call outcome solo)

end Prog

end Interaction

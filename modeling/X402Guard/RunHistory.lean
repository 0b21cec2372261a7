/-
What has happened so far in a run.  The steps of a trail can be cut anywhere,
and `Since` speaks of the last time something happened, and of what has not
happened after it.
-/
import Mathlib.Data.List.Induction
import X402Guard.GuardedRun

namespace Interaction

universe u v

section Trails

variable {σ : Type u} {ι : Type v} {step : σ → ι → Option σ}

theorem trail_snoc_iff {s t : σ} {steps : List (Taken σ ι)}
    {last : Taken σ ι} :
    Trail step s (steps ++ [last]) t ↔ Trail step s steps last.before ∧
      step last.before last.action = some last.after ∧ last.after = t := by
  constructor
  · intro trail
    generalize hsteps : steps ++ [last] = all at trail
    cases trail with
    | nil => simp at hsteps
    | snoc trail taken =>
        obtain ⟨rfl, hlast⟩ := List.append_inj' hsteps rfl
        cases hlast
        exact ⟨trail, taken, rfl⟩
  · rintro ⟨trail, taken, rfl⟩
    exact .snoc trail taken

/-- A step of a trail is taken from where the steps before it lead. -/
theorem Trail.cut {s t : σ} {earlier later : List (Taken σ ι)}
    {taken : Taken σ ι} (trail : Trail step s (earlier ++ taken :: later) t) :
    Trail step s earlier taken.before ∧
      step taken.before taken.action = some taken.after := by
  induction later using List.reverseRecOn generalizing t with
  | nil =>
      obtain ⟨hearlier, htaken, _⟩ := trail_snoc_iff.mp trail
      exact ⟨hearlier, htaken⟩
  | append_singleton later last ih =>
      rw [← List.cons_append, ← List.append_assoc, trail_snoc_iff] at trail
      exact ih trail.1

/-- Where every step so far has led to a good state, the trail ends in one. -/
theorem Trail.end_of_forall {I : σ → Prop} {s t : σ}
    {steps : List (Taken σ ι)} (trail : Trail step s steps t) (hs : I s)
    (h : ∀ taken ∈ steps, I taken.after) : I t := by
  cases trail with
  | nil => exact hs
  | snoc _ taken =>
      rw [List.forall_mem_append, List.forall_mem_singleton] at h
      exact h.2

/-- If what keeps `I` is that a step satisfies `C`, then a trail stays in `I`
exactly when all its steps satisfy `C`. -/
theorem Trail.states_iff {I : σ → Prop} {C : Taken σ ι → Prop} {s t : σ}
    {steps : List (Taken σ ι)} (trail : Trail step s steps t) (hs : I s)
    (hstep : ∀ t action t', I t → step t action = some t' →
      (I t' ↔ C ⟨t, action, t'⟩)) :
    (∀ taken ∈ steps, I taken.after) ↔ ∀ taken ∈ steps, C taken := by
  induction trail with
  | nil => simp
  | snoc trail taken ih =>
      rw [List.forall_mem_append, List.forall_mem_append, ← ih,
        List.forall_mem_singleton, List.forall_mem_singleton]
      apply and_congr_right
      intro hearlier
      exact hstep _ _ _ (trail.end_of_forall hs hearlier) taken

end Trails

variable {α : Type u} {P Q : α → Prop}

/-- `P` happened, and everything after it satisfies `Q`. -/
def Since (P Q : α → Prop) (steps : List α) : Prop :=
  ∃ earlier step later, steps = earlier ++ step :: later ∧ P step ∧
    ∀ other ∈ later, Q other

theorem since_snoc_iff {steps : List α} {last : α} :
    Since P Q (steps ++ [last]) ↔ P last ∨ Since P Q steps ∧ Q last := by
  constructor
  · rintro ⟨earlier, step, later, hsteps, hP, hQ⟩
    induction later using List.reverseRecOn with
    | nil =>
        obtain ⟨_, hlast⟩ := List.append_inj' hsteps rfl
        cases hlast
        exact Or.inl hP
    | append_singleton later other =>
        rw [← List.cons_append, ← List.append_assoc] at hsteps
        obtain ⟨rfl, hlast⟩ := List.append_inj' hsteps rfl
        cases hlast
        refine Or.inr ⟨⟨earlier, step, later, rfl, hP, ?_⟩, hQ _ (by simp)⟩
        intro other hother
        exact hQ other (by simp [hother])
  · rintro (hP | ⟨⟨earlier, step, later, rfl, hP, hQ⟩, hlast⟩)
    · exact ⟨steps, last, [], rfl, hP, by simp⟩
    · refine ⟨earlier, step, later ++ [last], by simp, hP, ?_⟩
      intro other hother
      rcases List.mem_append.mp hother with hold | hnew
      · exact hQ other hold
      · rwa [List.mem_singleton.mp hnew]

/-- What breaks `Q` happened before the last `P`. -/
theorem Since.after {earlier later : List α} {broken : α}
    (h : Since P Q (earlier ++ broken :: later)) (hP : ¬ P broken)
    (hQ : ¬ Q broken) : Since P Q later := by
  induction later using List.reverseRecOn with
  | nil =>
      rcases since_snoc_iff.mp h with hlast | ⟨_, hlast⟩
      · exact absurd hlast hP
      · exact absurd hlast hQ
  | append_singleton later last ih =>
      rw [← List.cons_append, ← List.append_assoc] at h
      rw [since_snoc_iff] at h ⊢
      rcases h with hlast | ⟨hsince, hlast⟩
      · exact Or.inl hlast
      · exact Or.inr ⟨ih hsince, hlast⟩

end Interaction

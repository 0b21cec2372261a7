/-
Pre- and postconditions for programs that remember their calls.  A program that
continues a trace obeys a rule if every operation it issues is one the rule
allows after the events so far, and it ends as the rule says.  The operations
of one program can be embedded in those of another, and its rule with them.
-/
import X402Guard.EffectProgram

namespace Interaction

universe u

variable {Op : Type u} {Reply : Op → Type u} {ε ε' α β : Type u}

namespace Prog

/-- After `trace` the program issues only operations that `S` allows, each after
the events before it, and where it ends `Q` holds of the events and of the
result. -/
def Obeys (S : List (Event Op Reply) → Op → Prop)
    (Q : List (Event Op Reply) → Except ε α → Prop) :
    List (Event Op Reply) → Prog Op Reply ε α → Prop
  | trace, .ret value => Q trace (.ok value)
  | trace, .throw error => Q trace (.error error)
  | trace, .call op next => S trace op ∧ ∀ reply order time,
      (next reply).Obeys S Q (trace ++ [⟨op, reply, order, time⟩])

variable {S T : List (Event Op Reply) → Op → Prop}
variable {Q R : List (Event Op Reply) → Except ε α → Prop}
variable {trace : List (Event Op Reply)}

/-- What is left of a program obeys the same rule after more events. -/
theorem Obeys.rest {p rest : Prog Op Reply ε α}
    {later : List (Event Op Reply)} (h : p.Obeys S Q trace)
    (hreach : p.Reaches later rest) : rest.Obeys S Q (trace ++ later) := by
  induction hreach generalizing trace with
  | refl => simpa using h
  | call reply order time _ ih =>
      have htail := ih (h.2 reply order time)
      rwa [List.append_assoc, List.singleton_append] at htail

theorem Obeys.mono {p : Prog Op Reply ε α} (h : p.Obeys S Q trace)
    (hS : ∀ t op, S t op → T t op)
    (hQ : ∀ t result, Q t result → R t result) : p.Obeys T R trace := by
  induction p generalizing trace with
  | ret value => exact hQ _ _ h
  | throw error => exact hQ _ _ h
  | call op next ih =>
      exact ⟨hS _ _ h.1,
        fun reply order time => ih reply (h.2 reply order time)⟩

theorem Obeys.bind {R : List (Event Op Reply) → Except ε β → Prop}
    {p : Prog Op Reply ε α} {f : α → Prog Op Reply ε β}
    (hp : p.Obeys S Q trace)
    (hf : ∀ t value, Q t (.ok value) → (f value).Obeys S R t)
    (herror : ∀ t error, Q t (.error error) → R t (.error error)) :
    (p >>= f).Obeys S R trace := by
  induction p generalizing trace with
  | ret value => exact hf _ _ hp
  | throw error => exact herror _ _ hp
  | call op next ih =>
      exact ⟨hp.1, fun reply order time => ih reply (hp.2 reply order time)⟩

theorem obeys_lift {result : Except ε α} (h : Q trace result) :
    (lift result : Prog Op Reply ε α).Obeys S Q trace := by
  cases result <;> exact h

theorem obeys_lift_bind {R : List (Event Op Reply) → Except ε β → Prop}
    {result : Except ε α} {f : α → Prog Op Reply ε β}
    (hf : ∀ value, result = .ok value → (f value).Obeys S R trace)
    (herror : ∀ error, result = .error error → R trace (.error error)) :
    (lift result >>= f).Obeys S R trace := by
  cases result with
  | error error => exact herror error rfl
  | ok value => exact hf value rfl

theorem obeys_perform_bind {R : List (Event Op Reply) → Except ε β → Prop}
    {op : Op} {f : Reply op → Prog Op Reply ε β} (hop : S trace op)
    (hf : ∀ reply order time,
      (f reply).Obeys S R (trace ++ [⟨op, reply, order, time⟩])) :
    (perform op >>= f).Obeys S R trace :=
  ⟨hop, hf⟩

/-- The result is not asked about. -/
theorem Obeys.map {f : α → β} {p : Prog Op Reply ε α}
    (h : p.Obeys S Q trace) : (f <$> p).Obeys S (fun _ _ => True) trace :=
  h.bind (fun _ _ _ => trivial) fun _ _ _ => trivial

theorem obeys_mapError {f : ε → ε'}
    {R : List (Event Op Reply) → Except ε' α → Prop} {p : Prog Op Reply ε α}
    (h : p.Obeys S (fun t result => R t (result.mapError f)) trace) :
    (p.mapError f).Obeys S R trace := by
  induction p generalizing trace with
  | ret value => exact h
  | throw error => exact h
  | call op next ih =>
      exact ⟨h.1, fun reply order time => ih reply (h.2 reply order time)⟩

theorem obeys_attempt
    {R : List (Event Op Reply) → Except ε' (Except ε α) → Prop}
    {p : Prog Op Reply ε α}
    (h : p.Obeys S (fun t result => R t (.ok result)) trace) :
    (p.attempt : Prog Op Reply ε' (Except ε α)).Obeys S R trace := by
  induction p generalizing trace with
  | ret value => exact h
  | throw error => exact h
  | call op next ih =>
      exact ⟨h.1, fun reply order time => ih reply (h.2 reply order time)⟩

/-- What more events do not undo goes on being known, and a rule may rest on
it. -/
theorem Obeys.keeping {K : List (Event Op Reply) → Prop}
    {p : Prog Op Reply ε α} (h : p.Obeys S Q trace)
    (hkeep : ∀ t event, K t → K (t ++ [event])) (hK : K trace)
    (hS : ∀ t op, K t → S t op → T t op)
    (hQ : ∀ t result, K t → Q t result → R t result) :
    p.Obeys T R trace := by
  induction p generalizing trace with
  | ret value => exact hQ _ _ hK h
  | throw error => exact hQ _ _ hK h
  | call op next ih =>
      exact ⟨hS _ _ hK h.1, fun reply order time =>
        ih reply (h.2 reply order time) (hkeep _ _ hK)⟩

/-- What is known of every way to end. -/
theorem obeys_of_reaches {p : Prog Op Reply ε α}
    (h : ∀ later result, p.Reaches later (lift result) →
      Q (trace ++ later) result) : p.Obeys (fun _ _ => True) Q trace := by
  induction p generalizing trace with
  | ret value =>
      have hended := h [] (.ok value) (.refl _)
      rwa [List.append_nil] at hended
  | throw error =>
      have hended := h [] (.error error) (.refl _)
      rwa [List.append_nil] at hended
  | call op next ih =>
      refine ⟨trivial, fun reply order time => ih reply ?_⟩
      intro later result hreach
      have hended := h _ result (.call reply order time hreach)
      rwa [← List.singleton_append, ← List.append_assoc] at hended

theorem Within.obeys {p : Prog Op Reply ε α}
    (hp : p.Within fun op => ∀ t, S t op) :
    p.Obeys S (fun _ _ => True) trace := by
  induction p generalizing trace with
  | ret value => trivial
  | throw error => trivial
  | call op next ih =>
      exact ⟨hp.1 _, fun reply order time => ih reply (hp.2 reply)⟩

end Prog

/-- Operations among those of a larger kind. -/
structure Embedding (Op : Type u) (Reply : Op → Type u) (Op' : Type u)
    (Reply' : Op' → Type u) where
  inject : Op → Op'
  reply : (op : Op) → Reply' (inject op) → Reply op
  /-- The event of an operation that was injected. -/
  project : Event Op' Reply' → Option (Event Op Reply)
  project_inject : ∀ op r order time,
    project ⟨inject op, r, order, time⟩ = some ⟨op, reply op r, order, time⟩

variable {Op' : Type u} {Reply' : Op' → Type u}

namespace Prog

/-- The program over the larger kind of operations. -/
def embed (e : Embedding Op Reply Op' Reply') :
    Prog Op Reply ε α → Prog Op' Reply' ε α
  | .ret value => .ret value
  | .throw error => .throw error
  | .call op next => .call (e.inject op) fun r => (next (e.reply op r)).embed e

/-- An embedded program obeys the rule of the program, of the events that are
its own kind. -/
theorem Obeys.embed {e : Embedding Op Reply Op' Reply'}
    {S : List (Event Op Reply) → Op → Prop}
    {Q : List (Event Op Reply) → Except ε α → Prop}
    {S' : List (Event Op' Reply') → Op' → Prop}
    {p : Prog Op Reply ε α} {trace : List (Event Op' Reply')}
    (h : p.Obeys S Q (trace.filterMap e.project))
    (hS : ∀ t op, S (t.filterMap e.project) op → S' t (e.inject op)) :
    (p.embed e).Obeys S' (fun t => Q (t.filterMap e.project)) trace := by
  induction p generalizing trace with
  | ret value => exact h
  | throw error => exact h
  | call op next ih =>
      refine ⟨hS _ _ h.1, fun r order time => ih _ ?_⟩
      rw [List.filterMap_append, List.filterMap_cons, e.project_inject,
        List.filterMap_nil]
      exact h.2 (e.reply op r) order time

end Prog

end Interaction

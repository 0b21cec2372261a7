/-
Programs executed alone: from the first call of a program to its end nothing
else touches the shared state.
-/
import X402Guard.InterleavedCalls

namespace Interaction

universe u

variable {Op : Type u} {Reply : Op → Type u} {ε α β : Type u}
variable {Request Shared Outcome External : Type u}

namespace Prog

/-- `p.Solo sem s result s'`: executed alone from `s`, whatever its operations
come to, `p` can end with `result` in `s'`. -/
inductive Solo (sem : Semantics Op Reply Shared Outcome External) :
    Prog Op Reply ε α → Shared → Except ε α → Shared → Prop
  | ret (value : α) (s : Shared) : Solo sem (.ret value) s (.ok value) s
  | throw (error : ε) (s : Shared) :
      Solo sem (.throw error) s (.error error) s
  | call {op : Op} {next : Reply op → Prog Op Reply ε α} {s s' : Shared}
      {result : Except ε α} (outcome : Outcome)
      (tail : Solo sem (next (sem.perform op outcome s).1)
        (sem.perform op outcome s).2 result s') :
      Solo sem (.call op next) s result s'

/-- The execution in which every operation has the same outcome. -/
def alone (sem : Semantics Op Reply Shared Outcome External)
    (outcome : Outcome) :
    Prog Op Reply ε α → Shared → Except ε α × Shared
  | .ret value, s => (.ok value, s)
  | .throw error, s => (.error error, s)
  | .call op next, s =>
      (next (sem.perform op outcome s).1).alone sem outcome
        (sem.perform op outcome s).2

variable {sem : Semantics Op Reply Shared Outcome External}
variable {p : Prog Op Reply ε α} {s s' : Shared}

theorem solo_alone (outcome : Outcome) (p : Prog Op Reply ε α) (s : Shared) :
    p.Solo sem s (p.alone sem outcome s).1 (p.alone sem outcome s).2 := by
  induction p generalizing s with
  | ret value => exact .ret value s
  | throw error => exact .throw error s
  | call op next ih => exact .call outcome (ih _ _)

theorem alone_bind (outcome : Outcome) (p : Prog Op Reply ε α)
    (f : α → Prog Op Reply ε β) (s : Shared) :
    (p >>= f).alone sem outcome s = match p.alone sem outcome s with
      | (.ok value, t) => (f value).alone sem outcome t
      | (.error error, t) => (.error error, t) := by
  induction p generalizing s with
  | ret value => rfl
  | throw error => rfl
  | call op next ih => exact ih _ _

theorem alone_bind_ok {outcome : Outcome} {p : Prog Op Reply ε α}
    {f : α → Prog Op Reply ε β} {s : Shared} {value : α}
    (h : (p.alone sem outcome s).1 = .ok value) :
    (p >>= f).alone sem outcome s =
      (f value).alone sem outcome (p.alone sem outcome s).2 := by
  rw [alone_bind]
  generalize p.alone sem outcome s = ended at h
  obtain ⟨result, t⟩ := ended
  cases h
  rfl

theorem alone_bind_error {outcome : Outcome} {p : Prog Op Reply ε α}
    {f : α → Prog Op Reply ε β} {s : Shared} {error : ε}
    (h : (p.alone sem outcome s).1 = .error error) :
    ((p >>= f).alone sem outcome s).1 = .error error := by
  rw [alone_bind]
  generalize p.alone sem outcome s = ended at h
  obtain ⟨result, t⟩ := ended
  cases h
  rfl

theorem alone_mapError {ε' : Type u} (f : ε → ε') (outcome : Outcome)
    (p : Prog Op Reply ε α) (s : Shared) :
    (p.mapError f).alone sem outcome s =
      ((p.alone sem outcome s).1.mapError f,
        (p.alone sem outcome s).2) := by
  induction p generalizing s with
  | ret value => rfl
  | throw error => rfl
  | call op next ih => exact ih _ _

theorem Fails.alone {P : ε → Prop} {p : Prog Op Reply ε α} {s : Shared}
    {outcome : Outcome} {error : ε} (hp : p.Fails P)
    (h : (p.alone sem outcome s).1 = .error error) : P error := by
  induction p generalizing s with
  | ret value => cases h
  | throw error' =>
      cases h
      exact hp
  | call op next ih => exact ih _ (hp _) h

@[simp] theorem solo_ret_iff {value : α} {result : Except ε α} :
    (Prog.ret value : Prog Op Reply ε α).Solo sem s result s' ↔
      result = .ok value ∧ s' = s := by
  constructor
  · intro h
    cases h
    exact ⟨rfl, rfl⟩
  · rintro ⟨rfl, rfl⟩
    exact .ret value _

@[simp] theorem solo_throw_iff {error : ε} {result : Except ε α} :
    (Prog.throw error : Prog Op Reply ε α).Solo sem s result s' ↔
      result = .error error ∧ s' = s := by
  constructor
  · intro h
    cases h
    exact ⟨rfl, rfl⟩
  · rintro ⟨rfl, rfl⟩
    exact .throw error _

theorem solo_call_iff {op : Op} {next : Reply op → Prog Op Reply ε α}
    {result : Except ε α} :
    (Prog.call op next).Solo sem s result s' ↔
      ∃ outcome, (next (sem.perform op outcome s).1).Solo sem
        (sem.perform op outcome s).2 result s' := by
  constructor
  · intro h
    cases h with
    | call outcome tail => exact ⟨outcome, tail⟩
  · rintro ⟨outcome, tail⟩
    exact .call outcome tail

@[simp] theorem solo_lift_iff {value? : Except ε α} {result : Except ε α} :
    (lift value? : Prog Op Reply ε α).Solo sem s result s' ↔
      value? = result ∧ s' = s := by
  cases value? <;> simp [lift, eq_comm]

@[simp] theorem solo_attempt_ok_iff {ε' : Type u} {result : Except ε α} :
    (p.attempt : Prog Op Reply ε' (Except ε α)).Solo sem s (.ok result) s' ↔
      p.Solo sem s result s' := by
  induction p generalizing s with
  | ret value => simp [attempt]
  | throw error => simp [attempt]
  | call op next ih => simp only [attempt, solo_call_iff, ih]

/-- A sequence ends where its first part fails, or where its second part ends
after the first. -/
theorem solo_bind_iff {f : α → Prog Op Reply ε β} {result : Except ε β} :
    (p >>= f).Solo sem s result s' ↔
      (∃ error, p.Solo sem s (.error error) s' ∧ result = .error error) ∨
        ∃ value t, p.Solo sem s (.ok value) t ∧
          (f value).Solo sem t result s' := by
  induction p generalizing s with
  | ret value => simp
  | throw error =>
      rw [throw_bind, solo_throw_iff]
      constructor
      · rintro ⟨rfl, rfl⟩
        exact Or.inl ⟨error, .throw error _, rfl⟩
      · rintro (⟨_, hp, rfl⟩ | ⟨_, _, hp, _⟩)
        · cases hp
          exact ⟨rfl, rfl⟩
        · cases hp
  | call op next ih =>
      simp only [call_bind, solo_call_iff, ih]
      constructor
      · rintro ⟨outcome, ⟨error, hp, rfl⟩ | ⟨value, t, hp, hf⟩⟩
        · exact Or.inl ⟨error, ⟨outcome, hp⟩, rfl⟩
        · exact Or.inr ⟨value, t, ⟨outcome, hp⟩, hf⟩
      · rintro (⟨error, ⟨outcome, hp⟩, rfl⟩ | ⟨value, t, ⟨outcome, hp⟩, hf⟩)
        · exact ⟨outcome, Or.inl ⟨error, hp, rfl⟩⟩
        · exact ⟨outcome, Or.inr ⟨value, t, hp, hf⟩⟩

theorem solo_bind_ok_iff {f : α → Prog Op Reply ε β} {value : β} :
    (p >>= f).Solo sem s (.ok value) s' ↔
      ∃ a t, p.Solo sem s (.ok a) t ∧ (f a).Solo sem t (.ok value) s' := by
  simp [solo_bind_iff]

@[simp] theorem solo_mapError_ok_iff {ε' : Type u} {f : ε → ε'}
    {value : α} :
    (p.mapError f).Solo sem s (.ok value) s' ↔ p.Solo sem s (.ok value) s' := by
  induction p generalizing s with
  | ret value' => simp [mapError]
  | throw error => simp [mapError]
  | call op next ih => simp only [mapError, solo_call_iff, ih]

/-- `p.Ensures sem E Q s`: executed alone from `s`, whatever its operations
come to, `p` ends with an error in a state of `E` or with a value and a state
of `Q`. -/
def Ensures (sem : Semantics Op Reply Shared Outcome External)
    (E : Shared → Prop) (Q : α → Shared → Prop) :
    Prog Op Reply ε α → Shared → Prop
  | .ret value, s => Q value s
  | .throw _, s => E s
  | .call op next, s => ∀ outcome,
      (next (sem.perform op outcome s).1).Ensures sem E Q
        (sem.perform op outcome s).2

variable {E : Shared → Prop} {Q : α → Shared → Prop}

theorem Ensures.value {value : α} (h : p.Ensures sem E Q s)
    (solo : p.Solo sem s (.ok value) s') : Q value s' := by
  generalize hresult : Except.ok value = result at solo
  induction solo with
  | ret value' s =>
      cases hresult
      exact h
  | throw => cases hresult
  | call outcome _ ih => exact ih (h outcome) hresult

theorem Ensures.error {error : ε} (h : p.Ensures sem E Q s)
    (solo : p.Solo sem s (.error error) s') : E s' := by
  generalize hresult : Except.error error = result at solo
  induction solo with
  | ret => cases hresult
  | throw => exact h
  | call outcome _ ih => exact ih (h outcome) hresult

theorem ensures_lift {value? : Except ε α} (hE : E s)
    (hQ : ∀ value, value? = .ok value → Q value s) :
    (lift value? : Prog Op Reply ε α).Ensures sem E Q s := by
  cases value? with
  | error error => exact hE
  | ok value => exact hQ value rfl

theorem ensures_bind_iff {f : α → Prog Op Reply ε β}
    {Q : β → Shared → Prop} :
    (p >>= f).Ensures sem E Q s ↔
      p.Ensures sem E (fun value => (f value).Ensures sem E Q) s := by
  induction p generalizing s with
  | ret value => rfl
  | throw error => rfl
  | call op next ih => exact forall_congr' fun outcome => ih _

theorem ensures_map_iff {f : α → β} {Q : β → Shared → Prop} :
    (f <$> p).Ensures sem E Q s ↔
      p.Ensures sem E (fun value => Q (f value)) s :=
  ensures_bind_iff

@[simp] theorem ensures_mapError_iff {ε' : Type u} {f : ε → ε'} :
    (p.mapError f).Ensures sem E Q s ↔ p.Ensures sem E Q s := by
  induction p generalizing s with
  | ret value => rfl
  | throw error => rfl
  | call op next ih => exact forall_congr' fun outcome => ih _

/-- What every operation of the program keeps, the program keeps. -/
theorem ensures_of_within {I : Shared → Prop} {S : Op → Prop}
    (hp : p.Within S) (hs : I s)
    (hkeep : ∀ op outcome s, S op → I s → I (sem.perform op outcome s).2) :
    p.Ensures sem I (fun _ => I) s := by
  induction p generalizing s with
  | ret value => exact hs
  | throw error => exact hs
  | call op next ih =>
      intro outcome
      exact ih _ (hp.2 _) (hkeep op outcome s hp.1 hs)

/-- Whatever it ends with. -/
theorem Ensures.state {I : Shared → Prop} {result : Except ε α}
    (h : p.Ensures sem I (fun _ => I) s) (solo : p.Solo sem s result s') :
    I s' := by
  cases result with
  | error error => exact h.error solo
  | ok value => exact h.value solo

end Prog

/-- The states reached by calls made one after the other, each of them allowed
in the state it is made in, while the outside world moves between them. -/
inductive Sequential (handle : Request → Prog Op Reply ε α)
    (sem : Semantics Op Reply Shared Outcome External)
    (Allowed : Shared → Request → Prop) : Shared → Shared → Prop
  | refl (s : Shared) : Sequential handle sem Allowed s s
  | external {s t : Shared} (event : External)
      (run : Sequential handle sem Allowed s t) :
      Sequential handle sem Allowed s (sem.external event t)
  | call {s t t' : Shared} {request : Request} {result : Except ε α}
      (run : Sequential handle sem Allowed s t) (allowed : Allowed t request)
      (solo : (handle request).Solo sem t result t') :
      Sequential handle sem Allowed s t'

variable {handle : Request → Prog Op Reply ε α}
variable {sem : Semantics Op Reply Shared Outcome External}
variable {Allowed : Shared → Request → Prop}

theorem Sequential.invariant {I : Shared → Prop} {s t : Shared}
    (run : Sequential handle sem Allowed s t) (hs : I s)
    (hexternal : ∀ event t, I t → I (sem.external event t))
    (hcall : ∀ t t' request result, I t → Allowed t request →
      (handle request).Solo sem t result t' → I t') : I t := by
  induction run with
  | refl => exact hs
  | external event _ ih => exact hexternal event _ ih
  | call _ allowed solo ih => exact hcall _ _ _ _ ih allowed solo

/-- A call that nothing interrupts runs to its end. -/
theorem World.exists_run_of_solo {w : World handle Shared} {index : Nat}
    {call : Call handle} {s' : Shared} {result : Except ε α}
    (hcall : w.calls[index]? = some call)
    (solo : call.rest.Solo sem w.shared result s') :
    ∃ w' call', Run (World.step sem) always w w' ∧ w'.shared = s' ∧
      w'.calls = w.calls.set index call' ∧ call'.request = call.request ∧
      call'.rest = Prog.lift result := by
  generalize hrest : call.rest = rest at solo
  generalize hshared : w.shared = s at solo
  induction solo generalizing w call with
  | ret value | throw error =>
      refine ⟨w, call, .refl w, hshared, ?_, rfl, hrest⟩
      obtain ⟨hlt, rfl⟩ := List.getElem?_eq_some_iff.mp hcall
      rw [List.set_getElem_self]
  | @call op _ _ _ _ outcome tail ih =>
      subst hshared
      have hlt := (List.getElem?_eq_some_iff.mp hcall).1
      have hresumed : (w.perform sem index call hrest outcome).calls[index]? =
          some (call.resume hrest (sem.perform op outcome w.shared).1 w.steps
            (sem.clock w.shared)) := by
        simp [World.perform, List.getElem?_set_self hlt]
      obtain ⟨w', call', run, hstate, hcalls, hrequest, hended⟩ :=
        ih hresumed rfl rfl
      refine ⟨w', call', Run.trans (.snoc (.refl w) trivial
        (World.step_perform hrest hcall outcome)) run, hstate, ?_, hrequest,
        hended⟩
      rw [hcalls, World.perform, List.set_set]

/-- A request can arrive and be served without interruption. -/
theorem World.exists_run_of_request {w : World handle Shared}
    {request : Request} {s' : Shared} {result : Except ε α}
    (solo : (handle request).Solo sem w.shared result s') :
    ∃ w' call, Run (World.step sem) always w w' ∧ w'.shared = s' ∧
      w'.calls = w.calls ++ [call] ∧ call.request = request ∧
      call.rest = Prog.lift result := by
  have harrived : (w.arrive request).calls[w.calls.length]? =
      some (Call.start handle request) := by
    simp [World.arrive]
  obtain ⟨w', call, run, hstate, hcalls, hrequest, hended⟩ :=
    World.exists_run_of_solo harrived solo
  have harrive : w.step sem (.arrive request) = some (w.arrive request) := rfl
  refine ⟨w', call, Run.trans (.snoc (.refl w) trivial harrive) run, hstate, ?_,
    hrequest, hended⟩
  rw [hcalls, World.arrive]
  simp

end Interaction

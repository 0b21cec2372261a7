/-
Programs that stop at every call to their environment.  A program is the tree
of its calls, so a handler can be suspended between any two of them and resumed
with whatever reply the environment gives.  The traces of a program are the
calls it has completed.
-/
import Mathlib.Data.List.Basic

namespace Interaction

universe u

/-- One completed call.  `order` counts the steps of the whole run before it,
`time` is the clock the operation was performed at. -/
structure Event (Op : Type u) (Reply : Op → Type u) where
  op : Op
  reply : Reply op
  order : Nat
  time : Nat

/-- A program over the operations `Op`: a result, an error, or a call together
with what to do for each reply. -/
inductive Prog (Op : Type u) (Reply : Op → Type u) (ε α : Type u)
  | ret (value : α)
  | throw (error : ε)
  | call (op : Op) (next : Reply op → Prog Op Reply ε α)

variable {Op : Type u} {Reply : Op → Type u} {ε α β : Type u}

namespace Prog

/-- Sequencing; an error skips the continuation. -/
protected def bind :
    Prog Op Reply ε α → (α → Prog Op Reply ε β) → Prog Op Reply ε β
  | .ret value, f => f value
  | .throw error, _ => .throw error
  | .call op next, f => .call op fun reply => (next reply).bind f

instance : Monad (Prog Op Reply ε) where
  pure := .ret
  bind := Prog.bind

/-- Perform one operation and return its reply. -/
def perform (op : Op) : Prog Op Reply ε (Reply op) :=
  .call op .ret

/-- Continue with the value of a pure computation, or fail with its error. -/
def lift : Except ε α → Prog Op Reply ε α
  | .ok value => .ret value
  | .error error => .throw error

/-- Fail with `f error` where the program fails with `error`. -/
def mapError {ε' : Type u} (f : ε → ε') :
    Prog Op Reply ε α → Prog Op Reply ε' α
  | .ret value => .ret value
  | .throw error => .throw (f error)
  | .call op next => .call op fun reply => (next reply).mapError f

@[simp] theorem pure_eq_ret (value : α) :
    (pure value : Prog Op Reply ε α) = .ret value := rfl

@[simp] theorem ret_bind (value : α) (f : α → Prog Op Reply ε β) :
    (.ret value : Prog Op Reply ε α) >>= f = f value := rfl

@[simp] theorem throw_bind (error : ε) (f : α → Prog Op Reply ε β) :
    (.throw error : Prog Op Reply ε α) >>= f = .throw error := rfl

@[simp] theorem call_bind (op : Op) (next : Reply op → Prog Op Reply ε α)
    (f : α → Prog Op Reply ε β) :
    (.call op next : Prog Op Reply ε α) >>= f =
      .call op fun reply => next reply >>= f := rfl

@[simp] theorem perform_bind (op : Op) (f : Reply op → Prog Op Reply ε β) :
    (perform op : Prog Op Reply ε (Reply op)) >>= f = .call op f := rfl

@[simp] theorem lift_ok (value : α) :
    (lift (.ok value) : Prog Op Reply ε α) = .ret value := rfl

@[simp] theorem lift_error (error : ε) :
    (lift (.error error) : Prog Op Reply ε α) = .throw error := rfl

theorem bind_assoc {γ : Type u} (p : Prog Op Reply ε α)
    (f : α → Prog Op Reply ε β) (g : β → Prog Op Reply ε γ) :
    p >>= f >>= g = p >>= fun value => f value >>= g := by
  induction p with
  | ret value => rfl
  | throw error => rfl
  | call op next ih =>
      simp only [call_bind]
      congr 1
      funext reply
      exact ih reply

/-- `p.Reaches trace rest`: after the calls of `trace`, what is left of `p` is
`rest`.  The stamps of the events are free. -/
inductive Reaches :
    Prog Op Reply ε α → List (Event Op Reply) → Prog Op Reply ε α → Prop
  | refl (p : Prog Op Reply ε α) : Reaches p [] p
  | call {op : Op} {next : Reply op → Prog Op Reply ε α}
      {trace : List (Event Op Reply)} {rest : Prog Op Reply ε α}
      (reply : Reply op) (order time : Nat)
      (tail : Reaches (next reply) trace rest) :
      Reaches (.call op next) (⟨op, reply, order, time⟩ :: trace) rest

@[simp] theorem reaches_ret_iff {value : α} {trace : List (Event Op Reply)}
    {rest : Prog Op Reply ε α} :
    (Prog.ret value).Reaches trace rest ↔ trace = [] ∧ rest = .ret value := by
  constructor
  · intro h
    cases h
    exact ⟨rfl, rfl⟩
  · rintro ⟨rfl, rfl⟩
    exact .refl _

@[simp] theorem reaches_throw_iff {error : ε} {trace : List (Event Op Reply)}
    {rest : Prog Op Reply ε α} :
    (Prog.throw error).Reaches trace rest ↔
      trace = [] ∧ rest = .throw error := by
  constructor
  · intro h
    cases h
    exact ⟨rfl, rfl⟩
  · rintro ⟨rfl, rfl⟩
    exact .refl _

theorem reaches_call_iff {op : Op} {next : Reply op → Prog Op Reply ε α}
    {trace : List (Event Op Reply)} {rest : Prog Op Reply ε α} :
    (Prog.call op next).Reaches trace rest ↔
      (trace = [] ∧ rest = .call op next) ∨
        ∃ reply order time tail, trace = ⟨op, reply, order, time⟩ :: tail ∧
          (next reply).Reaches tail rest := by
  constructor
  · intro h
    cases h with
    | refl => exact Or.inl ⟨rfl, rfl⟩
    | call reply order time tail =>
        exact Or.inr ⟨reply, order, time, _, rfl, tail⟩
  · rintro (⟨rfl, rfl⟩ | ⟨reply, order, time, tail, rfl, htail⟩)
    · exact .refl _
    · exact .call reply order time htail

/-- A finished program has made its first call. -/
theorem reaches_call_ret_iff {op : Op} {next : Reply op → Prog Op Reply ε α}
    {trace : List (Event Op Reply)} {value : α} :
    (Prog.call op next).Reaches trace (.ret value) ↔
      ∃ reply order time tail, trace = ⟨op, reply, order, time⟩ :: tail ∧
        (next reply).Reaches tail (.ret value) := by
  rw [reaches_call_iff]
  simp

theorem Reaches.append {p q rest : Prog Op Reply ε α}
    {first second : List (Event Op Reply)} (hfirst : p.Reaches first q)
    (hsecond : q.Reaches second rest) : p.Reaches (first ++ second) rest := by
  induction hfirst with
  | refl => exact hsecond
  | call reply order time _ ih => exact .call reply order time (ih hsecond)

/-- After its first calls a program goes on from where they led. -/
theorem Reaches.split {p q rest : Prog Op Reply ε α}
    {first second : List (Event Op Reply)} (hfirst : p.Reaches first q)
    (h : p.Reaches (first ++ second) rest) : q.Reaches second rest := by
  induction hfirst with
  | refl => exact h
  | call reply order time _ ih =>
      cases h with
      | call _ _ _ tail => exact ih tail

/-- Make one more call at the end of a trace. -/
theorem Reaches.snoc {p : Prog Op Reply ε α} {trace : List (Event Op Reply)}
    {op : Op} {next : Reply op → Prog Op Reply ε α}
    (h : p.Reaches trace (.call op next)) (reply : Reply op)
    (order time : Nat) :
    p.Reaches (trace ++ [⟨op, reply, order, time⟩]) (next reply) :=
  h.append (.call reply order time (.refl _))

/-- A trace of a sequence is a trace of its first part, or a finished trace of
the first part followed by a trace of the second. -/
theorem reaches_bind_iff {p : Prog Op Reply ε α}
    {f : α → Prog Op Reply ε β} {trace : List (Event Op Reply)}
    {rest : Prog Op Reply ε β} :
    (p >>= f).Reaches trace rest ↔
      (∃ p', p.Reaches trace p' ∧ rest = p' >>= f) ∨
        ∃ value first second, trace = first ++ second ∧
          p.Reaches first (.ret value) ∧ (f value).Reaches second rest := by
  constructor
  · induction p generalizing trace with
    | ret value =>
        intro h
        exact Or.inr ⟨value, [], trace, rfl, .refl _, h⟩
    | throw error =>
        intro h
        rw [throw_bind, reaches_throw_iff] at h
        obtain ⟨rfl, rfl⟩ := h
        exact Or.inl ⟨.throw error, .refl _, rfl⟩
    | call op next ih =>
        intro h
        rw [call_bind, reaches_call_iff] at h
        rcases h with ⟨rfl, rfl⟩ | ⟨reply, order, time, tail, rfl, htail⟩
        · exact Or.inl ⟨.call op next, .refl _, rfl⟩
        · rcases ih reply htail with
            ⟨p', hp', rfl⟩ | ⟨value, first, second, rfl, hfirst, hsecond⟩
          · exact Or.inl ⟨p', .call reply order time hp', rfl⟩
          · exact Or.inr ⟨value, ⟨op, reply, order, time⟩ :: first, second,
              rfl, .call reply order time hfirst, hsecond⟩
  · rintro (⟨p', hp', rfl⟩ | ⟨value, first, second, rfl, hfirst, hsecond⟩)
    · induction hp' with
      | refl => exact .refl _
      | call reply order time _ ih => exact .call reply order time ih
    · suffices hbind : (p >>= f).Reaches first (f value) from
        hbind.append hsecond
      clear hsecond
      generalize hdone : (Prog.ret value : Prog Op Reply ε α) = done
        at hfirst
      induction hfirst with
      | refl =>
          subst hdone
          exact .refl _
      | call reply order time _ ih =>
          exact .call reply order time (ih hdone)

@[simp] theorem reaches_lift_ret_iff {result : Except ε α}
    {trace : List (Event Op Reply)} {value : α} :
    (lift result).Reaches trace (.ret value) ↔
      trace = [] ∧ result = .ok value := by
  cases result <;> simp [lift, eq_comm]

@[simp] theorem reaches_perform_ret_iff {op : Op}
    {trace : List (Event Op Reply)} {reply : Reply op} :
    (perform op : Prog Op Reply ε (Reply op)).Reaches trace (.ret reply) ↔
      ∃ order time, trace = [⟨op, reply, order, time⟩] := by
  rw [perform, reaches_call_ret_iff]
  constructor
  · rintro ⟨reply', order, time, tail, rfl, htail⟩
    rw [reaches_ret_iff] at htail
    obtain ⟨rfl, heq⟩ := htail
    cases heq
    exact ⟨order, time, rfl⟩
  · rintro ⟨order, time, rfl⟩
    exact ⟨reply, order, time, [], rfl, .refl _⟩

/-- Wrapping the result changes no trace. -/
theorem reaches_of_map {f : α → β} {p : Prog Op Reply ε α}
    {trace : List (Event Op Reply)} {rest : Prog Op Reply ε β}
    (h : (f <$> p).Reaches trace rest) : ∃ rest', p.Reaches trace rest' := by
  change (p >>= fun a => .ret (f a)).Reaches trace rest at h
  rcases reaches_bind_iff.mp h with
    ⟨p', hp', _⟩ | ⟨a, first, second, rfl, hfirst, hsecond⟩
  · exact ⟨p', hp'⟩
  · rw [reaches_ret_iff] at hsecond
    obtain ⟨rfl, _⟩ := hsecond
    exact ⟨.ret a, by simpa using hfirst⟩

/-- A sequence ends with a result when both of its parts do. -/
theorem reaches_bind_ret_iff {p : Prog Op Reply ε α}
    {f : α → Prog Op Reply ε β} {trace : List (Event Op Reply)} {value : β} :
    (p >>= f).Reaches trace (.ret value) ↔
      ∃ first second a, trace = first ++ second ∧
        p.Reaches first (.ret a) ∧ (f a).Reaches second (.ret value) := by
  rw [reaches_bind_iff]
  constructor
  · rintro (⟨p', hp', heq⟩ | ⟨a, first, second, rfl, hfirst, hsecond⟩)
    · cases p' with
      | ret a =>
          refine ⟨trace, [], a, by simp, hp', ?_⟩
          rw [heq]
          exact .refl _
      | throw error => simp at heq
      | call op next => simp at heq
    · exact ⟨first, second, a, rfl, hfirst, hsecond⟩
  · rintro ⟨first, second, a, rfl, hfirst, hsecond⟩
    exact Or.inr ⟨a, first, second, rfl, hfirst, hsecond⟩

/-- How a sequence can end: its first part fails, or its second part ends after
the first. -/
theorem reaches_bind_lift_iff {p : Prog Op Reply ε α}
    {f : α → Prog Op Reply ε β} {trace : List (Event Op Reply)}
    {result : Except ε β} :
    (p >>= f).Reaches trace (lift result) ↔
      (∃ error, p.Reaches trace (.throw error) ∧ result = .error error) ∨
        ∃ value first second, trace = first ++ second ∧
          p.Reaches first (.ret value) ∧
          (f value).Reaches second (lift result) := by
  rw [reaches_bind_iff]
  constructor
  · rintro (⟨p', hp', heq⟩ | hboth)
    · cases p' with
      | ret value =>
          rw [ret_bind] at heq
          refine Or.inr ⟨value, trace, [], by simp, hp', ?_⟩
          rw [heq]
          exact .refl _
      | throw error =>
          cases result with
          | ok value => cases heq
          | error error' =>
              cases heq
              exact Or.inl ⟨_, hp', rfl⟩
      | call op next => cases result <;> cases heq
    · exact Or.inr hboth
  · rintro (⟨error, hp, rfl⟩ | hboth)
    · exact Or.inl ⟨.throw error, hp, rfl⟩
    · exact Or.inr hboth

/-- Where a sequence fails, one of its parts does. -/
theorem reaches_bind_throw_iff {p : Prog Op Reply ε α}
    {f : α → Prog Op Reply ε β} {trace : List (Event Op Reply)} {error : ε} :
    (p >>= f).Reaches trace (.throw error) ↔
      p.Reaches trace (.throw error) ∨
        ∃ value first second, trace = first ++ second ∧
          p.Reaches first (.ret value) ∧
          (f value).Reaches second (.throw error) := by
  have h : (p >>= f).Reaches trace (lift (.error error)) ↔ _ :=
    reaches_bind_lift_iff
  rw [lift_error] at h
  rw [h]
  simp

@[simp] theorem reaches_lift_lift_iff {result result' : Except ε α}
    {trace : List (Event Op Reply)} :
    (lift result).Reaches trace (lift result') ↔
      trace = [] ∧ result' = result := by
  cases result <;> cases result' <;> simp [lift]

@[simp] theorem reaches_lift_throw_iff {result : Except ε α}
    {trace : List (Event Op Reply)} {error : ε} :
    (lift result).Reaches trace (.throw error) ↔
      trace = [] ∧ result = .error error := by
  cases result <;> simp [lift, eq_comm]

@[simp] theorem not_reaches_perform_throw {op : Op}
    {trace : List (Event Op Reply)} {error : ε} :
    ¬ (perform op : Prog Op Reply ε (Reply op)).Reaches trace
      (.throw error) := by
  intro h
  rw [perform, reaches_call_iff] at h
  rcases h with ⟨_, heq⟩ | ⟨_, _, _, _, _, htail⟩
  · cases heq
  · cases (reaches_ret_iff.mp htail).2

/-- Wrapping the result of a program that has returned. -/
theorem reaches_map_ret_iff {f : α → β} {p : Prog Op Reply ε α}
    {trace : List (Event Op Reply)} {value : β} :
    (f <$> p).Reaches trace (.ret value) ↔
      ∃ a, p.Reaches trace (.ret a) ∧ f a = value := by
  change (p >>= fun a => .ret (f a)).Reaches trace (.ret value) ↔ _
  rw [reaches_bind_ret_iff]
  constructor
  · rintro ⟨first, second, a, rfl, hp, hret⟩
    obtain ⟨rfl, heq⟩ := reaches_ret_iff.mp hret
    cases heq
    exact ⟨a, by simpa using hp, rfl⟩
  · rintro ⟨a, hp, rfl⟩
    exact ⟨trace, [], a, by simp, hp, .refl _⟩

/-- Wrapping the result of a program that has ended. -/
theorem reaches_map_lift_iff {f : α → β} {p : Prog Op Reply ε α}
    {trace : List (Event Op Reply)} {result : Except ε β} :
    (f <$> p).Reaches trace (lift result) ↔
      ∃ result', p.Reaches trace (lift result') ∧
        result = result'.map f := by
  change (p >>= fun a => .ret (f a)).Reaches trace (lift result) ↔ _
  rw [reaches_bind_lift_iff]
  constructor
  · rintro (⟨error, hp, rfl⟩ | ⟨value, first, second, rfl, hp, hret⟩)
    · exact ⟨.error error, hp, rfl⟩
    · obtain ⟨rfl, heq⟩ := reaches_ret_iff.mp hret
      cases result with
      | error error => cases heq
      | ok value' =>
          cases heq
          exact ⟨.ok value, by simpa using hp, rfl⟩
  · rintro ⟨result', hp, rfl⟩
    cases result' with
    | error error => exact Or.inl ⟨error, hp, rfl⟩
    | ok value =>
        exact Or.inr ⟨value, trace, [], by simp, hp, .refl _⟩

/-- A translated error changes no trace and no result. -/
theorem reaches_mapError_iff {ε' : Type u} {f : ε → ε'}
    {p : Prog Op Reply ε α} {trace : List (Event Op Reply)}
    {rest : Prog Op Reply ε' α} :
    (p.mapError f).Reaches trace rest ↔
      ∃ p', p.Reaches trace p' ∧ rest = p'.mapError f := by
  constructor
  · induction p generalizing trace with
    | ret value =>
        intro h
        rw [mapError, reaches_ret_iff] at h
        obtain ⟨rfl, rfl⟩ := h
        exact ⟨_, .refl _, rfl⟩
    | throw error =>
        intro h
        rw [mapError, reaches_throw_iff] at h
        obtain ⟨rfl, rfl⟩ := h
        exact ⟨_, .refl _, rfl⟩
    | call op next ih =>
        intro h
        rw [mapError, reaches_call_iff] at h
        rcases h with ⟨rfl, rfl⟩ | ⟨reply, order, time, tail, rfl, htail⟩
        · exact ⟨_, .refl _, rfl⟩
        · obtain ⟨p', hp', rfl⟩ := ih reply htail
          exact ⟨p', .call reply order time hp', rfl⟩
  · rintro ⟨p', hp', rfl⟩
    induction hp' with
    | refl => exact .refl _
    | call reply order time _ ih => exact .call reply order time ih

@[simp] theorem mapError_eq_ret_iff {ε' : Type u} {f : ε → ε'}
    {p : Prog Op Reply ε α} {value : α} :
    .ret value = p.mapError f ↔ p = .ret value := by
  cases p <;> simp [mapError, eq_comm]

@[simp] theorem reaches_mapError_ret_iff {ε' : Type u} {f : ε → ε'}
    {p : Prog Op Reply ε α} {trace : List (Event Op Reply)} {value : α} :
    (p.mapError f).Reaches trace (.ret value) ↔
      p.Reaches trace (.ret value) := by
  rw [reaches_mapError_iff]
  simp

@[simp] theorem mapError_eq_throw_iff {ε' : Type u} {f : ε → ε'}
    {p : Prog Op Reply ε α} {error : ε'} :
    .throw error = p.mapError f ↔ ∃ cause, p = .throw cause ∧
      f cause = error := by
  cases p <;> simp [mapError, eq_comm]

/-- Where a translated program fails, the program did. -/
theorem reaches_mapError_throw_iff {ε' : Type u} {f : ε → ε'}
    {p : Prog Op Reply ε α} {trace : List (Event Op Reply)} {error : ε'} :
    (p.mapError f).Reaches trace (.throw error) ↔
      ∃ cause, p.Reaches trace (.throw cause) ∧ f cause = error := by
  rw [reaches_mapError_iff]
  simp only [mapError_eq_throw_iff]
  constructor
  · rintro ⟨_, hp, cause, rfl, heq⟩
    exact ⟨cause, hp, heq⟩
  · rintro ⟨cause, hp, heq⟩
    exact ⟨_, hp, cause, rfl, heq⟩

/-- Run a program for its result, whether it fails or not. -/
def attempt {ε' : Type u} :
    Prog Op Reply ε α → Prog Op Reply ε' (Except ε α)
  | .ret value => .ret (.ok value)
  | .throw error => .ret (.error error)
  | .call op next => .call op fun reply => (next reply).attempt

theorem reaches_attempt_ret_iff {ε' : Type u} {p : Prog Op Reply ε α}
    {trace : List (Event Op Reply)} {result : Except ε α} :
    (p.attempt : Prog Op Reply ε' (Except ε α)).Reaches trace (.ret result) ↔
      p.Reaches trace (lift result) := by
  induction p generalizing trace with
  | ret value => cases result <;> simp [attempt, lift, eq_comm]
  | throw error => cases result <;> simp [attempt, lift, eq_comm]
  | call op next ih =>
      rw [attempt, reaches_call_ret_iff, reaches_call_iff]
      simp only [ih]
      cases result <;> simp [lift]

@[simp] theorem not_reaches_attempt_throw {ε' : Type u} {p : Prog Op Reply ε α}
    {trace : List (Event Op Reply)} {error : ε'} :
    ¬ p.attempt.Reaches trace (.throw error) := by
  induction p generalizing trace with
  | ret value => simp [attempt]
  | throw cause => simp [attempt]
  | call op next ih => simp [attempt, reaches_call_iff, ih]

/-- Every operation the program can issue satisfies `S`. -/
def Within (S : Op → Prop) : Prog Op Reply ε α → Prop
  | .ret _ => True
  | .throw _ => True
  | .call op next => S op ∧ ∀ reply, (next reply).Within S

@[simp] theorem within_ret (S : Op → Prop) (value : α) :
    (Prog.ret value : Prog Op Reply ε α).Within S := trivial

@[simp] theorem within_throw (S : Op → Prop) (error : ε) :
    (Prog.throw error : Prog Op Reply ε α).Within S := trivial

@[simp] theorem within_call (S : Op → Prop) (op : Op)
    (next : Reply op → Prog Op Reply ε α) :
    (Prog.call op next).Within S ↔ S op ∧ ∀ reply, (next reply).Within S :=
  Iff.rfl

@[simp] theorem within_lift (S : Op → Prop) (result : Except ε α) :
    (lift result : Prog Op Reply ε α).Within S := by
  cases result <;> simp [lift]

@[simp] theorem within_mapError {ε' : Type u} {S : Op → Prop} {f : ε → ε'}
    {p : Prog Op Reply ε α} : (p.mapError f).Within S ↔ p.Within S := by
  induction p with
  | ret value => rfl
  | throw error => rfl
  | call op next ih =>
      simp only [mapError, within_call]
      exact and_congr_right fun _ => forall_congr' ih

@[simp] theorem within_attempt {ε' : Type u} {S : Op → Prop}
    {p : Prog Op Reply ε α} :
    (p.attempt : Prog Op Reply ε' (Except ε α)).Within S ↔ p.Within S := by
  induction p with
  | ret value => rfl
  | throw error => rfl
  | call op next ih =>
      simp only [attempt, within_call]
      exact and_congr_right fun _ => forall_congr' ih

theorem Within.bind {S : Op → Prop} {p : Prog Op Reply ε α}
    {f : α → Prog Op Reply ε β} (hp : p.Within S)
    (hf : ∀ value, (f value).Within S) : (p >>= f).Within S := by
  induction p with
  | ret value => exact hf value
  | throw error => trivial
  | call op next ih => exact ⟨hp.1, fun reply => ih reply (hp.2 reply)⟩

theorem Within.map {S : Op → Prop} {f : α → β} {p : Prog Op Reply ε α}
    (hp : p.Within S) : (f <$> p).Within S :=
  Within.bind hp fun _ => trivial

theorem Within.mono {S T : Op → Prop} {p : Prog Op Reply ε α}
    (hp : p.Within S) (hST : ∀ op, S op → T op) : p.Within T := by
  induction p with
  | ret value => trivial
  | throw error => trivial
  | call op next ih => exact ⟨hST op hp.1, fun reply => ih reply (hp.2 reply)⟩

theorem Within.rest {S : Op → Prop} {p rest : Prog Op Reply ε α}
    {trace : List (Event Op Reply)} (hp : p.Within S)
    (h : p.Reaches trace rest) : rest.Within S := by
  induction h with
  | refl => exact hp
  | call reply order time _ ih => exact ih (hp.2 reply)

theorem Within.of_mem {S : Op → Prop} {p rest : Prog Op Reply ε α}
    {trace : List (Event Op Reply)} (hp : p.Within S)
    (h : p.Reaches trace rest) : ∀ event ∈ trace, S event.op := by
  induction h with
  | refl => simp
  | call reply order time _ ih =>
      intro event hevent
      rcases List.mem_cons.mp hevent with rfl | hevent
      · exact hp.1
      · exact ih (hp.2 reply) event hevent

/-- An event outside the alphabet of the first part of a sequence happens after
that part has finished. -/
theorem reaches_bind_of_mem {S : Op → Prop} {p : Prog Op Reply ε α}
    {f : α → Prog Op Reply ε β} {trace : List (Event Op Reply)}
    {rest : Prog Op Reply ε β} {event : Event Op Reply}
    (h : (p >>= f).Reaches trace rest) (hp : p.Within S)
    (hevent : event ∈ trace) (hout : ¬ S event.op) :
    ∃ value first second, trace = first ++ second ∧
      p.Reaches first (.ret value) ∧ (f value).Reaches second rest ∧
      event ∈ second := by
  rcases reaches_bind_iff.mp h with
    ⟨p', hp', _⟩ | ⟨value, first, second, rfl, hfirst, hsecond⟩
  · exact absurd (hp.of_mem hp' event hevent) hout
  · rcases List.mem_append.mp hevent with hevent | hevent
    · exact absurd (hp.of_mem hfirst event hevent) hout
    · exact ⟨value, first, second, rfl, hfirst, hsecond, hevent⟩

/-- Every operation the program can issue is related by `R` to the event right
before it; `last` is the event before its first. -/
def Linked (R : Option (Event Op Reply) → Op → Prop) :
    Option (Event Op Reply) → Prog Op Reply ε α → Prop
  | _, .ret _ => True
  | _, .throw _ => True
  | last, .call op next => R last op ∧ ∀ reply order time,
      Linked R (some ⟨op, reply, order, time⟩) (next reply)

section Linked

variable {R : Option (Event Op Reply) → Op → Prop}

/-- Operations that may follow anything. -/
theorem Within.linked {S : Op → Prop} {p : Prog Op Reply ε α}
    (hp : p.Within S) (hS : ∀ last op, S op → R last op)
    (last : Option (Event Op Reply)) : p.Linked R last := by
  induction p generalizing last with
  | ret value => trivial
  | throw error => trivial
  | call op next ih =>
      exact ⟨hS last op hp.1, fun reply _ _ => ih reply (hp.2 reply) _⟩

theorem Linked.bind {p : Prog Op Reply ε α} {f : α → Prog Op Reply ε β}
    {last : Option (Event Op Reply)} (hp : p.Linked R last)
    (hf : ∀ value last, (f value).Linked R last) :
    (p >>= f).Linked R last := by
  induction p generalizing last with
  | ret value => exact hf value last
  | throw error => trivial
  | call op next ih =>
      exact ⟨hp.1, fun reply order time => ih reply (hp.2 reply order time)⟩

theorem Linked.mapError {ε' : Type u} {f : ε → ε'} {p : Prog Op Reply ε α}
    {last : Option (Event Op Reply)} (hp : p.Linked R last) :
    (p.mapError f).Linked R last := by
  induction p generalizing last with
  | ret value => trivial
  | throw error => trivial
  | call op next ih =>
      exact ⟨hp.1, fun reply order time => ih reply (hp.2 reply order time)⟩

/-- What is left of a program is linked to the last event of its trace. -/
theorem Linked.rest {p rest : Prog Op Reply ε α}
    {trace : List (Event Op Reply)} {last : Option (Event Op Reply)}
    (hp : p.Linked R last) (h : p.Reaches trace rest) :
    rest.Linked R (trace.getLast?.or last) := by
  induction h generalizing last with
  | refl => exact hp
  | call reply order time _ ih =>
      have htail := ih (hp.2 reply order time)
      rw [List.getLast?_cons]
      cases hlast : List.getLast? _ with
      | none => simpa [hlast] using htail
      | some event => simpa [hlast] using htail

end Linked

/-- Every error the program can end with satisfies `P`. -/
def Fails (P : ε → Prop) : Prog Op Reply ε α → Prop
  | .ret _ => True
  | .throw error => P error
  | .call _ next => ∀ reply, (next reply).Fails P

theorem fails_lift {P : ε → Prop} {result : Except ε α}
    (h : ∀ error, result = .error error → P error) :
    (lift result : Prog Op Reply ε α).Fails P := by
  cases result with
  | ok value => trivial
  | error error => exact h error rfl

theorem fails_mapError {ε' : Type u} {P : ε' → Prop} {f : ε → ε'}
    {p : Prog Op Reply ε α} (h : ∀ error, P (f error)) :
    (p.mapError f).Fails P := by
  induction p with
  | ret value => trivial
  | throw error => exact h error
  | call op next ih => exact fun reply => ih reply

theorem Fails.bind {P : ε → Prop} {p : Prog Op Reply ε α}
    {f : α → Prog Op Reply ε β} (hp : p.Fails P)
    (hf : ∀ value, (f value).Fails P) : (p >>= f).Fails P := by
  induction p with
  | ret value => exact hf value
  | throw error => exact hp
  | call op next ih => exact fun reply => ih reply (hp reply)

theorem Fails.of_reaches {P : ε → Prop} {p : Prog Op Reply ε α} {error : ε}
    {trace : List (Event Op Reply)} (hp : p.Fails P)
    (h : p.Reaches trace (.throw error)) : P error := by
  generalize hdone : (Prog.throw error : Prog Op Reply ε α) = done at h
  induction h with
  | refl =>
      subst hdone
      exact hp
  | call reply order time _ ih => exact ih (hp reply) hdone

/-- Right after an event of `K` the program fails with `error`. -/
def FailsAfter (K : Event Op Reply → Prop) (error : ε) :
    Prog Op Reply ε α → Prop
  | .ret _ => True
  | .throw _ => True
  | .call op next => ∀ reply order time,
      (K ⟨op, reply, order, time⟩ → next reply = .throw error) ∧
        (next reply).FailsAfter K error

section FailsAfter

variable {K : Event Op Reply → Prop} {error : ε}

theorem failsAfter_lift (result : Except ε α) :
    (lift result : Prog Op Reply ε α).FailsAfter K error := by
  cases result <;> trivial

/-- No event of such a program is of `K`. -/
theorem Within.failsAfter {S : Op → Prop} {p : Prog Op Reply ε α}
    (hp : p.Within S) (hK : ∀ event, S event.op → ¬ K event) :
    p.FailsAfter K error := by
  induction p with
  | ret value => trivial
  | throw error => trivial
  | call op next ih =>
      exact fun reply order time =>
        ⟨fun h => absurd h (hK _ hp.1), ih reply (hp.2 reply)⟩

theorem FailsAfter.bind {p : Prog Op Reply ε α} {f : α → Prog Op Reply ε β}
    (hp : p.FailsAfter K error) (hf : ∀ value, (f value).FailsAfter K error) :
    (p >>= f).FailsAfter K error := by
  induction p with
  | ret value => exact hf value
  | throw error => trivial
  | call op next ih =>
      intro reply order time
      obtain ⟨hthrow, hnext⟩ := hp reply order time
      exact ⟨fun h => congrArg (Prog.bind · f) (hthrow h), ih reply hnext⟩

theorem FailsAfter.mapError {ε' : Type u} {f : ε → ε'}
    {p : Prog Op Reply ε α} (hp : p.FailsAfter K error) :
    (p.mapError f).FailsAfter K (f error) := by
  induction p with
  | ret value => trivial
  | throw error => trivial
  | call op next ih =>
      intro reply order time
      obtain ⟨hthrow, hnext⟩ := hp reply order time
      exact ⟨fun h => congrArg (Prog.mapError f) (hthrow h), ih reply hnext⟩

theorem FailsAfter.of_mem {p rest : Prog Op Reply ε α}
    {trace : List (Event Op Reply)} (hp : p.FailsAfter K error)
    (h : p.Reaches trace rest) {event : Event Op Reply}
    (hevent : event ∈ trace) (hK : K event) : rest = .throw error := by
  induction h with
  | refl => cases hevent
  | call reply order time tail ih =>
      obtain ⟨hthrow, hnext⟩ := hp reply order time
      rcases List.mem_cons.mp hevent with rfl | hevent
      · rw [hthrow hK, reaches_throw_iff] at tail
        exact tail.2
      · exact ih hnext hevent

end FailsAfter

/-- The program fails with `error` only after an event of `K`. -/
def FailsOnlyAfter (K : Event Op Reply → Prop) (error : ε) :
    Prog Op Reply ε α → Prop
  | .ret _ => True
  | .throw error' => error' ≠ error
  | .call op next => ∀ reply order time,
      ¬ K ⟨op, reply, order, time⟩ → (next reply).FailsOnlyAfter K error

section FailsOnlyAfter

variable {K : Event Op Reply → Prop} {error : ε}

theorem Fails.failsOnlyAfter {p : Prog Op Reply ε α}
    (hp : p.Fails fun error' => error' ≠ error) :
    p.FailsOnlyAfter K error := by
  induction p with
  | ret value => trivial
  | throw error' => exact hp
  | call op next ih => exact fun reply _ _ _ => ih reply (hp reply)

theorem FailsOnlyAfter.bind {p : Prog Op Reply ε α}
    {f : α → Prog Op Reply ε β} (hp : p.FailsOnlyAfter K error)
    (hf : ∀ value, (f value).FailsOnlyAfter K error) :
    (p >>= f).FailsOnlyAfter K error := by
  induction p with
  | ret value => exact hf value
  | throw error' => exact hp
  | call op next ih =>
      exact fun reply order time hK => ih reply (hp reply order time hK)

theorem FailsOnlyAfter.mapError {ε' : Type u} {f : ε → ε'}
    (hf : Function.Injective f) {p : Prog Op Reply ε α}
    (hp : p.FailsOnlyAfter K error) :
    (p.mapError f).FailsOnlyAfter K (f error) := by
  induction p with
  | ret value => trivial
  | throw error' => exact fun heq => hp (hf heq)
  | call op next ih =>
      exact fun reply order time hK => ih reply (hp reply order time hK)

theorem FailsOnlyAfter.exists_mem {p : Prog Op Reply ε α}
    {trace : List (Event Op Reply)} (hp : p.FailsOnlyAfter K error)
    (h : p.Reaches trace (.throw error)) : ∃ event ∈ trace, K event := by
  generalize hdone : (Prog.throw error : Prog Op Reply ε α) = done at h
  induction h with
  | refl =>
      subst hdone
      exact (hp rfl).elim
  | call reply order time _ ih =>
      by_cases hK : K ⟨_, reply, order, time⟩
      · exact ⟨_, List.mem_cons_self, hK⟩
      · obtain ⟨event, hevent, hK'⟩ := ih (hp reply order time hK) hdone
        exact ⟨event, List.mem_cons_of_mem _ hevent, hK'⟩

end FailsOnlyAfter

/-- The result of a program that has ended. -/
def result? : Prog Op Reply ε α → Option (Except ε α)
  | .ret value => some (.ok value)
  | .throw error => some (.error error)
  | .call _ _ => none

theorem result?_eq_some_iff {p : Prog Op Reply ε α} {result : Except ε α} :
    p.result? = some result ↔ p = lift result := by
  cases p <;> cases result <;> simp [result?, lift]

end Prog

/-- `op` was answered `reply` somewhere in the trace. -/
def Performed (trace : List (Event Op Reply)) (op : Op) (reply : Reply op) :
    Prop :=
  ∃ order time, ⟨op, reply, order, time⟩ ∈ trace

theorem Performed.mono {first second : List (Event Op Reply)} {op : Op}
    {reply : Reply op} (h : Performed first op reply)
    (hsub : first ⊆ second) : Performed second op reply := by
  obtain ⟨order, time, hmem⟩ := h
  exact ⟨order, time, hsub hmem⟩

/-- An earlier event is not the last one. -/
theorem Performed.of_snoc {trace : List (Event Op Reply)}
    {last : Event Op Reply} {op : Op} {reply : Reply op}
    (h : Performed (trace ++ [last]) op reply) (hne : op ≠ last.op) :
    Performed trace op reply := by
  obtain ⟨order, time, hmem⟩ := h
  rcases List.mem_append.mp hmem with hold | hlast
  · exact ⟨order, time, hold⟩
  · rw [List.mem_singleton] at hlast
    exact absurd (congrArg Event.op hlast) hne

theorem Performed.append_left {first second : List (Event Op Reply)} {op : Op}
    {reply : Reply op} (h : Performed second op reply) :
    Performed (first ++ second) op reply :=
  h.mono (List.subset_append_right _ _)

theorem Performed.append_right {first second : List (Event Op Reply)}
    {op : Op} {reply : Reply op} (h : Performed first op reply) :
    Performed (first ++ second) op reply :=
  h.mono (List.subset_append_left _ _)

@[simp] theorem performed_cons_self {op : Op} {reply : Reply op}
    {order time : Nat} {trace : List (Event Op Reply)} :
    Performed (⟨op, reply, order, time⟩ :: trace) op reply :=
  ⟨order, time, List.mem_cons_self⟩

end Interaction

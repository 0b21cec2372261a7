/-
Any number of handler calls over one shared state.  A step lets a new call
arrive, lets the outside world move, or performs the next operation of one
call; every order of such steps is a run.  Each call keeps the trace of what it
has done, stamped with the position in the run and the clock, so that facts
about order and time are facts about one state.
-/
import X402Guard.EffectProgram
import X402Guard.GuardedRun
import Mathlib.Algebra.BigOperators.Group.List.Basic
import Mathlib.Algebra.Order.BigOperators.Group.List
import Mathlib.Tactic.Ring

namespace Interaction

universe u

/-- What the operations do to the shared state, what the outside world may do to
it, and the clock it shows. -/
structure Semantics (Op : Type u) (Reply : Op → Type u)
    (Shared Outcome External : Type u) where
  perform : (op : Op) → Outcome → Shared → Reply op × Shared
  external : External → Shared → Shared
  clock : Shared → Nat

variable {Op : Type u} {Reply : Op → Type u} {ε α : Type u}
variable {Request Shared Outcome External : Type u}

/-- A call in flight: what was asked, what it has done, and what is left.  That
the three belong together is part of the value. -/
structure Call (handle : Request → Prog Op Reply ε α) where
  request : Request
  trace : List (Event Op Reply)
  rest : Prog Op Reply ε α
  reached : (handle request).Reaches trace rest

/-- A call that has not performed anything. -/
def Call.start (handle : Request → Prog Op Reply ε α) (request : Request) :
    Call handle :=
  ⟨request, [], handle request, .refl _⟩

/-- The operation a call waits for, if it has not ended. -/
def Prog.op? : Prog Op Reply ε α → Option Op
  | .call op _ => some op
  | _ => none

theorem Prog.op?_eq_some_iff {p : Prog Op Reply ε α} {op : Op} :
    p.op? = some op ↔ ∃ next, p = .call op next := by
  cases p with
  | call op' next =>
      simp only [Prog.op?, Option.some.injEq]
      constructor
      · rintro rfl
        exact ⟨next, rfl⟩
      · rintro ⟨next', heq⟩
        cases heq
        rfl
  | _ => simp [Prog.op?]

variable {handle : Request → Prog Op Reply ε α}

/-- The call after one more operation. -/
def Call.resume (call : Call handle) {op : Op}
    {next : Reply op → Prog Op Reply ε α} (hrest : call.rest = .call op next)
    (reply : Reply op) (order time : Nat) : Call handle where
  request := call.request
  trace := call.trace ++ [⟨op, reply, order, time⟩]
  rest := next reply
  reached := (hrest ▸ call.reached).snoc reply order time

@[simp] theorem Call.resume_request (call : Call handle) {op : Op}
    {next : Reply op → Prog Op Reply ε α} (hrest : call.rest = .call op next)
    (reply : Reply op) (order time : Nat) :
    (call.resume hrest reply order time).request = call.request := rfl

@[simp] theorem Call.resume_trace (call : Call handle) {op : Op}
    {next : Reply op → Prog Op Reply ε α} (hrest : call.rest = .call op next)
    (reply : Reply op) (order time : Nat) :
    (call.resume hrest reply order time).trace =
      call.trace ++ [⟨op, reply, order, time⟩] := rfl

/-- The shared state, the calls in order of arrival, and the number of
operations performed so far. -/
structure World (handle : Request → Prog Op Reply ε α) (Shared : Type u) where
  shared : Shared
  calls : List (Call handle)
  steps : Nat

/-- No call has arrived yet. -/
def World.start (handle : Request → Prog Op Reply ε α) (shared : Shared) :
    World handle Shared :=
  ⟨shared, [], 0⟩

inductive Action (Request External Outcome : Type u)
  | arrive (request : Request)
  | external (event : External)
  | advance (index : Nat) (outcome : Outcome)

def World.arrive (w : World handle Shared) (request : Request) :
    World handle Shared :=
  { w with calls := w.calls ++ [Call.start handle request] }

/-- Perform the operation the call at `index` waits for. -/
def World.perform (w : World handle Shared)
    (sem : Semantics Op Reply Shared Outcome External) (index : Nat)
    (call : Call handle) {op : Op} {next : Reply op → Prog Op Reply ε α}
    (hrest : call.rest = .call op next) (outcome : Outcome) :
    World handle Shared where
  shared := (sem.perform op outcome w.shared).2
  calls := w.calls.set index (call.resume hrest
    (sem.perform op outcome w.shared).1 w.steps (sem.clock w.shared))
  steps := w.steps + 1

def World.step (sem : Semantics Op Reply Shared Outcome External)
    (w : World handle Shared) :
    Action Request External Outcome → Option (World handle Shared)
  | .arrive request => some (w.arrive request)
  | .external event => some { w with shared := sem.external event w.shared }
  | .advance index outcome =>
      match w.calls[index]? with
      | none => none
      | some call =>
          match hrest : call.rest with
          | .call _ _ => some (w.perform sem index call hrest outcome)
          | _ => none

variable {sem : Semantics Op Reply Shared Outcome External}
variable {Allowed : World handle Shared →
  Action Request External Outcome → Prop}

/-- A step of one call performs exactly the operation it waits for. -/
theorem World.step_advance {w w' : World handle Shared} {index : Nat}
    {outcome : Outcome}
    (h : w.step sem (.advance index outcome) = some w') :
    ∃ call op next, ∃ hrest : call.rest = .call op next,
      w.calls[index]? = some call ∧
        w' = w.perform sem index call hrest outcome := by
  simp only [World.step] at h
  split at h
  · cases h
  · rename_i call hcall
    split at h
    · rename_i op next hrest
      cases h
      exact ⟨call, op, next, hrest, hcall, rfl⟩
    · cases h

/-- A call that waits for an operation can perform it. -/
theorem World.step_perform {w : World handle Shared} {index : Nat}
    {call : Call handle} {op : Op} {next : Reply op → Prog Op Reply ε α}
    (hrest : call.rest = .call op next) (hcall : w.calls[index]? = some call)
    (outcome : Outcome) : w.step sem (.advance index outcome) =
      some (w.perform sem index call hrest outcome) := by
  simp only [World.step, hcall]
  split
  · rename_i op' next' hrest'
    cases hrest.symm.trans hrest'
    rfl
  · rename_i hdone
    exact absurd hrest (hdone op next)

/-- The induction behind every fact about runs: one case for each kind of step
from a reachable state. -/
theorem World.reachable_invariant {I : World handle Shared → Prop}
    {w₀ w : World handle Shared}
    (run : Run (World.step sem) Allowed w₀ w) (hstart : I w₀)
    (harrive : ∀ w request, Run (World.step sem) Allowed w₀ w → I w →
      Allowed w (.arrive request) → I (w.arrive request))
    (hexternal : ∀ w event, Run (World.step sem) Allowed w₀ w → I w →
      Allowed w (.external event) →
      I { w with shared := sem.external event w.shared })
    (hperform : ∀ w index (call : Call handle) op next outcome
      (hrest : call.rest = .call op next),
      w.calls[index]? = some call → Run (World.step sem) Allowed w₀ w → I w →
      Allowed w (.advance index outcome) →
      I (w.perform sem index call hrest outcome)) : I w := by
  induction run with
  | refl => exact hstart
  | @snoc t t' action run allowed taken ih =>
      cases action with
      | arrive request =>
          cases taken
          exact harrive t request run ih allowed
      | external event =>
          cases taken
          exact hexternal t event run ih allowed
      | advance index outcome =>
          obtain ⟨call, op, next, hrest, hcall, rfl⟩ :=
            World.step_advance taken
          exact hperform t index call op next outcome hrest hcall run ih
            allowed

/-- The same where reachability is not needed. -/
theorem World.invariant {I : World handle Shared → Prop}
    {w₀ w : World handle Shared}
    (run : Run (World.step sem) Allowed w₀ w) (hstart : I w₀)
    (harrive : ∀ w request, I w → Allowed w (.arrive request) →
      I (w.arrive request))
    (hexternal : ∀ w event, I w → Allowed w (.external event) →
      I { w with shared := sem.external event w.shared })
    (hperform : ∀ w index (call : Call handle) op next outcome
      (hrest : call.rest = .call op next),
      w.calls[index]? = some call → I w →
      Allowed w (.advance index outcome) →
      I (w.perform sem index call hrest outcome)) : I w :=
  World.reachable_invariant run hstart
    (fun w request _ => harrive w request)
    (fun w event _ => hexternal w event)
    (fun w index call op next outcome hrest hcall _ =>
      hperform w index call op next outcome hrest hcall)

/-- An invariant of the shared state alone. -/
theorem World.shared_invariant {I : Shared → Prop}
    {w₀ w : World handle Shared}
    (run : Run (World.step sem) Allowed w₀ w) (hstart : I w₀.shared)
    (hexternal : ∀ event s, I s → I (sem.external event s))
    (hperform : ∀ op outcome s, I s → I (sem.perform op outcome s).2) :
    I w.shared :=
  World.invariant (I := fun w => I w.shared) run hstart
    (fun _ _ h _ => h) (fun _ event h _ => hexternal event _ h)
    (fun _ _ _ op _ outcome _ _ h _ => hperform op outcome _ h)

/-- Everything any call has done, grouped by call. -/
def World.events (w : World handle Shared) : List (Event Op Reply) :=
  w.calls.flatMap Call.trace

theorem World.mem_events {w : World handle Shared} {call : Call handle}
    (hcall : call ∈ w.calls) {event : Event Op Reply}
    (hevent : event ∈ call.trace) : event ∈ w.events :=
  List.mem_flatMap.mpr ⟨call, hcall, hevent⟩

@[simp] theorem World.arrive_shared (w : World handle Shared)
    (request : Request) : (w.arrive request).shared = w.shared := rfl

@[simp] theorem World.events_arrive (w : World handle Shared)
    (request : Request) : (w.arrive request).events = w.events := by
  simp [World.events, World.arrive, Call.start]

@[simp] theorem World.events_start (shared : Shared) :
    (World.start handle shared).events = [] := rfl

@[simp] theorem World.events_withShared (w : World handle Shared)
    (shared : Shared) :
    ({ w with shared := shared } : World handle Shared).events =
      w.events := rfl

theorem flatMap_set_snoc_perm {β γ : Type*} (f : β → List γ) {x x' : β}
    {item : γ} (hx : f x' = f x ++ [item]) {l : List β} {i : Nat}
    (hi : l[i]? = some x) :
    ((l.set i x').flatMap f).Perm (item :: l.flatMap f) := by
  induction l generalizing i with
  | nil => simp at hi
  | cons head tail ih =>
      cases i with
      | zero =>
          simp only [List.getElem?_cons_zero, Option.some.injEq] at hi
          subst hi
          simp only [List.set_cons_zero, List.flatMap_cons, hx,
            List.append_assoc, List.singleton_append]
          exact List.perm_middle
      | succ i =>
          simp only [List.getElem?_cons_succ] at hi
          simp only [List.set_cons_succ, List.flatMap_cons]
          exact ((ih hi).append_left _).trans List.perm_middle

theorem flatMap_set_of_eq {β γ : Type*} (f : β → List γ) {x x' : β}
    (hx : f x' = f x) {l : List β} {i : Nat} (hi : l[i]? = some x) :
    (l.set i x').flatMap f = l.flatMap f := by
  induction l generalizing i with
  | nil => simp at hi
  | cons head tail ih =>
      cases i with
      | zero =>
          simp only [List.getElem?_cons_zero, Option.some.injEq] at hi
          subst hi
          simp [hx]
      | succ i =>
          rw [List.getElem?_cons_succ] at hi
          simp [ih hi]

/-- The event that performing `op` adds. -/
def World.stamp (w : World handle Shared)
    (sem : Semantics Op Reply Shared Outcome External) (op : Op)
    (outcome : Outcome) : Event Op Reply :=
  ⟨op, (sem.perform op outcome w.shared).1, w.steps, sem.clock w.shared⟩

theorem World.events_perform_perm (w : World handle Shared) {index : Nat}
    {call : Call handle} {op : Op} {next : Reply op → Prog Op Reply ε α}
    (hrest : call.rest = .call op next)
    (hcall : w.calls[index]? = some call) (outcome : Outcome) :
    (w.perform sem index call hrest outcome).events.Perm
      (w.stamp sem op outcome :: w.events) :=
  flatMap_set_snoc_perm Call.trace
    (Call.resume_trace call hrest _ _ _) hcall

theorem World.mem_events_perform {w : World handle Shared} {index : Nat}
    {call : Call handle} {op : Op} {next : Reply op → Prog Op Reply ε α}
    (hrest : call.rest = .call op next)
    (hcall : w.calls[index]? = some call) {outcome : Outcome}
    {event : Event Op Reply} :
    event ∈ (w.perform sem index call hrest outcome).events ↔
      event = w.stamp sem op outcome ∨ event ∈ w.events := by
  rw [(w.events_perform_perm hrest hcall outcome).mem_iff, List.mem_cons]

/-- A call that is there after an arrival was there before, or has done nothing
yet. -/
theorem World.getElem?_arrive {w : World handle Shared} {request : Request}
    {k : Nat} {call : Call handle}
    (hk : (w.arrive request).calls[k]? = some call) :
    w.calls[k]? = some call ∨ call.trace = [] := by
  rw [World.arrive, List.getElem?_append] at hk
  split at hk
  · exact Or.inl hk
  · obtain rfl := List.mem_singleton.mp (List.mem_of_getElem? hk)
    exact Or.inr rfl

/-- A call that is there after a step was there before, and has done the new
operation in addition at most. -/
theorem World.getElem?_perform {w : World handle Shared} {index : Nat}
    {call : Call handle} {op : Op} {next : Reply op → Prog Op Reply ε α}
    (hrest : call.rest = .call op next)
    (hcall : w.calls[index]? = some call) {outcome : Outcome} {k : Nat}
    {after : Call handle}
    (hk : (w.perform sem index call hrest outcome).calls[k]? = some after) :
    ∃ before, w.calls[k]? = some before ∧ after.request = before.request ∧
      (after.trace = before.trace ∨ k = index ∧ before = call ∧
        after.trace = call.trace ++ [w.stamp sem op outcome]) := by
  rw [World.perform, List.getElem?_set] at hk
  split at hk
  · rename_i hindex
    subst hindex
    rw [Option.ite_none_right_eq_some] at hk
    cases hk.2
    exact ⟨call, hcall, rfl, Or.inr ⟨rfl, rfl, rfl⟩⟩
  · exact ⟨after, hk, rfl, Or.inl rfl⟩

/-- A call that is there after an arrival was there before, or has arrived. -/
theorem World.getElem?_arrive_cases {w : World handle Shared}
    {request : Request} {k : Nat} {call : Call handle}
    (hk : (w.arrive request).calls[k]? = some call) :
    (k < w.calls.length ∧ w.calls[k]? = some call) ∨
      (k = w.calls.length ∧ call = Call.start handle request) := by
  rw [World.arrive, List.getElem?_append] at hk
  split at hk
  · rename_i hlt
    exact Or.inl ⟨hlt, hk⟩
  · rename_i hge
    obtain ⟨hzero, heq⟩ := List.getElem?_eq_some_iff.mp hk
    rw [List.length_singleton] at hzero
    have hk' : k = w.calls.length := by omega
    subst hk'
    simp only [Nat.sub_self, List.getElem_cons_zero] at heq
    exact Or.inr ⟨rfl, heq.symm⟩

/-- After an operation the call that performed it has resumed, and every other
call is as it was. -/
theorem World.getElem?_perform_cases {w : World handle Shared} {index : Nat}
    {call : Call handle} {op : Op} {next : Reply op → Prog Op Reply ε α}
    {hrest : call.rest = .call op next} {outcome : Outcome} {k : Nat}
    {after : Call handle}
    (hk : (w.perform sem index call hrest outcome).calls[k]? = some after) :
    (k = index ∧ after = call.resume hrest (sem.perform op outcome w.shared).1
        w.steps (sem.clock w.shared)) ∨
      (k ≠ index ∧ w.calls[k]? = some after) := by
  rw [World.perform, List.getElem?_set] at hk
  split at hk
  · rename_i hindex
    rw [Option.ite_none_right_eq_some] at hk
    exact Or.inl ⟨hindex.symm, (Option.some.inj hk.2).symm⟩
  · rename_i hindex
    exact Or.inr ⟨Ne.symm hindex, hk⟩

/-- A fact about an event and the shared state that holds once the event is
performed and is never undone. -/
theorem World.settled {P : Event Op Reply → Shared → Prop}
    {w₀ w : World handle Shared}
    (run : Run (World.step sem) Allowed w₀ w)
    (hstart : ∀ event ∈ w₀.events, P event w₀.shared)
    (hexternal : ∀ event e s, P event s → P event (sem.external e s))
    (hkeep : ∀ event op outcome s, P event s →
      P event (sem.perform op outcome s).2)
    (hperform : ∀ (w : World handle Shared) (index : Nat)
      (call : Call handle) op next outcome, call.rest = .call op next →
      w.calls[index]? = some call → Run (World.step sem) Allowed w₀ w →
      P (w.stamp sem op outcome) (sem.perform op outcome w.shared).2) :
    ∀ event ∈ w.events, P event w.shared := by
  refine World.reachable_invariant
    (I := fun w => ∀ event ∈ w.events, P event w.shared) run hstart ?_ ?_ ?_
  · intro w request _ h _ event hevent
    rw [World.events_arrive] at hevent
    exact h event hevent
  · intro w e _ h _ event hevent
    exact hexternal event e _ (h event hevent)
  · intro w index call op next outcome hrest hcall hrun h _ event hevent
    rcases (World.mem_events_perform hrest hcall).mp hevent with rfl | hold
    · exact hperform w index call op next outcome hrest hcall hrun
    · exact hkeep event op outcome _ (h event hold)

section Totals

variable {M : Type*} [AddCommMonoid M]

/-- The sum of a contribution over all events. -/
def World.total (g : Event Op Reply → M) (w : World handle Shared) : M :=
  (w.events.map g).sum

theorem World.total_perform (g : Event Op Reply → M)
    (w : World handle Shared) {index : Nat} {call : Call handle} {op : Op}
    {next : Reply op → Prog Op Reply ε α} (hrest : call.rest = .call op next)
    (hcall : w.calls[index]? = some call) (outcome : Outcome) :
    (w.perform sem index call hrest outcome).total g =
      w.total g + g (w.stamp sem op outcome) := by
  simp only [World.total]
  rw [((w.events_perform_perm hrest hcall outcome).map g).sum_eq,
    List.map_cons, List.sum_cons, add_comm]

@[simp] theorem World.total_arrive (g : Event Op Reply → M)
    (w : World handle Shared) (request : Request) :
    (w.arrive request).total g = w.total g := by
  simp [World.total]

/-- The total counted call by call. -/
theorem World.total_eq_sum_calls (g : Event Op Reply → M)
    (w : World handle Shared) :
    w.total g = (w.calls.map fun call => (call.trace.map g).sum).sum := by
  simp only [World.total, World.events]
  induction w.calls with
  | nil => rfl
  | cons call rest ih => simp [ih]

/-- A measure of calls that their own contributions bound is bounded by the
total. -/
theorem World.sum_calls_le_total [PartialOrder M] [IsOrderedAddMonoid M]
    {g : Event Op Reply → M} {f : Call handle → M} {w : World handle Shared}
    (h : ∀ call ∈ w.calls, f call ≤ (call.trace.map g).sum) :
    (w.calls.map f).sum ≤ w.total g := by
  rw [World.total_eq_sum_calls]
  exact List.sum_le_sum h

/-- Accounting: a quantity of the shared state that the outside world leaves
alone and every operation changes by the contribution of its event is what it
was at the start plus all contributions. -/
theorem World.accounting (quantity : Shared → M) (g : Event Op Reply → M)
    {w₀ w : World handle Shared}
    (run : Run (World.step sem) Allowed w₀ w) (hstart : w₀.events = [])
    (hexternal : ∀ event s, quantity (sem.external event s) = quantity s)
    (hperform : ∀ op outcome s order,
      quantity (sem.perform op outcome s).2 = quantity s +
        g ⟨op, (sem.perform op outcome s).1, order, sem.clock s⟩) :
    quantity w.shared = quantity w₀.shared + w.total g := by
  refine World.invariant
    (I := fun w => quantity w.shared = quantity w₀.shared + w.total g)
    run ?_ ?_ ?_ ?_
  · simp [World.total, hstart]
  · intro w request h _
    simpa using h
  · intro w event h _
    exact (hexternal event w.shared).trans h
  · intro w index call op next outcome hrest hcall h _
    calc quantity (sem.perform op outcome w.shared).2
        = quantity w.shared + g (w.stamp sem op outcome) :=
          hperform op outcome w.shared w.steps
      _ = quantity w₀.shared + (w.total g + g (w.stamp sem op outcome)) := by
          rw [h, add_assoc]
      _ = _ := by rw [World.total_perform g w hrest hcall outcome]

end Totals

/-- A fact of the shared state that the outside world leaves alone and each
operation leaves alone or brings about holds if it held at the start or an
event has brought it about. -/
theorem World.arises_iff {P : Shared → Prop} {K : Event Op Reply → Prop}
    {w₀ w : World handle Shared}
    (run : Run (World.step sem) Allowed w₀ w) (hstart : w₀.events = [])
    (hexternal : ∀ event s, P (sem.external event s) ↔ P s)
    (hperform : ∀ op outcome s order, P (sem.perform op outcome s).2 ↔
      P s ∨ K ⟨op, (sem.perform op outcome s).1, order, sem.clock s⟩) :
    P w.shared ↔ P w₀.shared ∨ ∃ event ∈ w.events, K event := by
  refine World.invariant (I := fun w => P w.shared ↔
    P w₀.shared ∨ ∃ event ∈ w.events, K event) run ?_ ?_ ?_ ?_
  · simp [hstart]
  · intro w request h _
    rw [World.events_arrive]
    exact h
  · intro w event h _
    exact (hexternal event w.shared).trans h
  · intro w index call op next outcome hrest hcall h _
    have hstep : P (w.perform sem index call hrest outcome).shared ↔
        P w.shared ∨ K (w.stamp sem op outcome) :=
      hperform op outcome w.shared w.steps
    rw [hstep, h]
    simp only [World.mem_events_perform hrest hcall, or_and_right, exists_or,
      exists_eq_left]
    constructor
    · rintro ((hold | hevent) | hnew)
      · exact Or.inl hold
      · exact Or.inr (Or.inr hevent)
      · exact Or.inr (Or.inl hnew)
    · rintro (hold | hnew | hevent)
      · exact Or.inl (Or.inl hold)
      · exact Or.inr hnew
      · exact Or.inl (Or.inr hevent)

/-- Events of a kind that cannot happen once `F` holds, and that make `F` hold
for good, happen at most once. -/
theorem World.count_le_one {K : Event Op Reply → Bool}
    {F : Shared → Prop} {w₀ w : World handle Shared}
    (run : Run (World.step sem) Allowed w₀ w) (hstart : w₀.events = [])
    (hexternal : ∀ event s, F s → F (sem.external event s))
    (hkeep : ∀ op outcome s, F s → F (sem.perform op outcome s).2)
    (hfirst : ∀ (w : World handle Shared) index (call : Call handle) op
      next outcome, call.rest = .call op next →
      w.calls[index]? = some call →
      Allowed w (.advance index outcome) →
      K (w.stamp sem op outcome) = true →
      ¬ F w.shared ∧ F (sem.perform op outcome w.shared).2) :
    w.events.countP K ≤ 1 := by
  suffices h : w.events.countP K ≤ 1 ∧
      (¬ F w.shared → w.events.countP K = 0) from h.1
  refine World.invariant (I := fun w => w.events.countP K ≤ 1 ∧
    (¬ F w.shared → w.events.countP K = 0)) run ?_ ?_ ?_ ?_
  · simp [hstart]
  · intro w request h _
    simpa using h
  · intro w event h _
    exact ⟨h.1, fun hF => h.2 fun hold => hF (hexternal event _ hold)⟩
  · intro w index call op next outcome hrest hcall h hallowed
    rw [(w.events_perform_perm hrest hcall outcome).countP_eq,
      List.countP_cons]
    cases hK : K (w.stamp sem op outcome) with
    | false =>
        simp only [Bool.false_eq_true, ↓reduceIte, Nat.add_zero]
        exact ⟨h.1, fun hF => h.2 fun hold =>
          hF (hkeep op outcome _ hold)⟩
    | true =>
        obtain ⟨hbefore, hafter⟩ := hfirst w index call op next outcome
          hrest hcall hallowed hK
        rw [h.2 hbefore]
        exact ⟨by simp, fun hF => absurd hafter hF⟩

theorem countP_flatMap_le_of_getElem {β γ : Type*} (f : β → List γ)
    (K : γ → Bool) {l : List β} {i j : Nat} {x y : β} (hij : i < j)
    (hx : l[i]? = some x) (hy : l[j]? = some y) :
    (f x).countP K + (f y).countP K ≤ (l.flatMap f).countP K := by
  induction l generalizing i j with
  | nil => simp at hx
  | cons head tail ih =>
      obtain ⟨j, rfl⟩ : ∃ j', j = j' + 1 := ⟨j - 1, by omega⟩
      simp only [List.getElem?_cons_succ] at hy
      rw [List.flatMap_cons, List.countP_append]
      cases i with
      | zero =>
          simp only [List.getElem?_cons_zero, Option.some.injEq] at hx
          subst hx
          have hmem : y ∈ tail := List.mem_of_getElem? hy
          have hle : (f y).countP K ≤ (tail.flatMap f).countP K := by
            rw [List.countP_flatMap]
            exact List.single_le_sum (by simp) _
              (List.mem_map.mpr ⟨y, hmem, rfl⟩)
          omega
      | succ i =>
          simp only [List.getElem?_cons_succ] at hx
          have := ih (by omega) hx hy
          omega

/-- Two calls that both have an event of an exclusive kind are the same
call. -/
theorem World.index_eq_of_count_le_one {K : Event Op Reply → Bool}
    {w : World handle Shared} (hcount : w.events.countP K ≤ 1)
    {i j : Nat} {first second : Call handle}
    (hi : w.calls[i]? = some first) (hj : w.calls[j]? = some second)
    (hfirst : ∃ event ∈ first.trace, K event = true)
    (hsecond : ∃ event ∈ second.trace, K event = true) : i = j := by
  have hone : 0 < first.trace.countP K := List.countP_pos_iff.mpr hfirst
  have htwo : 0 < second.trace.countP K := List.countP_pos_iff.mpr hsecond
  by_contra hne
  rcases Nat.lt_or_gt_of_ne hne with hlt | hlt
  · have := countP_flatMap_le_of_getElem Call.trace K hlt hi hj
    simp only [World.events] at hcount
    omega
  · have := countP_flatMap_le_of_getElem Call.trace K hlt hj hi
    simp only [World.events] at hcount
    omega

/-- Every event was performed before the next step. -/
theorem World.order_lt_steps {w₀ w : World handle Shared}
    (run : Run (World.step sem) Allowed w₀ w) (hstart : w₀.events = []) :
    ∀ event ∈ w.events, event.order < w.steps := by
  refine World.invariant
    (I := fun w => ∀ event ∈ w.events, event.order < w.steps) run ?_ ?_
    (fun w event h _ => h) ?_
  · simp [hstart]
  · intro w request h _
    rw [World.events_arrive]
    exact h
  · intro w index call op next outcome hrest hcall h _ event hevent
    rcases (World.mem_events_perform hrest hcall).mp hevent with rfl | hold
    · exact Nat.lt_succ_self _
    · exact Nat.lt_succ_of_lt (h event hold)

theorem sum_map_le_one {β : Type*} (f : β → Nat) {l : List β}
    (hone : ∀ x ∈ l, f x ≤ 1)
    (hunique : ∀ (i j : Nat) x y, l[i]? = some x → l[j]? = some y →
      0 < f x → 0 < f y → i = j) : (l.map f).sum ≤ 1 := by
  induction l with
  | nil => simp
  | cons head tail ih =>
      rw [List.map_cons, List.sum_cons]
      have htail := ih (fun x hx => hone x (List.mem_cons_of_mem head hx))
        fun i j x y hx hy hfx hfy => by
          have heq := hunique (i + 1) (j + 1) x y (by simpa using hx)
            (by simpa using hy) hfx hfy
          omega
      by_cases hhead : 0 < f head
      · have hzero : (tail.map f).sum = 0 := by
          apply List.sum_eq_zero
          intro n hn
          obtain ⟨x, hx, rfl⟩ := List.mem_map.mp hn
          obtain ⟨j, hj⟩ := List.mem_iff_getElem?.mp hx
          by_contra hne
          have heq := hunique 0 (j + 1) head x rfl (by simpa using hj) hhead
            (Nat.pos_of_ne_zero hne)
          omega
        have := hone head List.mem_cons_self
        omega
      · omega

/-- A barrier: once an event of kind `B` has happened, no event of kind `K`
happens any more. -/
theorem World.before_barrier {B K : Event Op Reply → Prop}
    {F : Shared → Prop} {w₀ w : World handle Shared}
    (run : Run (World.step sem) Allowed w₀ w) (hstart : w₀.events = [])
    (hexternal : ∀ event s, F s → F (sem.external event s))
    (hkeep : ∀ op outcome s, F s → F (sem.perform op outcome s).2)
    (hbarrier : ∀ (w : World handle Shared) (index : Nat)
      (call : Call handle) op next outcome, call.rest = .call op next →
      w.calls[index]? = some call → Run (World.step sem) Allowed w₀ w →
      B (w.stamp sem op outcome) → F (sem.perform op outcome w.shared).2)
    (hblocked : ∀ op outcome s order,
      K ⟨op, (sem.perform op outcome s).1, order, sem.clock s⟩ → ¬ F s) :
    ∀ barrier ∈ w.events, B barrier → ∀ event ∈ w.events, K event →
      event = barrier ∨ event.order < barrier.order := by
  suffices h : ∀ barrier ∈ w.events, B barrier → F w.shared ∧
      ∀ event ∈ w.events, K event →
        event = barrier ∨ event.order < barrier.order from
    fun barrier hmem hB => (h barrier hmem hB).2
  refine World.reachable_invariant (I := fun w =>
    ∀ barrier ∈ w.events, B barrier → F w.shared ∧
      ∀ event ∈ w.events, K event →
        event = barrier ∨ event.order < barrier.order) run ?_ ?_ ?_ ?_
  · simp [hstart]
  · intro w request _ h _
    simp only [World.events_arrive]
    exact h
  · intro w event _ h _ barrier hmem hB
    exact ⟨hexternal event _ (h barrier hmem hB).1, (h barrier hmem hB).2⟩
  · intro w index call op next outcome hrest hcall hrun h _
    simp only [World.mem_events_perform hrest hcall]
    have hlt := World.order_lt_steps hrun hstart
    rintro barrier (rfl | hmem) hB
    · refine ⟨hbarrier w index call op next outcome hrest hcall hrun hB, ?_⟩
      rintro event (rfl | hevent) _
      · exact Or.inl rfl
      · exact Or.inr (hlt event hevent)
    · have hF := (h barrier hmem hB).1
      refine ⟨hkeep op outcome _ hF, ?_⟩
      rintro event (rfl | hevent) hK
      · exact absurd hF (hblocked op outcome w.shared w.steps hK)
      · exact (h barrier hmem hB).2 event hevent hK

/-- Within a call, later events have later stamps; no stamp lies ahead of the
run. -/
structure World.Stamped (sem : Semantics Op Reply Shared Outcome External)
    (w : World handle Shared) : Prop where
  order_lt : ∀ event ∈ w.events, event.order < w.steps
  time_le : ∀ event ∈ w.events, event.time ≤ sem.clock w.shared
  sorted : ∀ call ∈ w.calls, call.trace.Pairwise fun first second =>
    first.order < second.order ∧ first.time ≤ second.time

/-- The clock never runs backwards. -/
structure Semantics.ClockMonotone
    (sem : Semantics Op Reply Shared Outcome External) : Prop where
  perform : ∀ op outcome s, sem.clock s ≤ sem.clock (sem.perform op outcome s).2
  external : ∀ event s, sem.clock s ≤ sem.clock (sem.external event s)

theorem World.stamped {w₀ w : World handle Shared}
    (run : Run (World.step sem) Allowed w₀ w)
    (hclock : sem.ClockMonotone) (hstart : w₀.Stamped sem) :
    w.Stamped sem := by
  refine World.invariant (I := World.Stamped sem) run hstart ?_ ?_ ?_
  · intro w request h _
    refine ⟨?_, ?_, ?_⟩
    · rw [World.events_arrive]
      exact h.order_lt
    · rw [World.events_arrive]
      exact h.time_le
    intro call hcall
    rcases List.mem_append.mp hcall with hcall | hcall
    · exact h.sorted call hcall
    · rw [List.mem_singleton] at hcall
      subst hcall
      exact .nil
  · intro w event h _
    exact ⟨h.order_lt, fun e he =>
      Nat.le_trans (h.time_le e he) (hclock.external event _), h.sorted⟩
  · intro w index call op next outcome hrest hcall h _
    have hle := hclock.perform op outcome w.shared
    refine ⟨?_, ?_, ?_⟩
    · intro event hevent
      rcases (World.mem_events_perform hrest hcall).mp hevent with rfl | hold
      · exact Nat.lt_succ_self _
      · exact Nat.lt_succ_of_lt (h.order_lt event hold)
    · intro event hevent
      rcases (World.mem_events_perform hrest hcall).mp hevent with rfl | hold
      · exact hle
      · exact Nat.le_trans (h.time_le event hold) hle
    · intro other hother
      rcases List.mem_or_eq_of_mem_set hother with hother | rfl
      · exact h.sorted other hother
      · have hmem : call ∈ w.calls := List.mem_of_getElem? hcall
        rw [Call.resume_trace, List.pairwise_append]
        refine ⟨h.sorted call hmem, List.pairwise_singleton _ _, ?_⟩
        intro first hfirst second hsecond
        rw [List.mem_singleton] at hsecond
        subst hsecond
        exact ⟨h.order_lt first (World.mem_events hmem hfirst),
          h.time_le first (World.mem_events hmem hfirst)⟩

theorem World.stamped_start (shared : Shared) :
    (World.start handle shared).Stamped sem :=
  ⟨by simp, by simp, by simp [World.start]⟩

/-- What every arrival satisfies, every call's request satisfies. -/
theorem World.requests {P : Request → Prop} {w₀ w : World handle Shared}
    (run : Run (World.step sem) Allowed w₀ w)
    (hstart : ∀ call ∈ w₀.calls, P call.request)
    (harrive : ∀ w request, Allowed w (.arrive request) → P request) :
    ∀ call ∈ w.calls, P call.request := by
  refine World.invariant (I := fun w => ∀ call ∈ w.calls, P call.request)
    run hstart ?_ (fun w event h _ => h) ?_
  · intro w request h allowed call hcall
    rcases List.mem_append.mp hcall with hold | hnew
    · exact h call hold
    · rw [List.mem_singleton] at hnew
      subst hnew
      exact harrive w request allowed
  · intro w index call op next outcome hrest hcall h _ other hother
    rcases List.mem_or_eq_of_mem_set hother with hold | rfl
    · exact h other hold
    · exact h call (List.mem_of_getElem? hcall)

/-- What holds of a request and its event whenever a call takes a step holds of
everything the calls have done. -/
theorem World.each_event {P : Request → Event Op Reply → Prop}
    {w₀ w : World handle Shared} (run : Run (World.step sem) Allowed w₀ w)
    (hstart : w₀.events = [])
    (hperform : ∀ (w : World handle Shared) index (call : Call handle) op
      next outcome, call.rest = .call op next →
      w.calls[index]? = some call → Allowed w (.advance index outcome) →
      P call.request (w.stamp sem op outcome)) :
    ∀ call ∈ w.calls, ∀ event ∈ call.trace, P call.request event := by
  refine World.invariant (I := fun w => ∀ call ∈ w.calls,
    ∀ event ∈ call.trace, P call.request event) run ?_ ?_
    (fun w event h _ => h) ?_
  · intro call hcall event hevent
    have hmem := World.mem_events hcall hevent
    rw [hstart] at hmem
    exact absurd hmem List.not_mem_nil
  · intro w request h _ call hcall
    rcases List.mem_append.mp hcall with hold | hnew
    · exact h call hold
    · rw [List.mem_singleton] at hnew
      subst hnew
      exact fun _ hevent => absurd hevent List.not_mem_nil
  · intro w index call op next outcome hrest hcall h allowed other hother
    rcases List.mem_or_eq_of_mem_set hother with hold | rfl
    · exact h other hold
    · rw [Call.resume_trace, List.forall_mem_append]
      refine ⟨h call (List.mem_of_getElem? hcall), ?_⟩
      intro event hevent
      rw [List.mem_singleton] at hevent
      subst hevent
      exact hperform w index call op next outcome hrest hcall allowed

/-- Two different calls that have both done a thing of kind `K` are related by
`R`, when a call about to do one is related to those that already have. -/
theorem World.pairwise {K : Request → Event Op Reply → Prop}
    {R : Request → Request → Prop} (hsymm : ∀ a b, R a b → R b a)
    {w₀ w : World handle Shared} (run : Run (World.step sem) Allowed w₀ w)
    (hstart : w₀.events = [])
    (hperform : ∀ (w : World handle Shared) (index : Nat)
      (call : Call handle) op next outcome, call.rest = .call op next →
      w.calls[index]? = some call → Allowed w (.advance index outcome) →
      K call.request (w.stamp sem op outcome) →
      ∀ index' other, index' ≠ index → w.calls[index']? = some other →
        (∃ event ∈ other.trace, K other.request event) →
        R call.request other.request) :
    ∀ (i j : Nat) (first second : Call handle), i ≠ j →
      w.calls[i]? = some first → w.calls[j]? = some second →
      (∃ event ∈ first.trace, K first.request event) →
      (∃ event ∈ second.trace, K second.request event) →
      R first.request second.request := by
  refine World.invariant (I := fun w => ∀ (i j : Nat)
    (first second : Call handle), i ≠ j →
      w.calls[i]? = some first → w.calls[j]? = some second →
      (∃ event ∈ first.trace, K first.request event) →
      (∃ event ∈ second.trace, K second.request event) →
      R first.request second.request) run ?_ ?_ (fun w event h _ => h) ?_
  · intro i j first second _ hi _ hfirst _
    obtain ⟨event, hevent, _⟩ := hfirst
    have hmem := World.mem_events (List.mem_of_getElem? hi) hevent
    rw [hstart] at hmem
    exact absurd hmem List.not_mem_nil
  · intro w request h _ i j first second hne hi hj hfirst hsecond
    have hold : ∀ {k : Nat} {call : Call handle},
        (w.arrive request).calls[k]? = some call →
        (∃ event ∈ call.trace, K call.request event) →
        w.calls[k]? = some call := by
      rintro k call hk ⟨event, hevent, _⟩
      apply (World.getElem?_arrive hk).resolve_right
      exact List.ne_nil_of_mem hevent
    exact h i j first second hne (hold hi hfirst) (hold hj hsecond) hfirst
      hsecond
  · intro w index call op next outcome hrest hcall h allowed i j first
      second hne hi hj hfirst hsecond
    -- either both have done it before, or one of them does it in this step
    have hcase : ∀ {k : Nat} {c : Call handle},
        (w.perform sem index call hrest outcome).calls[k]? = some c →
        (∃ event ∈ c.trace, K c.request event) →
        ∃ c', w.calls[k]? = some c' ∧ c.request = c'.request ∧
          ((∃ event ∈ c'.trace, K c'.request event) ∨
            (k = index ∧ c' = call ∧
              K call.request (w.stamp sem op outcome))) := by
      rintro k c hk ⟨event, hevent, hK⟩
      obtain ⟨c', hk', hreq, htrace⟩ := World.getElem?_perform hrest hcall hk
      refine ⟨c', hk', hreq, ?_⟩
      rw [hreq] at hK
      rcases htrace with htrace | ⟨rfl, rfl, htrace⟩
      · exact Or.inl ⟨event, htrace ▸ hevent, hK⟩
      · rw [htrace, List.mem_append, List.mem_singleton] at hevent
        rcases hevent with hold | rfl
        · exact Or.inl ⟨event, hold, hK⟩
        · exact Or.inr ⟨rfl, rfl, hK⟩
    obtain ⟨first', hi', hreq, hdone⟩ := hcase hi hfirst
    obtain ⟨second', hj', hreq', hdone'⟩ := hcase hj hsecond
    rw [hreq, hreq']
    rcases hdone with hdone | ⟨rfl, rfl, hK⟩
    · rcases hdone' with hdone' | ⟨rfl, rfl, hK⟩
      · exact h i j first' second' hne hi' hj' hdone hdone'
      · exact hsymm _ _ (hperform w j second' op next outcome hrest hj'
          allowed hK i first' hne hi' hdone)
    · rcases hdone' with hdone' | ⟨rfl, _, _⟩
      · exact hperform w i first' op next outcome hrest hi' allowed hK j
          second' (Ne.symm hne) hj' hdone'
      · exact absurd rfl hne

/-- A barrier for the calls it finds: those that are still going on, and whose
trace up to an event of kind `B` satisfies `Q`, satisfy `R` from then on, so do
nothing of kind `K` after it. -/
theorem World.before_barrier_of_found {B : Event Op Reply → Prop}
    {Q : Request → List (Event Op Reply) → Prop} {R : Request → Shared → Prop}
    {K : Request → Event Op Reply → Prop}
    {w₀ w : World handle Shared} (run : Run (World.step sem) Allowed w₀ w)
    (hstart : w₀.events = []) (hnil : ∀ request, ¬ Q request [])
    (hexternal : ∀ request event s, R request s →
      R request (sem.external event s))
    (hkeep : ∀ request op outcome s, R request s →
      R request (sem.perform op outcome s).2)
    (hbarrier : ∀ (w : World handle Shared) index (call : Call handle) op
      next outcome, call.rest = .call op next →
      w.calls[index]? = some call →
      Allowed w (.advance index outcome) → B (w.stamp sem op outcome) →
      ∀ other ∈ w.calls, other.rest.op?.isSome = true →
        Q other.request other.trace →
        R other.request (sem.perform op outcome w.shared).2)
    (hblocked : ∀ request op outcome s order,
      K request ⟨op, (sem.perform op outcome s).1, order, sem.clock s⟩ →
      ¬ R request s) :
    ∀ barrier ∈ w.events, B barrier → ∀ call ∈ w.calls,
      (call.rest.op?.isSome = true ∨
        ∃ event ∈ call.trace, barrier.order < event.order) →
      Q call.request
        (call.trace.filter fun event => event.order < barrier.order) →
      R call.request w.shared ∧ ∀ event ∈ call.trace,
        K call.request event → event.order ≤ barrier.order := by
  refine World.reachable_invariant (I := fun w =>
    ∀ barrier ∈ w.events, B barrier → ∀ call ∈ w.calls,
      (call.rest.op?.isSome = true ∨
        ∃ event ∈ call.trace, barrier.order < event.order) →
      Q call.request
        (call.trace.filter fun event => event.order < barrier.order) →
      R call.request w.shared ∧ ∀ event ∈ call.trace,
        K call.request event → event.order ≤ barrier.order) run ?_ ?_ ?_ ?_
  · simp [hstart]
  · intro w request _ h _ barrier hbarrier' hB call hcall hgoes hQ
    rw [World.events_arrive] at hbarrier'
    rcases List.mem_append.mp hcall with hold | hnew
    · exact h barrier hbarrier' hB call hold hgoes hQ
    · rw [List.mem_singleton] at hnew
      subst hnew
      exact absurd hQ (hnil request)
  · intro w event _ h _ barrier hbarrier' hB call hcall hgoes hQ
    obtain ⟨hR, hK⟩ := h barrier hbarrier' hB call hcall hgoes hQ
    exact ⟨hexternal _ event _ hR, hK⟩
  · intro w index call op next outcome hrest hcall hrun h allowed
    have hlt := World.order_lt_steps hrun hstart
    -- the new event comes after every barrier, so no filtered trace changes,
    -- and the call that performs it was going on
    have hbefore : ∀ n ≤ w.steps, ∀ other ∈
        (w.perform sem index call hrest outcome).calls,
        ∃ other' ∈ w.calls, other.request = other'.request ∧
          (∀ event ∈ other.trace, event ∈ other'.trace ∨
            event = w.stamp sem op outcome) ∧
          other.trace.filter (fun event => event.order < n) =
            other'.trace.filter (fun event => event.order < n) ∧
          (other' = other ∨ other'.rest.op?.isSome = true) := by
      intro n hn other hother
      obtain ⟨k, hk⟩ := List.mem_iff_getElem?.mp hother
      rcases World.getElem?_perform_cases hk with ⟨_, rfl⟩ | ⟨_, hk'⟩
      · refine ⟨call, List.mem_of_getElem? hcall, rfl, ?_, ?_, ?_⟩
        · intro event hevent
          rwa [Call.resume_trace, List.mem_append, List.mem_singleton]
            at hevent
        · rw [Call.resume_trace, List.filter_append]
          simp [Nat.not_lt.mpr hn]
        · rw [hrest]
          exact Or.inr rfl
      · exact ⟨other, List.mem_of_getElem? hk', rfl, fun _ => Or.inl, rfl,
          Or.inl rfl⟩
    intro barrier hbarrier' hB other hother hgoes hQ
    rcases (World.mem_events_perform hrest hcall).mp hbarrier' with rfl | hold
    · obtain ⟨other', hother', hreq, hsplit, htrace, hsame⟩ :=
        hbefore w.steps (Nat.le_refl _) other hother
      have hle : ∀ event ∈ other.trace, event.order ≤ w.steps := by
        intro event hevent
        rcases hsplit event hevent with hevent | rfl
        · exact Nat.le_of_lt (hlt event (World.mem_events hother' hevent))
        · exact Nat.le_refl _
      have hgoes' : other'.rest.op?.isSome = true := by
        rcases hsame with rfl | hgoes'
        · rcases hgoes with hgoes | ⟨event, hevent, hlater⟩
          · exact hgoes
          · exact absurd hlater (Nat.not_lt.mpr (hle event hevent))
        · exact hgoes'
      have hall : other'.trace.filter (fun event => event.order < w.steps) =
          other'.trace := List.filter_eq_self.mpr fun event hevent =>
        decide_eq_true (hlt event (World.mem_events hother' hevent))
      rw [hreq, show (w.stamp sem op outcome).order = w.steps from rfl,
        htrace, hall] at hQ
      rw [hreq]
      exact ⟨hbarrier w index call op next outcome hrest hcall allowed hB
        other' hother' hgoes' hQ, fun event hevent _ => hle event hevent⟩
    · obtain ⟨other', hother', hreq, hsplit, htrace, hsame⟩ :=
        hbefore barrier.order (Nat.le_of_lt (hlt barrier hold)) other hother
      have hgoes' : other'.rest.op?.isSome = true ∨
          ∃ event ∈ other'.trace, barrier.order < event.order := by
        rcases hsame with rfl | hgoes'
        · exact hgoes
        · exact Or.inl hgoes'
      rw [hreq, htrace] at hQ
      rw [hreq]
      obtain ⟨hR, hK⟩ := h barrier hold hB other' hother' hgoes' hQ
      refine ⟨hkeep _ op outcome _ hR, ?_⟩
      intro event hevent hkind
      rcases hsplit event hevent with hevent | rfl
      · exact hK event hevent hkind
      · exact absurd hR (hblocked _ op outcome w.shared w.steps hkind)

end Interaction

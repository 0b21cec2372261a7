/-
The history of a run: the operations its steps performed, in order, each with
the request that asked for it.  What a run has done to the shared state can be
told from its history alone, and every event of a call stands in it at the
moment the call performed it.
-/
import X402Guard.CallReplay
import X402Guard.RunHistory

namespace Interaction

universe u

variable {Op : Type u} {Reply : Op → Type u} {ε α : Type u}
variable {Request Shared Outcome External : Type u}
variable {handle : Request → Prog Op Reply ε α}
variable {sem : Semantics Op Reply Shared Outcome External}

/-- A run takes the steps of a trail, each of them allowed. -/
theorem Run.exists_trail {σ ι : Type*} {step : σ → ι → Option σ}
    {Allowed : σ → ι → Prop} {s t : σ} (run : Run step Allowed s t) :
    ∃ steps, Trail step s steps t ∧
      ∀ taken ∈ steps, Allowed taken.before taken.action := by
  induction run with
  | refl => exact ⟨[], .nil _, fun _ hnil => by cases hnil⟩
  | snoc _ allowed taken ih =>
      obtain ⟨steps, trail, hallowed⟩ := ih
      refine ⟨_, trail.snoc taken, ?_⟩
      rw [List.forall_mem_append, List.forall_mem_singleton]
      exact ⟨hallowed, allowed⟩

/-- The operation a step performed and the request it was performed for, if it
performed one. -/
def World.performed? (sem : Semantics Op Reply Shared Outcome External)
    (taken : Taken (World handle Shared) (Action Request External Outcome)) :
    Option (Request × Event Op Reply) :=
  match taken.action with
  | .advance index outcome =>
      (taken.before.calls[index]?).bind fun call => call.rest.op?.map
        fun op => (call.request, taken.before.stamp sem op outcome)
  | _ => none

/-- What the steps performed. -/
def World.history (sem : Semantics Op Reply Shared Outcome External)
    (steps : List (Taken (World handle Shared)
      (Action Request External Outcome))) : List (Request × Event Op Reply) :=
  steps.filterMap (World.performed? sem)

theorem World.performed?_advance {w w' : World handle Shared} {index : Nat}
    {outcome : Outcome} {call : Call handle} {op : Op}
    {next : Reply op → Prog Op Reply ε α} (hrest : call.rest = .call op next)
    (hcall : w.calls[index]? = some call) :
    World.performed? sem ⟨w, .advance index outcome, w'⟩ =
      some (call.request, w.stamp sem op outcome) := by
  simp only [World.performed?, hcall, Option.bind_some,
    Prog.op?_eq_some_iff.mpr ⟨next, hrest⟩, Option.map_some]

theorem World.history_snoc (steps : List (Taken (World handle Shared)
      (Action Request External Outcome)))
    (last : Taken (World handle Shared) (Action Request External Outcome)) :
    World.history sem (steps ++ [last]) =
      World.history sem steps ++ (World.performed? sem last).toList := by
  rw [World.history, List.filterMap_append]
  cases hlast : World.performed? sem last <;>
    simp [World.history, hlast]

/-- A step at which the call at `index` performed `event`. -/
structure World.PerformsAt
    (sem : Semantics Op Reply Shared Outcome External) (index : Nat)
    (event : Event Op Reply)
    (taken : Taken (World handle Shared) (Action Request External Outcome))
    (call : Call handle) : Prop where
  called : taken.before.calls[index]? = some call
  asked : ∃ next, call.rest = .call event.op next
  done : ∃ outcome, taken.action = .advance index outcome ∧
    event = taken.before.stamp sem event.op outcome

/-- Every event of a call was performed at a step of the run, when the call had
done what comes before it in its trace. -/
theorem World.exists_performsAt {w₀ w : World handle Shared}
    {steps : List (Taken (World handle Shared)
      (Action Request External Outcome))}
    (trail : Trail (World.step sem) w₀ steps w) (hstart : w₀.calls = [])
    {index : Nat} {call : Call handle} (hcall : w.calls[index]? = some call)
    {first second : List (Event Op Reply)} {event : Event Op Reply}
    (htrace : call.trace = first ++ event :: second) :
    ∃ earlier taken later before, steps = earlier ++ taken :: later ∧
      World.PerformsAt sem index event taken before ∧
      before.request = call.request ∧ before.trace = first := by
  induction trail generalizing call second with
  | nil => simp [hstart] at hcall
  | @snoc t t' steps action trail taken ih =>
      -- a call that was there already has performed the event already
      have hold : ∀ {old : Call handle} {rest : List (Event Op Reply)},
          t.calls[index]? = some old → old.request = call.request →
          old.trace = first ++ event :: rest →
          ∃ earlier taken later before,
            steps ++ [⟨t, action, t'⟩] = earlier ++ taken :: later ∧
            World.PerformsAt sem index event taken before ∧
            before.request = call.request ∧ before.trace = first := by
        intro old rest hcalled hrequest hprefix
        obtain ⟨earlier, found, later, before, rfl, hperforms, hsame, heq⟩ :=
          ih hcalled hprefix
        exact ⟨earlier, found, later ++ [⟨t, action, t'⟩], before, by simp,
          hperforms, hsame.trans hrequest, heq⟩
      cases action with
      | arrive request =>
          cases taken
          rcases World.getElem?_arrive_cases hcall with
            ⟨_, hcalled⟩ | ⟨_, rfl⟩
          · exact hold hcalled rfl htrace
          · simp [Call.start] at htrace
      | external moved =>
          cases taken
          exact hold hcall rfl htrace
      | advance i outcome =>
          obtain ⟨caller, op, next, hrest, hcaller, rfl⟩ :=
            World.step_advance taken
          rcases World.getElem?_perform_cases hcall with
            ⟨rfl, rfl⟩ | ⟨_, hcalled⟩
          · rw [Call.resume_trace] at htrace
            induction second using List.reverseRecOn with
            | nil =>
                obtain ⟨hfirst, hlast⟩ := List.append_inj' htrace rfl
                rw [List.singleton_inj] at hlast
                subst hlast
                exact ⟨steps, _, [], caller, rfl,
                  ⟨hcaller, ⟨next, hrest⟩, outcome, rfl, rfl⟩, rfl, hfirst⟩
            | append_singleton second last _ =>
                rw [← List.cons_append, ← List.append_assoc] at htrace
                exact hold hcaller rfl (List.append_inj' htrace rfl).1
          · exact hold hcalled rfl htrace

/-- What the calls have done, with the requests it was done for. -/
def World.done (w : World handle Shared) : List (Request × Event Op Reply) :=
  w.calls.flatMap fun call => call.trace.map fun event =>
    (call.request, event)

/-- What they had done before the given step. -/
def World.doneBefore (w : World handle Shared) (order : Nat) :
    Set (Request × Event Op Reply) :=
  {done | done ∈ w.done ∧ done.2.order < order}

theorem World.mem_done_iff {w : World handle Shared}
    {done : Request × Event Op Reply} :
    done ∈ w.done ↔
      ∃ call ∈ w.calls, call.request = done.1 ∧ done.2 ∈ call.trace := by
  simp only [World.done, List.mem_flatMap, List.mem_map]
  constructor
  · rintro ⟨call, hcall, event, hevent, rfl⟩
    exact ⟨call, hcall, rfl, hevent⟩
  · rintro ⟨call, hcall, hrequest, hevent⟩
    exact ⟨call, hcall, done.2, hevent, Prod.ext hrequest rfl⟩

theorem World.mem_events_of_done {w : World handle Shared}
    {done : Request × Event Op Reply} (h : done ∈ w.done) :
    done.2 ∈ w.events := by
  obtain ⟨call, hcall, _, hevent⟩ := World.mem_done_iff.mp h
  exact World.mem_events hcall hevent

@[simp] theorem World.done_arrive (w : World handle Shared)
    (request : Request) : (w.arrive request).done = w.done := by
  simp [World.done, World.arrive, Call.start]

theorem World.mem_done_perform {w : World handle Shared} {index : Nat}
    {call : Call handle} {op : Op} {next : Reply op → Prog Op Reply ε α}
    (hrest : call.rest = .call op next)
    (hcall : w.calls[index]? = some call) {outcome : Outcome}
    {done : Request × Event Op Reply} :
    done ∈ (w.perform sem index call hrest outcome).done ↔
      done = (call.request, w.stamp sem op outcome) ∨ done ∈ w.done := by
  have hperm : (w.perform sem index call hrest outcome).done.Perm
      ((call.request, w.stamp sem op outcome) :: w.done) :=
    flatMap_set_snoc_perm (fun call : Call handle =>
      call.trace.map fun event => (call.request, event))
      (by simp [World.stamp]) hcall
  rw [hperm.mem_iff, List.mem_cons]

/-- An operation changes nothing of what was done before it. -/
theorem World.doneBefore_perform {w : World handle Shared} {index : Nat}
    {call : Call handle} {op : Op} {next : Reply op → Prog Op Reply ε α}
    (hrest : call.rest = .call op next)
    (hcall : w.calls[index]? = some call) {outcome : Outcome} {order : Nat}
    (h : order ≤ w.steps) :
    (w.perform sem index call hrest outcome).doneBefore order =
      w.doneBefore order := by
  ext done
  refine (and_congr_left fun hlt => ?_)
  rw [World.mem_done_perform hrest hcall, or_iff_right]
  rintro rfl
  exact absurd hlt (Nat.not_lt.mpr h)

/-- All that has been done was done before the next step. -/
theorem World.doneBefore_steps {Allowed : World handle Shared →
      Action Request External Outcome → Prop} {w₀ w : World handle Shared}
    (run : Run (World.step sem) Allowed w₀ w) (hstart : w₀.events = []) :
    w.doneBefore w.steps = {done | done ∈ w.done} := by
  have hlt := World.order_lt_steps run hstart
  ext done
  exact ⟨And.left, fun hdone =>
    ⟨hdone, hlt _ (World.mem_events_of_done hdone)⟩⟩

/-- Every event was performed in a world that the run went through, in which
all that comes before it had been done. -/
theorem World.exists_moment {Allowed : World handle Shared →
      Action Request External Outcome → Prop} {w₀ w : World handle Shared}
    (run : Run (World.step sem) Allowed w₀ w) (hstart : w₀.events = []) :
    ∀ event ∈ w.events, ∃ before outcome,
      Run (World.step sem) Allowed w₀ before ∧
      event = before.stamp sem event.op outcome ∧
      w.doneBefore event.order = {done | done ∈ before.done} := by
  refine World.reachable_invariant (I := fun w => ∀ event ∈ w.events,
    ∃ before outcome, Run (World.step sem) Allowed w₀ before ∧
      event = before.stamp sem event.op outcome ∧
      w.doneBefore event.order = {done | done ∈ before.done}) run ?_ ?_ ?_ ?_
  · simp [hstart]
  · intro w request _ h _
    simpa [World.doneBefore] using h
  · intro w external _ h _
    exact h
  · intro w index call op next outcome hrest hcall hrun h _ event hevent
    rcases (World.mem_events_perform hrest hcall).mp hevent with rfl | hold
    · exact ⟨w, outcome, hrun, rfl, (World.doneBefore_perform hrest hcall
        (Nat.le_refl w.steps)).trans (World.doneBefore_steps hrun hstart)⟩
    · have hlt := World.order_lt_steps hrun hstart event hold
      rw [World.doneBefore_perform hrest hcall (Nat.le_of_lt hlt)]
      exact h event hold

/-- What is asked of all requests of a run was asked of those before each of its
steps. -/
theorem World.forall_requests_before {P : Request → Prop}
    {w₀ w : World handle Shared} {steps : List (Taken (World handle Shared)
      (Action Request External Outcome))}
    (trail : Trail (World.step sem) w₀ steps w)
    (h : ∀ call ∈ w.calls, P call.request) :
    ∀ taken ∈ steps, ∀ call ∈ taken.before.calls, P call.request := by
  have hall : ∀ request ∈ w.calls.map Call.request, P request := by
    simpa using h
  clear h
  suffices hsub : ∀ taken ∈ steps, taken.before.calls.map Call.request ⊆
      w.calls.map Call.request by
    intro taken htaken call hcall
    exact hall _ (hsub taken htaken (List.mem_map_of_mem hcall))
  clear hall
  induction trail with
  | nil => simp
  | @snoc t t' steps action trail taken ih =>
      have hgrows : t.calls.map Call.request ⊆ t'.calls.map Call.request := by
        rw [World.requests_step taken]
        exact List.subset_append_left _ _
      intro step hstep
      rw [List.mem_append, List.mem_singleton] at hstep
      rcases hstep with hstep | rfl
      · exact List.Subset.trans (ih step hstep) hgrows
      · exact hgrows

/-- A relation between the shared state and an abstract one that every
operation keeps, the abstract state following the history, holds throughout.
What is asked of the requests need only be asked of the calls at the end. -/
theorem World.refines {A : Type*} {R : Shared → A → Prop}
    {P : Request → Prop} (follow : A → Request × Event Op Reply → A)
    {w₀ w : World handle Shared}
    {steps : List (Taken (World handle Shared)
      (Action Request External Outcome))}
    (trail : Trail (World.step sem) w₀ steps w) {a₀ : A}
    (hstart : R w₀.shared a₀) (hrequests : ∀ call ∈ w.calls, P call.request)
    (hexternal : ∀ event s a, R s a → R (sem.external event s) a)
    (hperform : ∀ (s : Shared) (call : Call handle) op next outcome
      (a : A) order, call.rest = .call op next → P call.request → R s a →
      R (sem.perform op outcome s).2 (follow a (call.request,
        ⟨op, (sem.perform op outcome s).1, order, sem.clock s⟩))) :
    R w.shared ((World.history sem steps).foldl follow a₀) := by
  have hall : ∀ request ∈ w.calls.map Call.request, P request := by
    simpa using hrequests
  clear hrequests
  induction trail with
  | nil => exact hstart
  | @snoc t t' steps action trail taken ih =>
      have hbefore : ∀ request ∈ t.calls.map Call.request, P request := by
        intro request hrequest
        refine hall request ?_
        rw [World.requests_step taken]
        exact List.mem_append_left _ hrequest
      have hsofar := ih hbefore
      rw [World.history_snoc, List.foldl_append]
      cases action with
      | arrive request =>
          cases taken
          exact hsofar
      | external event =>
          cases taken
          exact hexternal event _ _ hsofar
      | advance index outcome =>
          obtain ⟨call, op, next, hrest, hcall, rfl⟩ :=
            World.step_advance taken
          rw [World.performed?_advance hrest hcall]
          have hrequest : P call.request := hbefore _
            (List.mem_map_of_mem (List.mem_of_getElem? hcall))
          exact hperform t.shared call op next outcome _ t.steps hrest
            hrequest hsofar

end Interaction

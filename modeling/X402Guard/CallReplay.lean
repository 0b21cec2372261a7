/-
Replays of a run.  A replay keeps what a world keeps but the proof that each
trace belongs to its program, and takes the programs of arriving calls as
given, so that they can be simplified before the replay is evaluated.
-/
import X402Guard.InterleavedCalls

namespace Interaction

universe u

variable {Op : Type u} {Reply : Op → Type u} {ε α : Type u}
variable {Request Shared Outcome External : Type u}

structure Thread (Op : Type u) (Reply : Op → Type u) (ε α Request : Type u)
    where
  request : Request
  trace : List (Event Op Reply)
  rest : Prog Op Reply ε α

structure Replay (Op : Type u) (Reply : Op → Type u)
    (ε α Request Shared : Type u) where
  shared : Shared
  threads : List (Thread Op Reply ε α Request)
  steps : Nat

/-- An arrival together with the program that serves it. -/
def Action.withProgram (handle : Request → Prog Op Reply ε α) :
    Action Request External Outcome →
      Action (Request × Prog Op Reply ε α) External Outcome
  | .arrive request => .arrive (request, handle request)
  | .external event => .external event
  | .advance index outcome => .advance index outcome

def Replay.step (sem : Semantics Op Reply Shared Outcome External)
    (r : Replay Op Reply ε α Request Shared) :
    Action (Request × Prog Op Reply ε α) External Outcome →
      Option (Replay Op Reply ε α Request Shared)
  | .arrive (request, program) =>
      some { r with threads := r.threads ++ [⟨request, [], program⟩] }
  | .external event => some { r with shared := sem.external event r.shared }
  | .advance index outcome =>
      match r.threads[index]? with
      | some ⟨request, trace, .call op next⟩ =>
          let reply := sem.perform op outcome r.shared
          some {
            shared := reply.2
            threads := r.threads.set index ⟨request, trace ++
              [⟨op, reply.1, r.steps, sem.clock r.shared⟩], next reply.1⟩
            steps := r.steps + 1 }
      | _ => none

variable {handle : Request → Prog Op Reply ε α}
variable {sem : Semantics Op Reply Shared Outcome External}

def Call.toThread (call : Call handle) : Thread Op Reply ε α Request :=
  ⟨call.request, call.trace, call.rest⟩

def World.toReplay (w : World handle Shared) :
    Replay Op Reply ε α Request Shared :=
  ⟨w.shared, w.calls.map Call.toThread, w.steps⟩

/-- A replay takes exactly the steps of the world. -/
theorem World.step_toReplay (w : World handle Shared)
    (action : Action Request External Outcome) :
    (w.step sem action).map World.toReplay =
      w.toReplay.step sem (action.withProgram handle) := by
  cases action with
  | arrive request =>
      simp [World.step, World.arrive, Action.withProgram, Replay.step,
        World.toReplay, Call.start, Call.toThread]
  | external event => rfl
  | advance index outcome =>
      simp only [World.step, Action.withProgram, Replay.step, World.toReplay,
        List.getElem?_map]
      cases hcall : w.calls[index]? with
      | none => rfl
      | some call =>
          simp only [Option.map_some, Call.toThread]
          obtain ⟨request, trace, rest, reached⟩ := call
          cases rest with
          | ret value => rfl
          | throw error => rfl
          | call op next =>
              simp [World.perform, World.toReplay, Call.toThread,
                Call.resume, List.map_set]

/-- The request that arrives, if one does. -/
def Action.request? : Action Request External Outcome → Option Request
  | .arrive request => some request
  | _ => none

theorem World.requests_step {w w' : World handle Shared}
    {action : Action Request External Outcome}
    (h : w.step sem action = some w') :
    w'.calls.map Call.request =
      w.calls.map Call.request ++ action.request?.toList := by
  cases action with
  | arrive request =>
      cases h
      simp [World.arrive, Call.start, Action.request?]
  | external event =>
      cases h
      simp [Action.request?]
  | advance index outcome =>
      obtain ⟨call, op, next, hrest, hcall, rfl⟩ := World.step_advance h
      obtain ⟨hlt, rfl⟩ := List.getElem?_eq_some_iff.mp hcall
      simp only [World.perform, List.map_set, Call.resume_request,
        Action.request?, Option.toList_none, List.append_nil]
      have hlen : index < (w.calls.map Call.request).length := by
        rwa [List.length_map]
      have hsame : w.calls[index].request =
          (w.calls.map Call.request)[index] :=
        (List.getElem_map Call.request).symm
      rw [hsame, List.set_getElem_self]

/-- What the calls ask for, read off their requests. -/
theorem World.map_request {β : Type*} (g : Request → β)
    {w : World handle Shared} {requests : List Request}
    (h : w.calls.map Call.request = requests) :
    w.calls.map (fun call => g call.request) = requests.map g := by
  rw [← h, List.map_map]
  rfl

/-- The two calls of a world. -/
theorem World.calls_eq_pair {w : World handle Shared} {a b : Request}
    (h : w.calls.map Call.request = [a, b]) :
    ∃ first second, w.calls = [first, second] ∧ first.request = a ∧
      second.request = b := by
  obtain ⟨first, rest, hcalls, hfirst, hrest⟩ := List.map_eq_cons_iff.mp h
  obtain ⟨second, hsecond, heq⟩ := List.map_eq_singleton_iff.mp hrest
  rw [hsecond] at hcalls
  exact ⟨first, second, hcalls, hfirst, heq⟩

/-- A replay that can be evaluated gives a run of the world it is taken from,
with the same observations. -/
theorem World.exists_run_of_replay {β : Type*}
    {Allowed : World handle Shared →
      Action Request External Outcome → Prop}
    (observe : Replay Op Reply ε α Request Shared → β)
    (ok : Replay Op Reply ε α Request Shared →
      Action (Request × Prog Op Reply ε α) External Outcome → Bool)
    (hok : ∀ (w : World handle Shared) action,
      ok w.toReplay (action.withProgram handle) = true → Allowed w action)
    {w : World handle Shared} {value : β}
    (actions : List (Action Request External Outcome))
    (h : (exec (Replay.step sem) ok w.toReplay
      (actions.map (Action.withProgram handle))).map observe = some value) :
    ∃ w', Run (World.step sem) Allowed w w' ∧
      observe w'.toReplay = value ∧
      w'.calls.map Call.request =
        w.calls.map Call.request ++ actions.filterMap Action.request? := by
  induction actions generalizing w with
  | nil =>
      simp only [List.map_nil, exec, Option.map_some, Option.some.injEq] at h
      exact ⟨w, .refl w, h, by simp⟩
  | cons action rest ih =>
      simp only [List.map_cons, exec] at h
      split at h
      · rename_i hallowed
        rw [← World.step_toReplay] at h
        cases htaken : w.step sem action with
        | none => simp [htaken] at h
        | some next =>
            simp only [htaken, Option.map_some, Option.bind_some] at h
            obtain ⟨w', run, hvalue, hrequests⟩ := ih h
            refine ⟨w', Run.trans (.snoc (.refl w) (hok w action hallowed)
              htaken) run, hvalue, ?_⟩
            rw [hrequests, World.requests_step htaken, List.append_assoc]
            cases haction : action.request? <;> simp [haction]
      · cases h

end Interaction

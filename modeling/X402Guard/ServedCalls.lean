/-
Clients that are served by a system.  A client makes calls to the system and
does things of its own, in any order and under any interleaving with other
clients; a run of all of them is, for the system, a run of the calls they make.
What is proved of every run of the system is so true under all such clients.
-/
import X402Guard.CallReplay
import X402Guard.TraceLogic

namespace Interaction

universe u

variable {Op Op' : Type u} {Reply : Op → Type u} {Reply' : Op' → Type u}
variable {ε ε' α β Request Client Shared Outcome Outcome' External : Type u}

/-- The operation is not one of those that are embedded. -/
def Embedding.Own (e : Embedding Op Reply Op' Reply') (op : Op') : Prop :=
  ∀ reply order time, e.project ⟨op, reply, order, time⟩ = none

/-- The embedded operations do what they do in the system, and the others do
nothing to it. -/
structure Embedding.Simulates (e : Embedding Op Reply Op' Reply')
    (sem : Semantics Op Reply Shared Outcome External)
    (sem' : Semantics Op' Reply' Shared Outcome' External) where
  outcome : Outcome' → Outcome
  perform_reply : ∀ op o s, e.reply op (sem'.perform (e.inject op) o s).1 =
    (sem.perform op (outcome o) s).1
  perform_shared : ∀ op o s, (sem'.perform (e.inject op) o s).2 =
    (sem.perform op (outcome o) s).2
  perform_own : ∀ op o s, e.Own op → (sem'.perform op o s).2 = s
  external : sem'.external = sem.external
  clock : sem'.clock = sem.clock

variable {handle : Request → Prog Op Reply ε α}
variable {serve : Client → Prog Op' Reply' ε' β}
variable {e : Embedding Op Reply Op' Reply'} {P : Request → Prop}

/-- The program makes calls to the system, with requests that `P` holds of, and
performs operations of its own. -/
inductive Prog.Serves (handle : Request → Prog Op Reply ε α)
    (e : Embedding Op Reply Op' Reply') (P : Request → Prop) :
    Prog Op' Reply' ε' β → Prop
  | ret (value : β) : Serves handle e P (.ret value)
  | throw (error : ε') : Serves handle e P (.throw error)
  | own {op : Op'} {next : Reply' op → Prog Op' Reply' ε' β}
      (hown : e.Own op) (hnext : ∀ reply, (next reply).Serves handle e P) :
      Serves handle e P (.call op next)
  | serve {request : Request} {k : Except ε α → Prog Op' Reply' ε' β}
      (hrequest : P request) (hk : ∀ result, (k result).Serves handle e P) :
      Serves handle e P ((handle request).attempt.embed e >>= k)

namespace Prog

/-- What such a program does next: nothing, something of its own, or the first
operation of a call. -/
theorem Serves.head {p : Prog Op' Reply' ε' β} (h : p.Serves handle e P) :
    p.op? = none ∨
    (∃ op next, p = .call op next ∧ e.Own op ∧
      ∀ reply, (next reply).Serves handle e P) ∨
    ∃ request op next k, P request ∧ handle request = .call op next ∧
      p = (handle request).attempt.embed e >>= k ∧
      ∀ result, (k result).Serves handle e P := by
  induction h with
  | ret => exact Or.inl rfl
  | throw => exact Or.inl rfl
  | own hown hnext => exact Or.inr (Or.inl ⟨_, _, rfl, hown, hnext⟩)
  | @serve request k hrequest hk ih =>
      cases hhandle : handle request with
      | ret value => exact ih (.ok value)
      | throw error => exact ih (.error error)
      | call op next =>
          exact Or.inr (Or.inr
            ⟨request, op, next, k, hrequest, hhandle, by rw [hhandle], hk⟩)

theorem Serves.bind {γ : Type u} {p : Prog Op' Reply' ε' β}
    {f : β → Prog Op' Reply' ε' γ} (hp : p.Serves handle e P)
    (hf : ∀ value, (f value).Serves handle e P) :
    (p >>= f).Serves handle e P := by
  induction hp with
  | ret value => exact hf value
  | throw error => exact .throw error
  | own hown _ ih => exact .own hown ih
  | serve hrequest _ ih =>
      rw [bind_assoc]
      exact .serve hrequest ih

theorem attempt_attempt_embed_bind {ε'' : Type u} {q : Prog Op Reply ε α}
    {k : Except ε α → Prog Op' Reply' ε' β} :
    ((q.attempt.embed e >>= k).attempt : Prog Op' Reply' ε'' (Except ε' β)) =
      q.attempt.embed e >>= fun result => (k result).attempt := by
  induction q with
  | ret value => rfl
  | throw error => rfl
  | call op next ih => exact congrArg _ (funext fun reply => ih _)

theorem Serves.attempt {ε'' : Type u} {p : Prog Op' Reply' ε' β}
    (hp : p.Serves handle e P) :
    (p.attempt : Prog Op' Reply' ε'' (Except ε' β)).Serves handle e P := by
  induction hp with
  | ret value => exact .ret (Except.ok value)
  | throw error => exact .ret (Except.error error)
  | own hown _ ih => exact .own hown ih
  | serve hrequest _ ih =>
      rw [attempt_attempt_embed_bind]
      exact .serve hrequest ih

end Prog

/-- An event but for its place in the run. -/
def Event.unordered (event : Event Op Reply) : Event Op Reply :=
  { event with order := 0 }

/-- Where a client stands in the world of the calls that were made: between
calls, or in the call at an index. -/
inductive World.Stands (e : Embedding Op Reply Op' Reply')
    (P : Request → Prop) (w : World handle Shared) :
    Option Nat → Prog Op' Reply' ε' β → Prop
  | between {p : Prog Op' Reply' ε' β} (h : p.Serves handle e P) :
      Stands e P w none p
  | within {index : Nat} {call : Call handle}
      {k : Except ε α → Prog Op' Reply' ε' β}
      (hcall : w.calls[index]? = some call)
      (hk : ∀ result, (k result).Serves handle e P) :
      Stands e P w (some index) (call.rest.attempt.embed e >>= k)

/-- The world of the calls mirrors the world of the clients. -/
structure World.Mirrors (e : Embedding Op Reply Op' Reply')
    (P : Request → Prop) (w : World handle Shared) (w' : World serve Shared)
    (place : Nat → Option Nat) : Prop where
  shared : w.shared = w'.shared
  stands : ∀ index call, w'.calls[index]? = some call →
    World.Stands e P w (place index) call.rest
  beyond : ∀ index, w'.calls.length ≤ index → place index = none
  distinct : ∀ i j index, place i = some index → place j = some index → i = j
  events : ((w'.events.filterMap e.project).map Event.unordered).Perm
    (w.events.map Event.unordered)
  requests : ∀ call ∈ w.calls, P call.request

/-- A client goes on standing where it stands if its call is left alone. -/
theorem World.Stands.mono {w w₁ : World handle Shared} {place : Option Nat}
    {p : Prog Op' Reply' ε' β} (h : World.Stands e P w place p)
    (hcalls : ∀ index call, place = some index →
      w.calls[index]? = some call → w₁.calls[index]? = some call) :
    World.Stands e P w₁ place p := by
  cases h with
  | between h => exact .between h
  | within hcall hk => exact .within (hcalls _ _ rfl hcall) hk

theorem World.Stands.exists_call {w : World handle Shared} {index : Nat}
    {p : Prog Op' Reply' ε' β} (h : World.Stands e P w (some index) p) :
    ∃ call, w.calls[index]? = some call := by
  cases h with
  | within hcall _ => exact ⟨_, hcall⟩

/-- What a client does next is of its own, or the next operation of the call it
is in, or the first one of a call that it makes. -/
def World.Next (e : Embedding Op Reply Op' Reply') (P : Request → Prop)
    (w : World handle Shared) (place : Option Nat) (op : Op')
    (next : Reply' op → Prog Op' Reply' ε' β) : Prop :=
  (e.Own op ∧ ∀ reply, (next reply).Serves handle e P) ∨
  ∃ (call : Call handle) (own : Op) (rest : Reply own → Prog Op Reply ε α)
    (k : Except ε α → Prog Op' Reply' ε' β), call.rest = .call own rest ∧
    Prog.call op next = call.rest.attempt.embed e >>= k ∧
    (∀ result, (k result).Serves handle e P) ∧
    ((∃ index, place = some index ∧ w.calls[index]? = some call) ∨
      call = Call.start handle call.request ∧ P call.request)

theorem World.next_of_serves {w : World handle Shared} {place : Option Nat}
    {op : Op'} {next : Reply' op → Prog Op' Reply' ε' β}
    (h : (Prog.call op next).Serves handle e P) :
    World.Next e P w place op next := by
  rcases h.head with hnone | ⟨op', next', heq, hown, hnext⟩ |
    ⟨request, own, rest, k, hrequest, hhandle, heq, hk⟩
  · cases hnone
  · cases heq
    exact Or.inl ⟨hown, hnext⟩
  · exact Or.inr ⟨Call.start handle request, own, rest, k, hhandle, heq, hk,
      Or.inr ⟨rfl, hrequest⟩⟩

theorem World.Stands.next {w : World handle Shared} {place : Option Nat}
    {op : Op'} {next : Reply' op → Prog Op' Reply' ε' β}
    (h : World.Stands e P w place (.call op next)) :
    World.Next e P w place op next := by
  generalize hp : Prog.call op next = p at h
  cases h with
  | between h => exact World.next_of_serves (hp ▸ h)
  | @within index call k hcall hk =>
      cases hrest : call.rest with
      | ret value =>
          -- the call has ended, and its client is past it
          rw [hrest] at hp
          exact World.next_of_serves (hp ▸ hk (.ok value))
      | throw error =>
          rw [hrest] at hp
          exact World.next_of_serves (hp ▸ hk (.error error))
      | call own rest =>
          exact Or.inr ⟨call, own, rest, k, hrest, hp, hk,
            Or.inl ⟨index, rfl, hcall⟩⟩

/-- No two share a place after one of them has moved to a free one. -/
theorem update_distinct {place : Nat → Option Nat} {i : Nat}
    {target : Option Nat}
    (hdistinct : ∀ j k index, place j = some index → place k = some index →
      j = k)
    (hfree : ∀ j index, j ≠ i → place j = some index → target ≠ some index)
    (j k index : Nat) (hj : Function.update place i target j = some index)
    (hk : Function.update place i target k = some index) : j = k := by
  rw [Function.update_apply] at hj hk
  by_cases hji : j = i <;> by_cases hki : k = i
  · rw [hji, hki]
  · rw [if_pos hji] at hj
    rw [if_neg hki] at hk
    exact absurd hj (hfree k index hki hk)
  · rw [if_neg hji] at hj
    rw [if_pos hki] at hk
    exact absurd hk (hfree j index hji hj)
  · rw [if_neg hji] at hj
    rw [if_neg hki] at hk
    exact hdistinct j k index hj hk

section Mirrors

variable {w : World handle Shared} {w' : World serve Shared}
variable {place : Nat → Option Nat}
variable {sem : Semantics Op Reply Shared Outcome External}
variable {sem' : Semantics Op' Reply' Shared Outcome' External}

/-- But for its place, an operation is recorded alike in the two. -/
theorem Embedding.Simulates.unordered_stamp (hsim : e.Simulates sem sem')
    (hshared : w.shared = w'.shared) (own : Op) (outcome : Outcome') :
    Event.unordered ⟨own, e.reply own
        (sem'.perform (e.inject own) outcome w'.shared).1, w'.steps,
        sem'.clock w'.shared⟩ =
      (w.stamp sem own (hsim.outcome outcome)).unordered := by
  rw [← hshared, hsim.perform_reply, hsim.clock]
  rfl

namespace World.Mirrors

theorem place_lt (h : w.Mirrors e P w' place) {i index : Nat}
    (hplace : place i = some index) : index < w.calls.length := by
  cases hcall : w'.calls[i]? with
  | none =>
      rw [h.beyond i (List.getElem?_eq_none_iff.mp hcall)] at hplace
      cases hplace
  | some call =>
      have hstands := h.stands i call hcall
      rw [hplace] at hstands
      obtain ⟨_, hfound⟩ := hstands.exists_call
      exact (List.getElem?_eq_some_iff.mp hfound).1

theorem start {s₀ : Shared} : (World.start handle s₀).Mirrors e P
    (World.start serve s₀) fun _ => none where
  shared := rfl
  stands _ _ hcall := by cases hcall
  beyond _ _ := rfl
  distinct _ _ _ hplace := by cases hplace
  events := .refl _
  requests _ hcall := by cases hcall

/-- A client arrives. -/
theorem arriveClient (h : w.Mirrors e P w' place) {client : Client}
    (hserves : (serve client).Serves handle e P) :
    w.Mirrors e P (w'.arrive client) place where
  shared := h.shared
  stands index call hcall := by
    rcases World.getElem?_arrive_cases hcall with ⟨_, hold⟩ | ⟨rfl, rfl⟩
    · exact h.stands index call hold
    · rw [h.beyond _ (Nat.le_refl _)]
      exact .between hserves
  beyond index hindex := by
    refine h.beyond index (Nat.le_trans ?_ hindex)
    simp [World.arrive]
  distinct := h.distinct
  events := by simpa using h.events
  requests := h.requests

/-- A call arrives. -/
theorem arriveCall (h : w.Mirrors e P w' place) {request : Request}
    (hrequest : P request) : (w.arrive request).Mirrors e P w' place where
  shared := h.shared
  stands index call hcall := by
    refine (h.stands index call hcall).mono fun index _ _ hold => ?_
    rw [World.arrive, List.getElem?_append_left
      (List.getElem?_eq_some_iff.mp hold).1]
    exact hold
  beyond := h.beyond
  distinct := h.distinct
  events := by simpa using h.events
  requests call hcall := by
    rcases List.mem_append.mp hcall with hold | hnew
    · exact h.requests call hold
    · rw [List.mem_singleton] at hnew
      rw [hnew]
      exact hrequest

/-- The outside world moves. -/
theorem external (h : w.Mirrors e P w' place) {shared shared' : Shared}
    (hshared : shared = shared') :
    World.Mirrors e P { w with shared } { w' with shared := shared' }
      place where
  shared := hshared
  stands index call hcall :=
    (h.stands index call hcall).mono fun _ _ _ hold => hold
  beyond := h.beyond
  distinct := h.distinct
  events := by simpa using h.events
  requests := h.requests

/-- A client performs an operation of its own. -/
theorem own (h : w.Mirrors e P w' place) (hsim : e.Simulates sem sem')
    {i : Nat} {client : Call serve} {op : Op'}
    {next : Reply' op → Prog Op' Reply' ε' β} {outcome : Outcome'}
    (hrest : client.rest = .call op next)
    (hclient : w'.calls[i]? = some client) (hown : e.Own op)
    (hnext : ∀ reply, (next reply).Serves handle e P) :
    w.Mirrors e P (w'.perform sem' i client hrest outcome)
      (Function.update place i none) where
  shared := by rw [h.shared]; exact (hsim.perform_own _ _ _ hown).symm
  stands index call hcall := by
    rcases World.getElem?_perform_cases hcall with ⟨rfl, rfl⟩ | ⟨hne, hold⟩
    · rw [Function.update_self]
      exact .between (hnext _)
    · rw [Function.update_of_ne hne]
      exact h.stands index call hold
  beyond index hindex := by
    rw [World.perform, List.length_set] at hindex
    rw [Function.update_apply]
    split
    · rfl
    · exact h.beyond index hindex
  distinct := update_distinct h.distinct fun _ _ _ _ htarget => by cases htarget
  events := by
    refine List.Perm.trans (List.Perm.map _ (List.Perm.filterMap _
      (w'.events_perform_perm hrest hclient outcome))) ?_
    rw [World.stamp, List.filterMap_cons_none (hown _ _ _)]
    exact h.events
  requests := h.requests

/-- A client goes on with the call that it is in. -/
theorem advance (h : w.Mirrors e P w' place) (hsim : e.Simulates sem sem')
    {i index : Nat} {client : Call serve} {op : Op'}
    {next : Reply' op → Prog Op' Reply' ε' β} {outcome : Outcome'}
    (hclient : w'.calls[i]? = some client)
    (hrest : client.rest = .call op next) {call : Call handle} {own : Op}
    {rest : Reply own → Prog Op Reply ε α}
    {k : Except ε α → Prog Op' Reply' ε' β}
    (hcall : w.calls[index]? = some call)
    (hcallrest : call.rest = .call own rest)
    (heq : Prog.call op next = call.rest.attempt.embed e >>= k)
    (hk : ∀ result, (k result).Serves handle e P)
    (hothers : ∀ j, j ≠ i → place j ≠ some index) :
    (w.perform sem index call hcallrest (hsim.outcome outcome)).Mirrors e P
      (w'.perform sem' i client hrest outcome)
      (Function.update place i (some index)) := by
  rw [hcallrest] at heq
  cases heq
  have hreply := hsim.perform_reply own outcome w.shared
  have hshared := hsim.perform_shared own outcome w.shared
  refine ⟨?_, ?_, ?_, ?_, ?_, ?_⟩
  · change (sem.perform own _ w.shared).2 = (sem'.perform _ _ w'.shared).2
    rw [← h.shared]
    exact hshared.symm
  · intro j other hother
    rcases World.getElem?_perform_cases hother with ⟨rfl, rfl⟩ | ⟨hne, hold⟩
    · rw [Function.update_self]
      have hresumed : (w.perform sem index call hcallrest
          (hsim.outcome outcome)).calls[index]? =
          some (call.resume hcallrest (sem.perform own _ w.shared).1 w.steps
            (sem.clock w.shared)) :=
        List.getElem?_set_self (List.getElem?_eq_some_iff.mp hcall).1
      have hstands := World.Stands.within (e := e) hresumed hk
      change World.Stands e P _ _ ((rest (e.reply own _)).attempt.embed e >>= k)
      rw [← h.shared, hreply]
      exact hstands
    · rw [Function.update_of_ne hne]
      refine (h.stands j other hold).mono fun n found hplace hfound => ?_
      have hne' : index ≠ n := by
        rintro rfl
        exact hothers j hne hplace
      rw [World.perform, List.getElem?_set_ne hne']
      exact hfound
  · intro j hj
    rw [World.perform, List.length_set] at hj
    have hlt := (List.getElem?_eq_some_iff.mp hclient).1
    rw [Function.update_of_ne (by omega)]
    exact h.beyond j hj
  · refine update_distinct h.distinct fun j n hne hplace htarget => ?_
    exact hothers j hne (hplace.trans htarget.symm)
  · have hclients : (w'.perform sem' i client hrest outcome).events.Perm
        (w'.stamp sem' (e.inject own) outcome :: w'.events) :=
      w'.events_perform_perm hrest hclient outcome
    have hown := hclients.filterMap e.project
    rw [World.stamp, List.filterMap_cons_some (e.project_inject _ _ _ _)]
      at hown
    refine (hown.map Event.unordered).trans ?_
    refine List.Perm.trans ?_ ((w.events_perform_perm hcallrest hcall
      (hsim.outcome outcome)).map Event.unordered).symm
    rw [List.map_cons, List.map_cons, hsim.unordered_stamp h.shared]
    exact h.events.cons _
  · intro other hother
    rcases List.mem_or_eq_of_mem_set hother with hold | rfl
    · exact h.requests other hold
    · exact h.requests call (List.mem_of_getElem? hcall)

end World.Mirrors

/-- A run of clients is, for the system, a run of the calls they make: the
shared state is the same, and so is everything that was done to it. -/
theorem World.exists_mirrored
    {Allowed : World serve Shared → Action Client External Outcome' → Prop}
    {s₀ : Shared} (hsim : e.Simulates sem sem')
    (run : Run (World.step sem') Allowed (World.start serve s₀) w')
    (hserves : ∀ client ∈ w'.calls,
      (serve client.request).Serves handle e P) :
    ∃ w place, Run (World.step sem) always (World.start handle s₀) w ∧
      w.Mirrors e P w' place := by
  induction run with
  | refl =>
      exact ⟨_, _, .refl _, .start⟩
  | @snoc t t' action run _ taken ih =>
      have hbefore : ∀ client ∈ t.calls,
          (serve client.request).Serves handle e P := by
        intro client hclient
        have hmem : client.request ∈ t'.calls.map Call.request := by
          rw [World.requests_step taken]
          exact List.mem_append_left _ (List.mem_map_of_mem hclient)
        obtain ⟨after, hafter, hsame⟩ := List.mem_map.mp hmem
        exact hsame ▸ hserves after hafter
      obtain ⟨w, place, mirror, h⟩ := ih hbefore
      cases action with
      | arrive client =>
          cases taken
          refine ⟨w, place, mirror, h.arriveClient ?_⟩
          exact hserves (Call.start serve client) (by simp [World.arrive])
      | external event =>
          cases taken
          have hmoved : w.step sem (.external event) =
            some { w with shared := sem.external event w.shared } := rfl
          refine ⟨_, place, mirror.snoc trivial hmoved, h.external ?_⟩
          rw [hsim.external, h.shared]
      | advance i outcome =>
          obtain ⟨client, op, next, hrest, hclient, rfl⟩ :=
            World.step_advance taken
          have hstands := h.stands i client hclient
          rw [hrest] at hstands
          rcases hstands.next with ⟨hown, hnext⟩ | ⟨call, own, rest, k,
            hcallrest, heq, hk, ⟨index, hplace, hcall⟩ | ⟨hstart, hrequest⟩⟩
          · exact ⟨w, _, mirror, h.own hsim hrest hclient hown hnext⟩
          · refine ⟨_, _, mirror.snoc trivial (World.step_perform hcallrest
              hcall (hsim.outcome outcome)), h.advance hsim hclient hrest hcall
                hcallrest heq hk fun j hne hj => hne ?_⟩
            exact h.distinct j i index hj hplace
          · -- the call is a new one
            have harrived : w.step sem (.arrive call.request) =
              some (w.arrive call.request) := rfl
            have hcall : (w.arrive call.request).calls[w.calls.length]? =
                some call := by
              simp [World.arrive, ← hstart]
            refine ⟨_, _, (mirror.snoc trivial harrived).snoc trivial
              (World.step_perform hcallrest hcall (hsim.outcome outcome)),
              (h.arriveCall hrequest).advance hsim hclient hrest hcall
                hcallrest heq hk fun j _ hj => ?_⟩
            exact absurd (h.place_lt hj) (Nat.lt_irrefl _)

end Mirrors

end Interaction

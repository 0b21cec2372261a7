/-
The emergency stop: what `revoke_all` does to the requests that are in flight
when its transaction commits.
-/
import X402Guard.SessionKeyBudget

namespace X402Guard

open Interaction Prog

variable {ext : Externals} {config : AppConfig}
variable {Allowed : World (handle ext config) Shared →
  Action Request Micros Outcome → Prop}

/-- A transaction that deactivates the agent has committed. -/
def deactivates (agentId : Uuid) : Event Op Reply → Bool
  | ⟨.postgres (.commit tx), .ok _, _, _⟩ =>
      tx.deactivatedAgents.contains agentId
  | _ => false

/-- A spend reservation begins. -/
def reserves : Event Op Reply → Bool
  | ⟨.postgres .beginSpend, _, _, _⟩ => true
  | _ => false

/-- The agent has been read, and was active. -/
def ReadsActive (agentId : Uuid) : Event Op Reply → Prop
  | ⟨.postgres (.selectAgent id), .ok (some agent), _, _⟩ =>
      id = agentId ∧ agent.isActive = true
  | _ => False

/-- The trace lies between the check of the agent and the reservation. -/
def Unreserved (agentId : Uuid) (trace : List (Event Op Reply)) : Prop :=
  (∃ event ∈ trace, ReadsActive agentId event) ∧
    ∀ event ∈ trace, reserves event = false

/-- No request for the agent that is still going on lies between its check and
its reservation when a transaction that deactivates the agent commits, except
under a session key that is then revoked. -/
def NoneInBetween (ext : Externals) (config : AppConfig) (agentId : Uuid) :
    World (handle ext config) Shared → Action Request Micros Outcome → Prop
  | w, .advance index outcome => ∀ call tx, w.calls[index]? = some call →
      call.rest.op? = some (.postgres (.commit tx)) →
      outcome.fails = false → agentId ∈ tx.deactivatedAgents →
      ∀ other ∈ w.calls, other.rest.op?.isSome = true →
        other.request.agent ext = some agentId →
        Unreserved agentId other.trace →
        ∃ key, other.request.sessionKey ext = some key ∧
          (w.shared.db.commit tx).KeyRevoked key
  | _, _ => True

/-- No request for the agent that begins its reservation after the agent has
been deactivated is forwarded. -/
def StopEffective (agentId : Uuid) (w : World (handle ext config) Shared) :
    Prop :=
  ∀ stop ∈ w.events, deactivates agentId stop = true →
    ∀ call ∈ w.calls, call.request.agent ext = some agentId →
      (∃ event ∈ call.trace, reserves event = true ∧
        stop.order < event.order) →
      forwarded call = false

theorem reserves_iff {event : Event Op Reply} :
    reserves event = true ↔ event.op = .postgres .beginSpend := by
  obtain ⟨op, reply, order, time⟩ := event
  cases op with
  | postgres query => cases query <;> simp [reserves]
  | _ => simp [reserves]

theorem not_deactivates_of_readsActive {agentId : Uuid}
    {event : Event Op Reply} (h : ReadsActive agentId event) :
    ¬ deactivates agentId event = true := by
  unfold ReadsActive at h
  split at h
  · simp [deactivates]
  · exact h.elim

theorem deactivates_stamp {w : World (handle ext config) Shared}
    {agentId : Uuid} {op : Op} {outcome : Outcome}
    (h : deactivates agentId (w.stamp proxySemantics op outcome) = true) :
    ∃ tx, op = .postgres (.commit tx) ∧ outcome.fails = false ∧
      agentId ∈ tx.deactivatedAgents ∧
      (perform op outcome w.shared).2.db = w.shared.db.commit tx := by
  cases op with
  | postgres query =>
      cases query with
      | commit tx =>
          cases hfails : outcome.fails with
          | true => simp [World.stamp, perform, hfails, deactivates] at h
          | false =>
              simp only [World.stamp, proxySemantics_perform, perform, hfails,
                Bool.false_eq_true, ↓reduceIte, Query.run, deactivates,
                List.contains_iff_mem] at h
              exact ⟨tx, rfl, rfl, h, by simp [perform, hfails, Query.run]⟩
      | _ => simp [World.stamp, deactivates] at h
  | _ => simp [World.stamp, deactivates] at h

/-- Once an agent is deactivated it is not read as active again. -/
theorem readsActive_before_stop {w₀ w : World (handle ext config) Shared}
    (run : Run (World.step proxySemantics) Allowed w₀ w)
    (hstart : w₀.events = []) {agentId : Uuid} :
    ∀ stop ∈ w.events, deactivates agentId stop = true →
      ∀ event ∈ w.events, ReadsActive agentId event →
        event = stop ∨ event.order < stop.order := by
  refine World.before_barrier (B := fun event => deactivates agentId event)
    (F := fun s : Shared => s.db.AgentInactive agentId) run hstart ?_ ?_ ?_ ?_
  · intro elapsed s h
    exact h
  · intro op outcome s h
    exact perform_keeps_db (P := fun db => db.AgentInactive agentId)
      (fun _ _ _ hchange => hchange.keeps_agentInactive h) h op outcome
  · intro w index call op next outcome hrest hcall hrun hstop
    obtain ⟨tx, rfl, _, hmem, hdb⟩ := deactivates_stamp hstop
    obtain ⟨owner, _, _, hagents, hexists, _⟩ := commit_gathered hrest
      fun event hevent => replies_sound hrun hstart event
        (World.mem_events (List.mem_of_getElem? hcall) hevent)
    have hsame : agentId = owner := by
      rw [hagents] at hmem
      exact List.mem_singleton.mp hmem
    rw [proxySemantics_perform, hdb]
    exact Db.agentInactive_commit hmem (hsame ▸ hexists)
  · rintro op outcome s order hreads ⟨agent, hagent, hinactive⟩
    cases op with
    | postgres query =>
        cases query with
        | selectAgent id =>
            cases hreply : (proxySemantics.perform
                (.postgres (.selectAgent id)) outcome s).1 with
            | error error =>
                rw [hreply] at hreads
                exact hreads
            | ok found =>
                rw [hreply] at hreads
                have hfound := perform_selectAgent hreply
                cases found with
                | none => exact hreads
                | some agent' =>
                    obtain ⟨rfl, hactive⟩ := hreads
                    rw [hagent] at hfound
                    cases hfound
                    rw [hinactive] at hactive
                    cases hactive
        | _ => exact hreads
    | _ => exact hreads

/-- Under the guard, what was in between has a key that is revoked, and does
not charge it after the stop. -/
theorem charges_before_stop {w₀ w : World (handle ext config) Shared}
    {agentId : Uuid}
    (run : Run (World.step proxySemantics) (NoneInBetween ext config agentId)
      w₀ w) (hstart : w₀.events = []) :
    ∀ stop ∈ w.events, deactivates agentId stop = true →
      ∀ call ∈ w.calls, call.request.agent ext = some agentId →
        (∃ event ∈ call.trace, stop.order < event.order) →
        Unreserved agentId
          (call.trace.filter fun event => event.order < stop.order) →
        ∃ key, call.request.sessionKey ext = some key ∧
          ∀ event ∈ call.trace, Charges key event →
            event.order ≤ stop.order := by
  intro stop hstop hdeactivates call hcall hagent hlater hunreserved
  have hfound := World.before_barrier_of_found
    (B := fun event => deactivates agentId event = true)
    (Q := fun request trace => request.agent ext = some agentId ∧
      Unreserved agentId trace)
    (R := fun request (s : Shared) => ∃ key,
      request.sessionKey ext = some key ∧ s.db.KeyRevoked key)
    (K := fun request event => ∃ key,
      request.sessionKey ext = some key ∧ Charges key event)
    run hstart ?_ ?_ ?_ ?_ ?_ stop hstop hdeactivates call hcall
    (Or.inr hlater) ⟨hagent, hunreserved⟩
  · obtain ⟨⟨key, hkey, _⟩, hcharges⟩ := hfound
    exact ⟨key, hkey, fun event hevent hcharge =>
      hcharges event hevent ⟨key, hkey, hcharge⟩⟩
  · rintro request ⟨_, ⟨event, hevent, _⟩, _⟩
    exact List.not_mem_nil hevent
  · intro request elapsed s h
    exact h
  · rintro request op outcome s ⟨key, hkey, hrevoked⟩
    exact ⟨key, hkey, perform_keeps_db (P := fun db => db.KeyRevoked key)
      (fun _ _ _ hchange => hchange.keeps_keyRevoked hrevoked) hrevoked op
      outcome⟩
  · intro w index call op next outcome hrest hcall hallowed hstamp other
      hother hgoes ⟨hnames, hbetween⟩
    obtain ⟨tx, rfl, hfails, hmem, hdb⟩ := deactivates_stamp hstamp
    rw [proxySemantics_perform, hdb]
    exact hallowed call tx hcall (by rw [hrest]; rfl) hfails hmem other hother
      hgoes hnames hbetween
  · rintro request op outcome s order ⟨key, hkey, hcharge⟩
      ⟨key', hkey', hrevoked⟩
    rw [hkey, Option.some.injEq] at hkey'
    subst hkey'
    exact not_keyRevoked_of_charges hcharge hrevoked

theorem reserves_eq_false {event : Event Op Reply} (h : event.op.stage ≠ 10) :
    reserves event = false := by
  by_contra hreserves
  rw [Bool.not_eq_false, reserves_iff] at hreserves
  exact h (by rw [hreserves]; rfl)

/-- The trace of a call that was forwarded for an agent: it reads the agent as
active, begins its only reservation, and charges the key it names. -/
theorem forwarded_reservation {call : Call (handle ext config)}
    {agentId : Uuid} (hagent : call.request.agent ext = some agentId)
    (hforwarded : forwarded call = true) :
    ∃ before reservation tail, call.trace = before ++ reservation :: tail ∧
      (∃ event ∈ before, ReadsActive agentId event) ∧
      (∀ event ∈ before ++ tail, reserves event = false) ∧
      ∀ key, call.request.sessionKey ext = some key →
        ∃ event ∈ tail, Charges key event := by
  obtain ⟨out, hout, hsent⟩ := forwarded_iff.mp hforwarded
  obtain ⟨req, received, agentRules, before, reserve, after, rest, htrace,
    hadmitted, hreserve, hforward, _, hagent', hkey', _⟩ :=
    sent_parts hout hsent
  rw [hagent] at hagent'
  obtain ⟨agent, _, _, ⟨order, time, hread⟩, hactive, _⟩ :=
    hadmitted.agent agentId hagent'.symm
  obtain ⟨snapshot, affected, order₁, time₁, order₂, time₂, charge, _, rfl,
    hnone, hcharge⟩ := (reserveSpend_reaches_ret hagent'.symm hreserve).ledger
  refine ⟨before, _, _ :: (charge ++ after), by rw [htrace]; rfl,
    ⟨_, hread, rfl, hactive⟩, ?_, ?_⟩
  · have hcharge' : ∀ event ∈ charge, reserves event = false := by
      cases hkey : received.sessionKeyId with
      | none => simp [hnone hkey]
      | some key =>
          obtain ⟨charged, order, time, _, rfl⟩ := hcharge key hkey
          simp [reserves]
    have hout : ∀ event ∈ before ++ after, reserves event = false := by
      intro event hevent
      apply reserves_eq_false
      rcases List.mem_append.mp hevent with hbefore | hafter
      · have := hadmitted.stages event hbefore
        omega
      · have := (forwardToTarget_within req received).of_mem hforward event
          hafter
        omega
    simp only [List.forall_mem_append, List.forall_mem_cons] at hout ⊢
    exact ⟨hout.1, rfl, hcharge', hout.2⟩
  · intro key hkey
    obtain ⟨charged, order, time, hne, rfl⟩ :=
      hcharge key (hkey'.symm.trans hkey)
    let event : Event Op Reply := ⟨.postgres (.incrementSpent key
      received.paymentAmount), .ok charged, order, time⟩
    have hcharges : Charges key event := ⟨rfl, hne⟩
    exact ⟨event, by simp [event], hcharges⟩

/-- If no request is caught between its check and its reservation, the stop is
effective. -/
theorem stopEffective_of_noneInBetween (s₀ : Shared) (agentId : Uuid)
    {w : World (handle ext config) Shared}
    (run : Run (World.step proxySemantics) (NoneInBetween ext config agentId)
      (World.start (handle ext config) s₀) w) : StopEffective agentId w := by
  intro stop hstop hdeactivates call hcall hagent ⟨late, hlate, hreserves,
    hlt⟩
  by_contra hforwarded
  rw [Bool.not_eq_false] at hforwarded
  obtain ⟨before, reservation, tail, htrace, ⟨read, hread, hactive⟩, honly,
    hcharges⟩ := forwarded_reservation hagent hforwarded
  have hsorted := (World.stamped run proxySemantics_clockMonotone
    (World.stamped_start s₀)).sorted call hcall
  -- a reservation of the call can only be this one
  have hsame : ∀ event ∈ call.trace, reserves event = true →
      event = reservation := by
    intro event hevent hevent'
    by_contra hne
    have hother : event ∈ before ++ tail := by
      rw [htrace] at hevent
      simp only [List.mem_append, List.mem_cons] at hevent ⊢
      tauto
    rw [honly event hother] at hevent'
    cases hevent'
  obtain rfl := hsame late hlate hreserves
  have hbetween : Unreserved agentId
      (call.trace.filter fun event => event.order < stop.order) := by
    have hmem : read ∈ call.trace := by
      rw [htrace]
      exact List.mem_append_left _ hread
    refine ⟨⟨read, List.mem_filter.mpr ⟨hmem, decide_eq_true ?_⟩, hactive⟩, ?_⟩
    · rcases readsActive_before_stop run (World.events_start s₀) stop hstop
        hdeactivates read (World.mem_events hcall hmem) hactive with
        rfl | hearlier
      · exact absurd hdeactivates (not_deactivates_of_readsActive hactive)
      · exact hearlier
    · intro event hevent
      obtain ⟨hevent, hbefore⟩ := List.mem_filter.mp hevent
      by_contra hreserves'
      rw [Bool.not_eq_false] at hreserves'
      obtain rfl := hsame event hevent hreserves'
      exact Nat.lt_asymm hlt (of_decide_eq_true hbefore)
  obtain ⟨key, hkey, hearly⟩ := charges_before_stop run
    (World.events_start s₀) stop hstop hdeactivates call hcall hagent
    ⟨late, hlate, hlt⟩ hbetween
  obtain ⟨charge, hcharge, hcharges⟩ := hcharges key hkey
  have hle := hearly charge (by rw [htrace]; simp [hcharge]) hcharges
  rw [htrace, List.pairwise_append, List.pairwise_cons] at hsorted
  have hlater := (hsorted.2.1.1 charge hcharge).1
  omega

namespace Sample

def stopRequest : RevokeAllRequest := ⟨signerText, none, none⟩

/-- Which calls of a replay have forwarded their request, and the positions of
their reservations and of the deactivations of the agent. -/
def stopSeen (r : Replayed) : List (Bool × List Nat × List Nat) :=
  r.threads.map fun thread => (thread.trace.any sent,
    (thread.trace.filter reserves).map Event.order,
    (thread.trace.filter (deactivates agentId)).map Event.order)

theorem stopSeen_toReplay (w : World (handle externals config) Shared) :
    stopSeen w.toReplay = w.calls.map fun call => (forwarded call,
      (call.trace.filter reserves).map Event.order,
      (call.trace.filter (deactivates agentId)).map Event.order) := by
  simp [stopSeen, World.toReplay, Call.toThread, Function.comp_def, forwarded]

/-- A transaction leaves the sample key revoked, and only requests under this
key name an agent. -/
def stopsUnderKey (r : Replayed) : Op → Bool
  | .postgres (.commit tx) =>
      ((r.shared.db.commit tx).sessionKeys.find? keyId).any (·.isRevoked) &&
        r.threads.all fun thread =>
          (thread.request.agent externals).isNone ||
            thread.request.sessionKey externals = some keyId
  | _ => true

end Sample

/-- A request that has read the agent as active is caught by the stop, begins
its reservation after it and is forwarded. -/
theorem not_stopEffective : ¬ ∀ w,
    Run (World.step proxySemantics) always (Sample.world none none) w →
    StopEffective Sample.agentId w := by
  intro h
  have hrun : ∃ w, Run (World.step proxySemantics) always
      (Sample.world none none) w ∧
      Sample.stopSeen w.toReplay = [(true, [16], []), (false, [], [7])] ∧
      w.calls.map Call.request =
        [.forwardRequest (Sample.request .first true false),
          .revokeAll Sample.agentId Sample.stopRequest] := by
    refine World.exists_run_of_replay Sample.stopSeen (fun _ _ => true)
      (fun _ _ _ => trivial)
      ([.arrive (.forwardRequest (Sample.request .first true false)),
        .arrive (.revokeAll Sample.agentId Sample.stopRequest)] ++
        (Sample.advance 0 3 ++ (Sample.advance 1 5 ++
          Sample.advance 0 11))) ?_
    simp only [List.map_append, List.map_cons, List.map_nil,
      Sample.withProgram_forward, Sample.map_advance]
    decide +kernel
  obtain ⟨w, run, hseen, hrequests⟩ := hrun
  rw [Sample.stopSeen_toReplay] at hseen
  obtain ⟨first, second, hcalls, hfirst, _⟩ := World.calls_eq_pair hrequests
  simp only [hcalls, List.map_cons, List.map_nil, List.cons.injEq,
    Prod.mk.injEq, and_true] at hseen
  obtain ⟨⟨hsent, hreserved, _⟩, _, _, hstopped⟩ := hseen
  obtain ⟨late, _, hlate, hlateOrder, _⟩ := List.map_eq_cons_iff.mp hreserved
  obtain ⟨stop, _, hstop, hstopOrder, _⟩ := List.map_eq_cons_iff.mp hstopped
  have hmem : late ∈ first.trace.filter reserves := by simp [hlate]
  have hmem' : stop ∈ second.trace.filter (deactivates Sample.agentId) := by
    simp [hstop]
  rw [List.mem_filter] at hmem hmem'
  have hnot := h w run stop (World.mem_events (by simp [hcalls]) hmem'.1)
    hmem'.2 first (by simp [hcalls]) (by simp [hfirst])
    ⟨late, hmem.1, hmem.2, by omega⟩
  rw [hsent] at hnot
  cases hnot

/-- A request under a key of the agent is caught by the stop, begins its
reservation after it and is not forwarded. -/
theorem stopEffective_sample : ∃ w,
    Run (World.step proxySemantics)
      (NoneInBetween Sample.externals Sample.config Sample.agentId)
      (Sample.world none (some Sample.keyOf100)) w ∧
    Sample.stopSeen w.toReplay = [(false, [18], []), (false, [], [9])] ∧
    StopEffective Sample.agentId w := by
  have hrun : ∃ w, Run (World.step proxySemantics)
      (NoneInBetween Sample.externals Sample.config Sample.agentId)
      (Sample.world none (some Sample.keyOf100)) w ∧
      Sample.stopSeen w.toReplay = [(false, [18], []), (false, [], [9])] ∧
      w.calls.map Call.request =
        [.forwardRequest (Sample.request .first true true),
          .revokeAll Sample.agentId Sample.stopRequest] := by
    refine World.exists_run_of_replay Sample.stopSeen
      (Sample.performing Sample.stopsUnderKey) ?_
      ([.arrive (.forwardRequest (Sample.request .first true true)),
        .arrive (.revokeAll Sample.agentId Sample.stopRequest)] ++
        (Sample.advance 0 5 ++ (Sample.advance 1 5 ++
          Sample.advance 0 11))) ?_
    · intro w action hok
      cases action with
      | advance index outcome =>
          intro call tx hcall hop _ _ other hother _ hagent _
          have hstops := Sample.allowed_of_performing hok hcall hop
          simp only [Sample.stopsUnderKey, Bool.and_eq_true] at hstops
          obtain ⟨hrevoked, hall⟩ := hstops
          obtain ⟨row, hrow, hrevoked⟩ :=
            (Option.any_eq_true _ _).mp hrevoked
          have hnames := List.all_eq_true.mp hall other.toThread
            (List.mem_map_of_mem hother)
          simp only [Call.toThread, hagent, Option.isNone_some,
            Bool.false_or] at hnames
          exact ⟨Sample.keyId, of_decide_eq_true hnames, row, hrow, hrevoked⟩
      | _ => trivial
    · simp only [List.map_append, List.map_cons, List.map_nil,
        Sample.withProgram_forward, Sample.map_advance]
      decide +kernel
  obtain ⟨w, run, hseen, _⟩ := hrun
  exact ⟨w, run, hseen, stopEffective_of_noneInBetween _ _ run⟩

end X402Guard

/-
Why a request is rejected as a replay.  A verified payment ends so exactly when
Redis fails its nonce check or its nonce is still stored, and what stored it is
a request with the same nonce; payments with other nonces never are the cause.
-/
import X402Guard.ReplayErrors

namespace X402Guard

open Interaction Prog

variable {ext : Externals} {config : AppConfig}

/-- The first five steps of the call are done, and have verified a payment with
the nonce. -/
def Verified (nonce : Bytes32) (call : Call (handle ext config)) : Prop :=
  ∃ req received first second, call.request = .forwardRequest req ∧
    call.trace = first ++ second ∧
    (receivePayment ext req).Reaches first (.ret received) ∧
    received.verified.nonce = nonce

/-- A call that has come to its nonce check, or further, has a verified
payment. -/
theorem verified_of_spends {call : Call (handle ext config)}
    {event : Event Op Reply} {nonce : Bytes32} (hevent : event ∈ call.trace)
    (hspends : event.op.Spends)
    (hnonce : call.request.nonce ext = some nonce) : Verified nonce call := by
  obtain ⟨req, rest, hreq, hreached⟩ := forwards_of_spends hevent hspends
  obtain ⟨received, first, second, htrace, hreceive, _, _⟩ :=
    reaches_bind_of_mem hreached (receivePayment_within req) hevent (by
      unfold Op.Spends at hspends
      unfold UpTo
      omega)
  obtain ⟨_, _, _, hauth⟩ := (receivePayment_valid hreceive).names
  have hown : call.request.nonce ext = some received.verified.nonce := by
    rw [hreq]
    exact congrArg (Option.map Prod.snd) hauth
  exact ⟨req, received, first, second, hreq, htrace, hreceive,
    Option.some.inj (hown.symm.trans hnonce)⟩

/-- The call has come to its nonce check: the SET of its nonce, with the reply,
its place in the run and its time. -/
def ChecksNonce (nonce : Bytes32) (call : Call (handle ext config))
    (reply : Except String Bool) (order : Nat) (time : Micros) : Prop :=
  ∃ ttlSecs, (⟨.redis (.setNxEx (redisKey nonce) ttlSecs), reply, order,
    time⟩ : Event Op Reply) ∈ call.trace

/-- The ledger has refused the row of the call as a duplicate. -/
def RefusedRow (nonce : Bytes32) (call : Call (handle ext config))
    (order : Nat) : Prop :=
  ∃ snapshot values limit? time, values.txNonce = hexEncode nonce.bytes ∧
    (⟨.postgres (.insertSpend snapshot values limit?),
      .error .uniqueViolation, order, time⟩ : Event Op Reply) ∈ call.trace

theorem NotStored.checks {nonce : Bytes32} {call : Call (handle ext config)}
    {event : Event Op Reply} (h : NotStored nonce event)
    (hevent : event ∈ call.trace) : ∃ reply order time,
      ChecksNonce nonce call reply order time ∧ reply ≠ .ok true := by
  unfold NotStored at h
  split at h
  · obtain ⟨rfl, hreply⟩ := h
    exact ⟨_, _, _, ⟨_, hevent⟩, hreply⟩
  · exact h.elim

variable {call : Call (handle ext config)} {nonce : Bytes32}

/-- A call ends where its request does. -/
theorem rest_of_failsAfter {K : Event Op Reply → Prop} {error : AppError}
    {event : Event Op Reply} (hfails : ∀ req,
      (forwardRequest ext config req).FailsAfter K error)
    (hspends : event.op.Spends) (hevent : event ∈ call.trace)
    (hK : K event) : call.rest = .throw error := by
  obtain ⟨req, _, hreq, _⟩ := forwards_of_spends hevent hspends
  have hreached := call.reached
  rw [hreq] at hreached
  exact FailsAfter.of_mem
    ((hfails req).bind (f := fun response => .ret (Response.forwarded response))
      fun _ => trivial) hreached hevent hK

/-- An error that no step after the fifth ends with, or only after an event of
`K`, ends a request with a verified payment only after such an event. -/
theorem Verified.exists_mem {K : Event Op Reply → Prop} {error : AppError}
    (hverified : Verified nonce call)
    (hkey : ∀ received, (checkSessionKey ext received).FailsOnlyAfter K error)
    (hrules : ∀ req received,
      (checkGuardrails ext req received).FailsOnlyAfter K error)
    (hnonce : ∀ received, (checkNonce received).FailsOnlyAfter K error)
    (hlimit : (checkRateLimit config).FailsOnlyAfter K error)
    (hreserve : ∀ received agentRules, received.verified.nonce = nonce →
      (reserveSpend received agentRules).FailsOnlyAfter K error)
    (hforward : ∀ req received,
      (forwardToTarget ext req received).FailsOnlyAfter K error)
    (hrest : call.rest = .throw error) : ∃ event ∈ call.trace, K event := by
  obtain ⟨req, received, first, second, hreq, htrace, hreceived, hsame⟩ :=
    hverified
  have hended : call.rest.result? = some (.error error) := by
    rw [hrest]
    rfl
  obtain ⟨result, hreached, herror⟩ := forwardRequest_of_ended hreq hended
  obtain rfl := errorOf_eq_some_iff.mp herror
  rw [htrace] at hreached
  have hbound : (forwardRequest ext config req).Reaches first _ :=
    reaches_bind_iff.mpr (Or.inl ⟨_, hreceived, rfl⟩)
  have hafter := hbound.split hreached
  have hfails := FailsOnlyAfter.bind (hkey received) fun _ =>
    (hrules req received).bind fun agentRules =>
      (hnonce received).bind fun _ => hlimit.bind fun _ =>
        (hreserve received agentRules hsame).bind fun _ =>
          hforward req received
  obtain ⟨event, hevent, hK⟩ := hfails.exists_mem hafter
  refine ⟨event, ?_, hK⟩
  rw [htrace]
  exact List.mem_append_right first hevent

/-- A verified payment is called a replay exactly when the SET of its nonce
does not store it. -/
theorem nonceUsed_iff (hverified : Verified nonce call) :
    call.rest = .throw (nonceUsed nonce) ↔
      ∃ reply order time, ChecksNonce nonce call reply order time ∧
        reply ≠ .ok true := by
  constructor
  · intro hrest
    have hinternal : ∀ cause, .internal cause ≠ nonceUsed nonce :=
      fun cause => internal_ne_nonceUsed cause nonce
    obtain ⟨event, hevent, hnot⟩ := hverified.exists_mem
      (fun _ => (checkSessionKey_fails hinternal (fun _ heq => by cases heq)
        (fun _ heq => by cases heq) (fun _ heq => by cases heq)
        _).failsOnlyAfter)
      (fun _ _ => (checkGuardrails_fails hinternal (fun _ heq => by cases heq)
        (fun _ heq => by cases heq) (fun _ heq => by cases heq)
        _ _).failsOnlyAfter)
      (checkNonce_failsOnlyAfter nonce)
      (checkRateLimit_fails hinternal fun heq => by cases heq).failsOnlyAfter
      (fun _ _ _ => (reserveSpend_fails hinternal (fun _ heq => by cases heq)
        _ _).failsOnlyAfter)
      (fun _ _ => (forwardToTarget_fails hinternal _ _).failsOnlyAfter)
      hrest
    exact hnot.checks hevent
  · rintro ⟨reply, order, time, ⟨ttlSecs, hmem⟩, hreply⟩
    exact rest_of_failsAfter (forwardRequest_nonceUsed nonce)
      (by simp [Op.Spends, Op.stage]) hmem ⟨rfl, hreply⟩

section Causes

variable {w : World (handle ext config) Shared} {s₀ : Shared}
variable (run : Run (World.step proxySemantics) always
  (World.start (handle ext config) s₀) w)
variable (hcall : call ∈ w.calls) (hverified : Verified nonce call)
include run hcall

/-- The SET of a nonce does not store it when Redis fails, or when the nonce
was stored at the start or has been by a request that carries it. -/
theorem notStored_iff {reply : Except String Bool} {order : Nat}
    {time : Micros} (hcheck : ChecksNonce nonce call reply order time) :
    reply ≠ .ok true ↔ (∃ cause, reply = .error cause) ∨
      s₀.redis.ReservedUntil (redisKey nonce) (time + 1) ∨
        ∃ done ∈ doneWith nonce order w, TakesUntil nonce (time + 1) done := by
  obtain ⟨ttlSecs, hmem⟩ := hcheck
  obtain ⟨before, outcome, hrun, hevent, hdone⟩ := World.exists_moment run
    (World.events_start s₀) _ (World.mem_events hcall hmem)
  simp only [World.stamp, Event.mk.injEq, heq_eq_eq, true_and] at hevent
  obtain ⟨hreply, rfl, htime⟩ := hevent
  rw [proxySemantics_clock] at htime
  rw [hreply, htime, proxySemantics_perform, perform_setNxEx_ne_true_iff,
    RedisDb.live_iff,
    reservedUntil_iff hrun (World.events_start s₀) hdone]
  rfl

/-- The row of a request is a duplicate of one that the ledger had at the
start, or that a request with the same nonce has inserted. -/
theorem hasRow_of_refusedRow {order : Nat}
    (hrefused : RefusedRow nonce call order) :
    s₀.db.spendLedger.HasKey (hexEncode nonce.bytes) ∨
      ∃ done ∈ doneWith nonce order w, inserts nonce done = true := by
  obtain ⟨snapshot, values, limit?, time, hnonce, hmem⟩ := hrefused
  obtain ⟨before, outcome, hrun, hevent, hdone⟩ := World.exists_moment run
    (World.events_start s₀) _ (World.mem_events hcall hmem)
  simp only [World.stamp, Event.mk.injEq, heq_eq_eq, true_and] at hevent
  obtain ⟨hreply, rfl, _⟩ := hevent
  have hrow := hasKey_of_duplicate hreply.symm
  rw [hnonce] at hrow
  exact (hasRow_iff hrun (World.events_start s₀) hdone nonce).mp hrow

include hverified in
/-- A verified payment ends as one whose ledger row would be a duplicate exactly
when the ledger refuses its row as one. -/
theorem duplicateRow_iff : call.rest = .throw duplicateRow ↔
    ∃ order, RefusedRow nonce call order := by
  constructor
  · intro hrest
    obtain ⟨⟨op, reply, order, time⟩, hmem, hreads, hnonce⟩ :=
      hverified.exists_mem (checkSessionKey_readsDuplicate nonce)
        (checkGuardrails_readsDuplicate nonce) (checkNonce_readsDuplicate nonce)
        (checkRateLimit_readsDuplicate nonce)
        reserveSpend_readsDuplicate
        (forwardToTarget_readsDuplicate nonce) hrest
    obtain ⟨before, outcome, _, hevent, _⟩ := World.exists_moment run
      (World.events_start s₀) _ (World.mem_events hcall hmem)
    simp only [World.stamp, Event.mk.injEq, heq_eq_eq, true_and] at hevent
    obtain ⟨rfl, rfl, rfl⟩ := hevent
    obtain ⟨req, _, _, _, hreq, _⟩ := hverified
    have hissues := issues_of_mem hmem
    rw [hreq] at hissues
    obtain ⟨snapshot, values, limit?, heq⟩ :=
      insertSpend_of_errorText hissues hreads
    exact ⟨before.steps, snapshot, values, limit?, before.shared.now,
      hnonce snapshot values limit? (congrArg Event.op heq),
      (congrArg (· ∈ call.trace) heq).mp hmem⟩
  · rintro ⟨order, snapshot, values, limit?, time, _, hmem⟩
    exact rest_of_failsAfter forwardRequest_duplicateRow
      (by simp [Op.Spends, Op.stage]) hmem rfl

end Causes

/-- A verified payment is rejected as a replay exactly when, at its nonce
check, Redis fails or its nonce is still stored, since before the run or by a
request with the same nonce; and it ends as a duplicate of the ledger exactly
when the ledger refuses its row, as it does only because of a row with the same
nonce.  Payments with other nonces are no cause, whether they were processed or
not, in whatever order, whoever has signed them. -/
theorem replays_have_causes (s₀ : Shared)
    {w : World (handle ext config) Shared}
    (run : Run (World.step proxySemantics) always
      (World.start (handle ext config) s₀) w)
    {call : Call (handle ext config)} (hcall : call ∈ w.calls)
    {nonce : Bytes32} (hverified : Verified nonce call) :
    (call.rest = .throw (nonceUsed nonce) ↔
      ∃ reply order time, ChecksNonce nonce call reply order time ∧
        ((∃ cause, reply = .error cause) ∨
          s₀.redis.ReservedUntil (redisKey nonce) (time + 1) ∨
          ∃ done ∈ doneWith nonce order w,
            TakesUntil nonce (time + 1) done)) ∧
    (call.rest = .throw duplicateRow ↔
      ∃ order, RefusedRow nonce call order) ∧
    ∀ order, RefusedRow nonce call order →
      s₀.db.spendLedger.HasKey (hexEncode nonce.bytes) ∨
        ∃ done ∈ doneWith nonce order w, inserts nonce done = true := by
  refine ⟨?_, duplicateRow_iff run hcall hverified,
    fun order => hasRow_of_refusedRow run hcall⟩
  rw [nonceUsed_iff hverified]
  refine exists_congr fun reply => exists_congr fun order =>
    exists_congr fun time => and_congr_right fun hcheck => ?_
  exact notStored_iff run hcall hcheck

/-- The second of two payments with one nonce is rejected, and not because of
what Redis held at the start. -/
theorem replays_have_causes_sample : ∃ w,
    Run (World.step proxySemantics) always Sample.payersWorld w ∧
    ∃ call ∈ w.calls, call.rest = .throw (nonceUsed (Sample.nonce .first)) ∧
      ∃ reply order time,
        ChecksNonce (Sample.nonce .first) call reply order time ∧
        ((∃ cause, reply = .error cause) ∨
          ∃ done ∈ doneWith (Sample.nonce .first) order w,
            TakesUntil (Sample.nonce .first) (time + 1) done) := by
  obtain ⟨w, run, hseen, hrequests⟩ := Sample.exists_run_payers
  obtain ⟨first, second, hcalls, _, hsecond⟩ := World.calls_eq_pair hrequests
  simp only [Sample.endings_toReplay, Prod.mk.injEq, hcalls, List.map_cons,
    List.map_nil, List.cons.injEq, Option.map_eq_some_iff, and_true] at hseen
  obtain ⟨_, ⟨_, result, hended, herror⟩, hflags⟩ := hseen
  have hrest : second.rest = .throw (nonceUsed (Sample.nonce .first)) := by
    have hsame : Sample.replayError = nonceUsed (Sample.nonce .first) := by
      decide
    rw [result?_eq_some_iff.mp hended, errorOf_eq_some_iff.mp herror, hsame]
    rfl
  simp only [Sample.checkFlags, World.toReplay, hcalls, List.map_cons,
    List.map_nil, List.cons.injEq, and_true] at hflags
  obtain ⟨_, hcheck⟩ := hflags
  obtain ⟨event, hevent, hstage⟩ := List.any_eq_true.mp hcheck
  have hverified : Verified (Sample.nonce .first) second :=
    verified_of_spends hevent (by
      have := of_decide_eq_true hstage
      unfold Op.Spends
      omega) (by simp [Request.nonce, hsecond])
  have hcall : second ∈ w.calls := by simp [hcalls]
  obtain ⟨reply, order, time, hchecks, hcauses⟩ :=
    (replays_have_causes _ run hcall hverified).1.mp hrest
  refine ⟨w, run, second, hcall, hrest, reply, order, time, hchecks, ?_⟩
  refine hcauses.imp_right fun hstored => hstored.resolve_left ?_
  rintro ⟨entry, hentry, _⟩
  cases hentry

/-- So what is rejected as a replay in one run is rejected in every other run
from the same state, if it comes to its nonce check there at the same time, the
same having been done with its nonce, and Redis fails there if it does here. -/
theorem replayed_alike (s₀ : Shared) {w w' : World (handle ext config) Shared}
    (run : Run (World.step proxySemantics) always
      (World.start (handle ext config) s₀) w)
    (run' : Run (World.step proxySemantics) always
      (World.start (handle ext config) s₀) w')
    {call call' : Call (handle ext config)} (hcall : call ∈ w.calls)
    (hcall' : call' ∈ w'.calls) {nonce : Bytes32}
    (hverified : Verified nonce call)
    (hsame : ∀ reply order time, ChecksNonce nonce call reply order time →
      ∃ reply' order', ChecksNonce nonce call' reply' order' time ∧
        ((∃ cause, reply = .error cause) → ∃ cause, reply' = .error cause) ∧
        doneWith nonce order w = doneWith nonce order' w')
    (h : call.rest = .throw (nonceUsed nonce)) :
    call'.rest = .throw (nonceUsed nonce) := by
  obtain ⟨reply, order, time, hcheck, hreply⟩ := (nonceUsed_iff hverified).mp h
  obtain ⟨reply', order', hcheck', hfails, hdone⟩ :=
    hsame reply order time hcheck
  have hcauses := (notStored_iff run hcall hcheck).mp hreply
  rw [hdone] at hcauses
  have hreply' : reply' ≠ .ok true :=
    (notStored_iff run' hcall' hcheck').mpr (hcauses.imp_left hfails)
  obtain ⟨ttlSecs, hmem⟩ := hcheck'
  exact rest_of_failsAfter (forwardRequest_nonceUsed nonce)
    (by simp [Op.Spends, Op.stage]) hmem ⟨rfl, hreply'⟩

end X402Guard

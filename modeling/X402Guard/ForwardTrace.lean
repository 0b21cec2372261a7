/-
What the calls of a forwarded request say about it.  Each step of the flow has
its own operations, so an operation of a late step in a trace means that every
earlier step has ended well, and its calls come before.
-/
import X402Guard.ProxySystem

namespace X402Guard

open Interaction Prog

/-- The step of `forwardRequest` an operation belongs to; operations of more
than one step count as 0.  Those of other handlers count as 12, the INSERT of a
session key as 13, and the transaction of `revokeAll` as 14. -/
def Op.stage : Op → Nat
  | .clock | .emit _ | .redisConnect => 0
  | .postgres (.selectSessionKey _) => 6
  | .postgres (.selectAgent _) | .postgres (.selectActiveRules _)
  | .postgres (.sumLast24h _) => 7
  | .redis (.setNxEx ..) => 8
  | .nextCounter | .redis (.slideWindow ..) | .redis (.zrem ..) => 9
  | .postgres .beginSpend | .postgres (.insertSpend ..)
  | .postgres (.incrementSpent ..) => 10
  | .httpGet .. => 11
  | .postgres (.insertSessionKey ..) => 13
  | .postgres .begin | .postgres (.revokeAllInTx ..)
  | .postgres (.deactivateInTx ..) | .postgres (.commit _) => 14
  | .postgres _ => 12

/-- Operations of the steps up to `n`. -/
def UpTo (n : Nat) (op : Op) : Prop := op.stage ≤ n

namespace Repo

theorem query_within {S : Op → Prop} {q : Query} (h : S (.postgres q)) :
    (query q).Within S :=
  ⟨h, fun _ => within_lift _ _⟩

theorem query_reaches_ret_iff {q : Query} {trace : List (Event Op Reply)}
    {answer : q.Answer} :
    (query q).Reaches trace (.ret answer) ↔
      ∃ order time, trace = [⟨.postgres q, .ok answer, order, time⟩] := by
  rw [query, reaches_bind_ret_iff]
  constructor
  · rintro ⟨first, second, reply, rfl, hfirst, hsecond⟩
    obtain ⟨order, time, rfl⟩ := reaches_perform_ret_iff.mp hfirst
    obtain ⟨rfl, hreply⟩ := reaches_lift_ret_iff.mp hsecond
    cases reply with
    | error error => cases hreply
    | ok answer' =>
        cases hreply
        exact ⟨order, time, rfl⟩
  · rintro ⟨order, time, rfl⟩
    exact ⟨_, [], _, rfl, reaches_perform_ret_iff.mpr ⟨order, time, rfl⟩,
      reaches_lift_ret_iff.mpr ⟨rfl, rfl⟩⟩

end Repo

variable {ext : Externals} {config : AppConfig}

theorem emit_within {S : Op → Prop} {event : AuditEvent}
    (h : S (.emit event)) : (emit event).Within S :=
  ⟨h, fun _ => trivial⟩

theorem clock_within {S : Op → Prop} {ε : Type} (h : S .clock) :
    (Prog.perform Op.clock : Prog Op Reply ε Micros).Within S :=
  ⟨h, fun _ => trivial⟩

theorem receivePayment_ops {S : Op → Prop} (req : ProxyRequest)
    (hemit : S (.emit (receivedEvent ext req))) (hclock : S .clock) :
    (receivePayment ext req).Within S := by
  refine Within.bind (within_lift _ _) fun _ => ?_
  refine Within.bind (emit_within hemit) fun _ => ?_
  refine Within.bind (within_lift _ _) fun _ => ?_
  refine Within.bind (within_lift _ _) fun _ => ?_
  refine Within.bind (within_lift _ _) fun _ => ?_
  refine Within.bind (within_lift _ _) fun _ => ?_
  exact Within.bind (clock_within hclock) fun _ => within_lift _ _

theorem receivePayment_within (req : ProxyRequest) :
    (receivePayment ext req).Within (UpTo 0) :=
  receivePayment_ops req (Nat.le_refl 0) (Nat.le_refl 0)

theorem findSessionKey_within {S : Op → Prop} {keyId : Uuid}
    (h : S (.postgres (.selectSessionKey keyId))) :
    (Repo.SessionKeys.findById keyId).Within S := by
  refine Within.bind (Repo.query_within h) fun found => ?_
  cases found with
  | none => trivial
  | some row => exact Within.bind (within_lift _ _) fun _ => trivial

theorem checkSessionKey_ops {S : Op → Prop} (received : Received)
    (hselect : ∀ keyId, S (.postgres (.selectSessionKey keyId)))
    (hclock : S .clock) : (checkSessionKey ext received).Within S := by
  unfold checkSessionKey
  split
  · trivial
  · refine Within.bind (within_mapError.mpr
      (findSessionKey_within (hselect _))) fun _ => ?_
    refine Within.bind (within_lift _ _) fun _ => ?_
    exact Within.bind (clock_within hclock) fun _ => within_lift _ _

theorem checkSessionKey_within (received : Received) :
    (checkSessionKey ext received).Within (UpTo 6) :=
  checkSessionKey_ops received (fun _ => Nat.le_refl 6) (Nat.zero_le 6)

theorem checkGuardrails_ops {S : Op → Prop} (req : ProxyRequest)
    (received : Received) (hagent : ∀ id, S (.postgres (.selectAgent id)))
    (hrules : ∀ id, S (.postgres (.selectActiveRules id)))
    (hsum : ∀ id, S (.postgres (.sumLast24h id)))
    (hemit : ∀ event, S (.emit event)) :
    (checkGuardrails ext req received).Within S := by
  unfold checkGuardrails
  split
  · trivial
  · refine Within.bind (within_mapError.mpr
      (Repo.query_within (hagent _))) fun _ => ?_
    refine Within.bind (within_lift _ _) fun _ => ?_
    refine Within.bind (within_lift _ _) fun _ => ?_
    refine Within.bind (within_mapError.mpr (Within.bind
      (Repo.query_within (hrules _)) fun _ => within_lift _ _)) fun _ => ?_
    refine Within.bind (within_mapError.mpr (Within.bind
      (Repo.query_within (hsum _)) fun _ => within_lift _ _)) fun _ => ?_
    split
    · trivial
    · exact Within.bind (emit_within (hemit _)) fun _ => trivial

theorem checkGuardrails_within (req : ProxyRequest) (received : Received) :
    (checkGuardrails ext req received).Within (UpTo 7) :=
  checkGuardrails_ops req received (fun _ => Nat.le_refl 7)
    (fun _ => Nat.le_refl 7) (fun _ => Nat.le_refl 7) fun _ => Nat.zero_le 7

theorem checkNonce_ops {S : Op → Prop} (received : Received)
    (hconnect : S .redisConnect)
    (hset : ∀ ttlSecs, S (.redis
      (.setNxEx (nonceKey (nonceHex received.verified)) ttlSecs))) :
    (checkNonce received).Within S := by
  refine Within.bind (within_mapError.mpr ?_) fun _ => within_lift _ _
  refine Within.bind ⟨hconnect, fun _ => trivial⟩ fun _ => ?_
  refine Within.bind (within_lift _ _) fun _ => ?_
  exact Within.bind ⟨hset _, fun _ => trivial⟩ fun _ => trivial

theorem checkNonce_within (received : Received) :
    (checkNonce received).Within (UpTo 8) :=
  checkNonce_ops received (Nat.zero_le 8) fun _ => Nat.le_refl 8

theorem checkRateLimit_ops {S : Op → Prop} (hconnect : S .redisConnect)
    (hclock : S .clock) (hcounter : S .nextCounter)
    (hslide : ∀ key start score member ttlSecs,
      S (.redis (.slideWindow key start score member ttlSecs)))
    (hremove : ∀ key member, S (.redis (.zrem key member))) :
    (checkRateLimit config).Within S := by
  refine Within.bind (within_mapError.mpr ?_) fun _ => within_lift _ _
  refine Within.bind ⟨hconnect, fun _ => trivial⟩ fun _ => ?_
  refine Within.bind (within_lift _ _) fun _ => ?_
  refine Within.bind (clock_within hclock) fun _ => ?_
  refine Within.bind ⟨hcounter, fun _ => trivial⟩ fun _ => ?_
  refine Within.bind ⟨hslide _ _ _ _ _, fun _ => trivial⟩ fun _ => ?_
  refine Within.bind (within_lift _ _) fun _ => ?_
  dsimp only
  split
  · exact Within.bind ⟨hremove _ _, fun _ => trivial⟩ fun _ => trivial
  · trivial

theorem checkRateLimit_within : (checkRateLimit config).Within (UpTo 9) :=
  checkRateLimit_ops (Nat.zero_le 9) (Nat.zero_le 9) (Nat.le_refl 9)
    (fun _ _ _ _ _ => Nat.le_refl 9) fun _ _ => Nat.le_refl 9

/-- The operations of a reservation: those of the ledger and the charge. -/
theorem recordSpendAtomic_within {S : Op → Prop} {agentId : Uuid}
    {sessionKeyId : Option Uuid} {amount : Nat} {txNonce : String}
    {dailyLimit : Option Nat} (hbegin : S (.postgres .beginSpend))
    (hinsert : ∀ snapshot values limit?, values.txNonce = txNonce →
      S (.postgres (.insertSpend snapshot values limit?))) :
    (Repo.SpendLedger.recordSpendAtomic agentId sessionKeyId amount txNonce
      dailyLimit).Within S := by
  refine Within.bind (within_lift _ _) fun _ => ?_
  split
  · refine Within.bind (within_lift _ _) fun _ => ?_
    refine Within.bind (Repo.query_within hbegin) fun _ => ?_
    exact Within.bind (Repo.query_within (hinsert _ _ _ rfl)) fun _ => trivial
  · refine Within.bind (Repo.query_within hbegin) fun _ => ?_
    exact Within.bind (Repo.query_within (hinsert _ _ _ rfl)) fun _ => trivial

theorem incrementSpent_within {S : Op → Prop} {keyId : Uuid} {amount : Nat}
    (h : ∀ n : Nat, S (.postgres (.incrementSpent keyId n))) :
    (Repo.SessionKeys.incrementSpent keyId amount).Within S := by
  unfold Repo.SessionKeys.incrementSpent
  cases hamount : okOr "amount exceeds i64::MAX" (i64TryFrom amount) with
  | error error => trivial
  | ok value =>
      rw [okOr_eq_ok_iff, i64TryFrom_eq_some_iff] at hamount
      obtain ⟨_, rfl⟩ := hamount
      rw [lift_ok, ret_bind]
      refine Within.bind (Repo.query_within (h amount)) fun affected => ?_
      split <;> trivial

theorem reserveSpend_ops {S : Op → Prop} (received : Received)
    (agentRules : Option (List GuardrailRule))
    (hbegin : S (.postgres .beginSpend))
    (hinsert : ∀ snapshot values limit?,
      values.txNonce = nonceHex received.verified →
      S (.postgres (.insertSpend snapshot values limit?)))
    (hcharge : ∀ keyId (n : Nat), S (.postgres (.incrementSpent keyId n))) :
    (reserveSpend received agentRules).Within S := by
  unfold reserveSpend
  split
  · trivial
  · refine Within.bind (within_mapError.mpr
      (recordSpendAtomic_within hbegin hinsert)) fun _ => ?_
    refine Within.bind (within_lift _ _) fun _ => ?_
    split
    · trivial
    · exact within_mapError.mpr (incrementSpent_within (hcharge _))

theorem reserveSpend_within (received : Received)
    (agentRules : Option (List GuardrailRule)) :
    (reserveSpend received agentRules).Within (UpTo 10) :=
  reserveSpend_ops received agentRules (Nat.le_refl 10)
    (fun _ _ _ _ => Nat.le_refl 10) fun _ _ => Nat.le_refl 10

theorem concludeForward_within {S : Op → Prop} (req : ProxyRequest)
    (received : Received) (reply : HttpReply) (h : ∀ event, S (.emit event)) :
    (concludeForward ext req received reply).Within S := by
  cases reply with
  | notSent cause => trivial
  | noResponse cause => trivial
  | response status body =>
      simp only [concludeForward]
      split <;> exact Within.bind (emit_within (h _)) fun _ => trivial

theorem forwardToTarget_within (req : ProxyRequest) (received : Received) :
    (forwardToTarget ext req received).Within fun op =>
      op.stage = 0 ∨ op.stage = 11 := by
  refine Within.bind (within_lift _ _) fun _ => ?_
  refine Within.bind ⟨Or.inr rfl, fun _ => trivial⟩ fun reply => ?_
  exact concludeForward_within req received reply fun _ => Or.inl rfl

/-- What is known of the request once the first five steps have passed. -/
structure Received.Valid (ext : Externals) (req : ProxyRequest)
    (received : Received) : Prop where
  requirements :
    ext.decodeRequirements req.x402Requirements = .ok received.requirements
  verified : ∃ payment nowSecs,
    ext.decodePayload req.x402Payment = .ok payment ∧
      verifyRequest ext req received.requirements payment nowSecs =
        .ok received

theorem verifyRequest_requirements {req : ProxyRequest}
    {requirements : PaymentRequirements} {payment : PaymentPayload}
    {nowSecs : Nat} {received : Received}
    (h : verifyRequest ext req requirements payment nowSecs = .ok received) :
    received.requirements = requirements := by
  simp only [verifyRequest, except_bind_eq_ok] at h
  obtain ⟨_, _, _, _, _, _, _, _, hreceived⟩ := h
  cases hreceived
  rfl

theorem receivePayment_valid {req : ProxyRequest} {received : Received}
    {trace : List (Event Op Reply)}
    (h : (receivePayment ext req).Reaches trace (.ret received)) :
    received.Valid ext req := by
  simp only [receivePayment, reaches_bind_ret_iff, reaches_lift_ret_iff] at h
  obtain ⟨_, _, _, _, _, _, _, _, _, _, _, _, requirements, _,
    ⟨_, hrequirements⟩, _, _, payment, _, ⟨_, hpayment⟩, _, _, _, _, _,
    _, _, _, _, _, _, _, now, _, _, _, hverify⟩ := h
  rw [parsePaymentRequirements, mapError_eq_ok_iff] at hrequirements
  rw [parsePaymentPayload, mapError_eq_ok_iff] at hpayment
  rw [← verifyRequest_requirements hverify] at hrequirements hverify
  exact ⟨hrequirements, payment, _, hpayment, hverify⟩

/-- A key that was checked was read, and passed at a later time. -/
theorem checkSessionKey_reaches_ret {received : Received} {keyId : Uuid}
    {trace : List (Event Op Reply)}
    (hkey : received.sessionKeyId = some keyId)
    (h : (checkSessionKey ext received).Reaches trace (.ret ())) :
    ∃ row key now rest, rowToSessionKey row = .ok key ∧
      verifySessionKey ext now key received.verified
        (targetContract received.requirements) = .ok () ∧
      (∃ order time, trace = ⟨.postgres (.selectSessionKey keyId),
        .ok (some row), order, time⟩ :: rest) ∧
      Performed rest .clock now := by
  simp only [checkSessionKey, hkey, reaches_bind_ret_iff,
    reaches_mapError_ret_iff, reaches_lift_ret_iff, reaches_perform_ret_iff,
    Repo.SessionKeys.findById] at h
  obtain ⟨_, second, found, rfl, ⟨first, tail, row?, rfl, hquery, hfound⟩,
    _, _, key, rfl, ⟨rfl, hkey'⟩, _, _, now, rfl, ⟨order', time', rfl⟩, rfl,
    hverify⟩ := h
  obtain ⟨order, time, rfl⟩ := Repo.query_reaches_ret_iff.mp hquery
  rw [okOr_eq_ok_iff] at hkey'
  subst hkey'
  cases row? with
  | none => simp at hfound
  | some row =>
      simp only [reaches_bind_ret_iff, reaches_lift_ret_iff, pure_eq_ret,
        reaches_ret_iff] at hfound
      obtain ⟨_, _, key', rfl, ⟨rfl, hrow⟩, rfl, heq⟩ := hfound
      cases heq
      exact ⟨row, key, now, _, hrow, hverify, ⟨order, time, rfl⟩,
        by simp⟩

/-- The guardrails step read an active agent and then its rules. -/
theorem checkGuardrails_reaches_ret {req : ProxyRequest}
    {received : Received} {agentId : Uuid}
    {agentRules : Option (List GuardrailRule)} {trace : List (Event Op Reply)}
    (hagent : received.agentId = some agentId)
    (h : (checkGuardrails ext req received).Reaches trace (.ret agentRules)) :
    ∃ agent rows rules dailySpent,
      Performed trace (.postgres (.selectAgent agentId)) (.ok (some agent)) ∧
      agent.isActive = true ∧
      Performed trace (.postgres (.selectActiveRules agentId)) (.ok rows) ∧
      rowsToRules rows = .ok rules ∧ agentRules = some rules ∧
      evaluate ext rules received.verified received.requirements dailySpent =
        .ok () := by
  simp only [checkGuardrails, hagent, reaches_bind_ret_iff,
    reaches_mapError_ret_iff, reaches_lift_ret_iff, rejectIf_eq_ok_iff,
    Repo.Agents.findById, Repo.Guardrails.findActiveByAgent,
    Repo.SpendLedger.sumLast24h, okOr_eq_ok_iff] at h
  obtain ⟨_, _, found, rfl, hagentQuery, _, _, agent, rfl, ⟨rfl, rfl⟩,
    _, _, _, rfl, ⟨rfl, hactive⟩, _, _, rules, rfl,
    ⟨_, _, rows, rfl, hrulesQuery, rfl, hrules⟩, _, third, dailySpent, rfl,
    _, hrest⟩ := h
  obtain ⟨order₁, time₁, rfl⟩ := Repo.query_reaches_ret_iff.mp hagentQuery
  obtain ⟨order₂, time₂, rfl⟩ := Repo.query_reaches_ret_iff.mp hrulesQuery
  refine ⟨agent, rows, rules, dailySpent, ⟨order₁, time₁, by simp⟩,
    by simpa using hactive, ⟨order₂, time₂, by simp⟩, hrules, ?_⟩
  split at hrest
  · rename_i heval
    rw [pure_eq_ret, reaches_ret_iff] at hrest
    obtain ⟨_, heq⟩ := hrest
    cases heq
    exact ⟨rfl, heval⟩
  · rw [reaches_bind_ret_iff] at hrest
    obtain ⟨_, _, _, _, _, hthrow⟩ := hrest
    rw [reaches_throw_iff] at hthrow
    cases hthrow.2

/-- A nonce that was accepted has been stored. -/
theorem checkNonce_reaches_ret {received : Received}
    {trace : List (Event Op Reply)}
    (h : (checkNonce received).Reaches trace (.ret ())) :
    Performed trace (.redis (.setNxEx (nonceKey (nonceHex received.verified))
      (nonceTtl received.requirements))) (.ok true) := by
  simp only [checkNonce, checkAndStore, reaches_bind_ret_iff,
    reaches_mapError_ret_iff, reaches_lift_ret_iff, reaches_perform_ret_iff,
    rejectIf_eq_ok_iff, pure_eq_ret, reaches_ret_iff] at h
  obtain ⟨_, _, isNew, rfl, ⟨_, _, _, rfl, ⟨_, _, rfl⟩, _, _, _, rfl,
    ⟨rfl, _⟩, _, _, wasSet, rfl, ⟨order, time, rfl⟩, rfl, hset⟩, rfl,
    hnew⟩ := h
  have hwas : wasSet = .ok true := by
    cases wasSet with
    | error error => simp_all [Except.toOption]
    | ok value => simp_all [Except.toOption]
  subst hwas
  exact ⟨order, time, by simp⟩

/-- The values a request's reservation inserts. -/
def Received.spendValues (received : Received) (agentId : Uuid) :
    SpendValues :=
  ⟨agentId, received.sessionKeyId, received.paymentAmount,
    nonceHex received.verified⟩

/-- A reservation that answered `true`: it took a snapshot, and inserted its
row under the limit with that snapshot. -/
theorem recordSpendAtomic_reaches_true {agentId : Uuid}
    {sessionKeyId : Option Uuid} {amount : Nat} {txNonce : String}
    {dailyLimit : Option Nat} {trace : List (Event Op Reply)}
    (h : (Repo.SpendLedger.recordSpendAtomic agentId sessionKeyId amount
      txNonce dailyLimit).Reaches trace (.ret true)) :
    ∃ (snapshot : Snapshot) (affected order₁ time₁ order₂ time₂ : Nat),
      (dailyLimit.isSome = true → 0 < affected) ∧
      trace = [⟨.postgres .beginSpend, .ok snapshot, order₁, time₁⟩,
        ⟨.postgres (.insertSpend snapshot
          ⟨agentId, sessionKeyId, amount, txNonce⟩ (dailyLimit.map (↑))),
          .ok affected, order₂, time₂⟩] := by
  simp only [Repo.SpendLedger.recordSpendAtomic, reaches_bind_ret_iff,
    reaches_lift_ret_iff, okOr_eq_ok_iff, i64TryFrom_eq_some_iff] at h
  obtain ⟨_, _, _, rfl, ⟨rfl, _, rfl⟩, h⟩ := h
  cases dailyLimit with
  | none =>
      simp only [reaches_bind_ret_iff, pure_eq_ret, reaches_ret_iff] at h
      obtain ⟨_, _, snapshot, rfl, hbegin, _, _, affected, rfl, hinsert,
        rfl, _⟩ := h
      obtain ⟨order₁, time₁, rfl⟩ := Repo.query_reaches_ret_iff.mp hbegin
      obtain ⟨order₂, time₂, rfl⟩ := Repo.query_reaches_ret_iff.mp hinsert
      exact ⟨snapshot, affected, order₁, time₁, order₂, time₂, by simp, rfl⟩
  | some limit =>
      simp only [reaches_bind_ret_iff, reaches_lift_ret_iff, okOr_eq_ok_iff,
        i64TryFrom_eq_some_iff, pure_eq_ret, reaches_ret_iff] at h
      obtain ⟨_, _, _, rfl, ⟨rfl, _, rfl⟩, _, _, snapshot, rfl, hbegin,
        _, _, affected, rfl, hinsert, rfl, haffected⟩ := h
      obtain ⟨order₁, time₁, rfl⟩ := Repo.query_reaches_ret_iff.mp hbegin
      obtain ⟨order₂, time₂, rfl⟩ := Repo.query_reaches_ret_iff.mp hinsert
      simp only [Prog.ret.injEq] at haffected
      exact ⟨snapshot, affected, order₁, time₁, order₂, time₂,
        fun _ => of_decide_eq_true haffected.symm, rfl⟩

/-- What a reservation inserts, and with which snapshot, however it ends. -/
theorem recordSpendAtomic_inserts {agentId : Uuid}
    {sessionKeyId : Option Uuid} {amount : Nat} {txNonce : String}
    {dailyLimit : Option Nat} {trace : List (Event Op Reply)}
    {rest : RepoM Bool} {event : Event Op Reply} {snapshot : Snapshot}
    {values : SpendValues} {limit? : Option Int}
    (h : (Repo.SpendLedger.recordSpendAtomic agentId sessionKeyId amount
      txNonce dailyLimit).Reaches trace rest) (hevent : event ∈ trace)
    (hop : event.op = .postgres (.insertSpend snapshot values limit?)) :
    values = ⟨agentId, sessionKeyId, amount, txNonce⟩ ∧
      limit? = dailyLimit.map (↑) ∧
      Performed trace (.postgres .beginSpend) (.ok snapshot) := by
  have hnot : ¬ event.op = .postgres .beginSpend := by
    rw [hop]
    exact fun heq => by cases heq
  obtain ⟨amountI64, _, trace, rfl, hamount, h, hevent⟩ :=
    reaches_bind_of_mem h (within_lift (fun _ => False) _) hevent id
  rw [reaches_lift_ret_iff, okOr_eq_ok_iff, i64TryFrom_eq_some_iff] at hamount
  obtain ⟨rfl, _, rfl⟩ := hamount
  -- the INSERT itself, once its limit has been converted
  have hinsert : ∀ {α : Type} {limit : Option Int} {f : Nat → RepoM α}
      {rest : RepoM α}, (∀ n, ∃ a, f n = .ret a) →
      (Repo.query .beginSpend >>= fun taken => Repo.query (.insertSpend taken
        ⟨agentId, sessionKeyId, amount, txNonce⟩ limit) >>= f).Reaches trace
        rest →
      values = ⟨agentId, sessionKeyId, amount, txNonce⟩ ∧ limit? = limit ∧
        Performed trace (.postgres .beginSpend) (.ok snapshot) := by
    intro α limit f rest hf h
    obtain ⟨taken, first, second, rfl, hbegin, hrest, hafter⟩ :=
      reaches_bind_of_mem h (Repo.query_within
        (S := fun op => op = .postgres .beginSpend) rfl) hevent hnot
    obtain ⟨order, time, rfl⟩ := Repo.query_reaches_ret_iff.mp hbegin
    have hwithin : (Repo.query (.insertSpend taken
        ⟨agentId, sessionKeyId, amount, txNonce⟩ limit) >>= f).Within fun op =>
          op = .postgres (.insertSpend taken
            ⟨agentId, sessionKeyId, amount, txNonce⟩ limit) := by
      refine Within.bind (Repo.query_within rfl) fun n => ?_
      obtain ⟨a, heq⟩ := hf n
      rw [heq]
      trivial
    have hsame := hwithin.of_mem hrest event hafter
    rw [hop] at hsame
    cases hsame
    exact ⟨rfl, rfl, order, time, by simp⟩
  cases dailyLimit with
  | none => exact hinsert (fun _ => ⟨true, rfl⟩) h
  | some limit =>
      obtain ⟨limitI64, _, trace, rfl, hlimit, h, hevent⟩ :=
        reaches_bind_of_mem h (within_lift (fun _ => False) _) hevent id
      rw [reaches_lift_ret_iff, okOr_eq_ok_iff, i64TryFrom_eq_some_iff]
        at hlimit
      obtain ⟨rfl, _, rfl⟩ := hlimit
      exact hinsert (fun n => ⟨decide (0 < n), rfl⟩) h

/-- A finished charge changed a row. -/
theorem incrementSpent_reaches_ret {keyId : Uuid} {amount : Nat}
    {trace : List (Event Op Reply)}
    (h : (Repo.SessionKeys.incrementSpent keyId amount).Reaches trace
      (.ret ())) :
    ∃ (affected order time : Nat), affected ≠ 0 ∧
      trace = [⟨.postgres (.incrementSpent keyId amount), .ok affected,
        order, time⟩] := by
  simp only [Repo.SessionKeys.incrementSpent, reaches_bind_ret_iff,
    reaches_lift_ret_iff, okOr_eq_ok_iff, i64TryFrom_eq_some_iff] at h
  obtain ⟨_, _, _, rfl, ⟨rfl, _, rfl⟩, _, _, affected, rfl, hquery, hrest⟩ := h
  obtain ⟨order, time, rfl⟩ := Repo.query_reaches_ret_iff.mp hquery
  split at hrest
  · rw [reaches_throw_iff] at hrest
    cases hrest.2
  · rename_i hne
    rw [pure_eq_ret, reaches_ret_iff] at hrest
    obtain ⟨rfl, _⟩ := hrest
    exact ⟨affected, order, time, hne, rfl⟩

/-- A finished reservation for an agent: the ledger row, then the charge of the
session key if one is named. -/
structure Reserved (received : Received) (agentId : Uuid)
    (agentRules : Option (List GuardrailRule))
    (trace : List (Event Op Reply)) : Prop where
  ledger : ∃ snapshot affected order₁ time₁ order₂ time₂ rest,
    ((agentRules.bind extractDailyLimit).isSome = true → 0 < affected) ∧
    trace = ⟨.postgres .beginSpend, .ok snapshot, order₁, time₁⟩ ::
      ⟨.postgres (.insertSpend snapshot (received.spendValues agentId)
        ((agentRules.bind extractDailyLimit).map (↑))),
        .ok affected, order₂, time₂⟩ :: rest ∧
    (received.sessionKeyId = none → rest = []) ∧
    ∀ keyId, received.sessionKeyId = some keyId →
      ∃ (charged order time : Nat), charged ≠ 0 ∧
        rest = [⟨.postgres (.incrementSpent keyId received.paymentAmount),
          .ok charged, order, time⟩]

theorem reserveSpend_reaches_ret {received : Received} {agentId : Uuid}
    {agentRules : Option (List GuardrailRule)} {trace : List (Event Op Reply)}
    (hagent : received.agentId = some agentId)
    (h : (reserveSpend received agentRules).Reaches trace (.ret ())) :
    Reserved received agentId agentRules trace := by
  simp only [reserveSpend, hagent, reaches_bind_ret_iff,
    reaches_mapError_ret_iff, reaches_lift_ret_iff, rejectIf_eq_ok_iff] at h
  obtain ⟨_, _, spendOk, rfl, hrecord, _, rest, _, rfl, ⟨rfl, hok⟩,
    hcharge⟩ := h
  rw [Bool.not_eq_false] at hok
  subst hok
  obtain ⟨snapshot, affected, order₁, time₁, order₂, time₂, haffected, rfl⟩ :=
    recordSpendAtomic_reaches_true hrecord
  refine ⟨⟨snapshot, affected, order₁, time₁, order₂, time₂, rest, haffected,
    rfl, ?_, ?_⟩⟩
  · intro hkey
    rw [hkey] at hcharge
    exact (reaches_ret_iff.mp hcharge).1
  · intro keyId hkey
    rw [hkey] at hcharge
    simp only [reaches_mapError_ret_iff] at hcharge
    obtain ⟨charged, order, time, hne, heq⟩ :=
      incrementSpent_reaches_ret hcharge
    exact ⟨charged, order, time, hne, heq⟩

/-- What the reservation of a request inserts, however it ends. -/
theorem reserveSpend_inserts {received : Received}
    {agentRules : Option (List GuardrailRule)} {trace : List (Event Op Reply)}
    {rest : Handler Unit} {event : Event Op Reply} {snapshot : Snapshot}
    {values : SpendValues} {limit? : Option Int}
    (h : (reserveSpend received agentRules).Reaches trace rest)
    (hevent : event ∈ trace)
    (hop : event.op = .postgres (.insertSpend snapshot values limit?)) :
    ∃ agentId, received.agentId = some agentId ∧
      values = received.spendValues agentId ∧
      limit? = (agentRules.bind extractDailyLimit).map (↑) ∧
      Performed trace (.postgres .beginSpend) (.ok snapshot) := by
  unfold reserveSpend at h
  split at h
  · rw [pure_eq_ret, reaches_ret_iff] at h
    rw [h.1] at hevent
    exact absurd hevent List.not_mem_nil
  · rename_i agentId hagent
    have hrecorded : ∀ {first : List (Event Op Reply)} {p : RepoM Bool},
        (Repo.SpendLedger.recordSpendAtomic agentId received.sessionKeyId
          received.paymentAmount (nonceHex received.verified)
          (agentRules.bind extractDailyLimit)).Reaches first p →
        event ∈ first → first ⊆ trace →
        ∃ agentId, received.agentId = some agentId ∧
          values = received.spendValues agentId ∧
          limit? = (agentRules.bind extractDailyLimit).map (↑) ∧
          Performed trace (.postgres .beginSpend) (.ok snapshot) := by
      intro first p hrecord hfirst hsub
      obtain ⟨hvalues, hlimit, hbegin⟩ :=
        recordSpendAtomic_inserts hrecord hfirst hop
      exact ⟨agentId, hagent, hvalues, hlimit, hbegin.mono hsub⟩
    rcases reaches_bind_iff.mp h with
      ⟨p', hp', _⟩ | ⟨spendOk, first, second, rfl, hfirst, hsecond⟩
    · obtain ⟨p, hp, _⟩ := reaches_mapError_iff.mp hp'
      exact hrecorded hp hevent (List.Subset.refl _)
    · rcases List.mem_append.mp hevent with hin | hafter
      · exact hrecorded (reaches_mapError_ret_iff.mp hfirst) hin
          (List.subset_append_left _ _)
      · -- what follows only charges the session key
        have hcharge : ∃ id n, event.op = .postgres (.incrementSpent id n) := by
          refine Within.of_mem (S := fun op => ∃ id n,
            op = .postgres (.incrementSpent id n))
            (Within.bind (within_lift _ _) fun _ => ?_) hsecond event hafter
          split
          · trivial
          · exact within_mapError.mpr
              (incrementSpent_within fun n => ⟨_, _, rfl⟩)
        obtain ⟨id, n, heq⟩ := hcharge
        rw [hop] at heq
        cases heq

/-- What the calls before the reservation show. -/
structure Admitted (ext : Externals) (req : ProxyRequest)
    (received : Received) (agentRules : Option (List GuardrailRule))
    (before : List (Event Op Reply)) : Prop where
  valid : received.Valid ext req
  stages : ∀ event ∈ before, event.op.stage ≤ 9
  sessionKey : ∀ keyId, received.sessionKeyId = some keyId →
    ∃ row key now first second, before = first ++ second ∧
      Performed first (.postgres (.selectSessionKey keyId))
        (.ok (some row)) ∧
      Performed second .clock now ∧ rowToSessionKey row = .ok key ∧
      verifySessionKey ext now key received.verified
        (targetContract received.requirements) = .ok ()
  agent : ∀ agentId, received.agentId = some agentId →
    ∃ agent rows rules,
      Performed before (.postgres (.selectAgent agentId))
        (.ok (some agent)) ∧ agent.isActive = true ∧
      Performed before (.postgres (.selectActiveRules agentId)) (.ok rows) ∧
      rowsToRules rows = .ok rules ∧ agentRules = some rules
  nonce : Performed before (.redis (.setNxEx
    (nonceKey (nonceHex received.verified)) (nonceTtl received.requirements)))
    (.ok true)

/-- The calls of the steps before the reservation, each of which went
through. -/
def Passed (ext : Externals) (config : AppConfig) (req : ProxyRequest)
    (received : Received) (agentRules : Option (List GuardrailRule))
    (before : List (Event Op Reply)) : Prop :=
  ∃ first second third fourth fifth,
    before = first ++ (second ++ (third ++ (fourth ++ fifth))) ∧
    (receivePayment ext req).Reaches first (.ret received) ∧
    (checkSessionKey ext received).Reaches second (.ret ()) ∧
    (checkGuardrails ext req received).Reaches third (.ret agentRules) ∧
    (checkNonce received).Reaches fourth (.ret ()) ∧
    (checkRateLimit config).Reaches fifth (.ret ())

theorem Passed.admitted {req : ProxyRequest} {received : Received}
    {agentRules : Option (List GuardrailRule)} {before : List (Event Op Reply)}
    (h : Passed ext config req received agentRules before) :
    Admitted ext req received agentRules before := by
  obtain ⟨t₁, t₂, t₃, t₄, t₅, rfl, h₁, h₂, h₃, h₄, h₅⟩ := h
  refine ⟨receivePayment_valid h₁, ?_, ?_, ?_, ?_⟩
  · have hupTo : ∀ {n : Nat} {t : List (Event Op Reply)}, n ≤ 9 →
        (∀ e ∈ t, UpTo n e.op) → ∀ e ∈ t, e.op.stage ≤ 9 :=
      fun hn ht e he => Nat.le_trans (ht e he) hn
    simp only [List.forall_mem_append]
    exact ⟨hupTo (by omega) ((receivePayment_within req).of_mem h₁),
      hupTo (by omega) ((checkSessionKey_within received).of_mem h₂),
      hupTo (by omega) ((checkGuardrails_within req received).of_mem h₃),
      hupTo (by omega) ((checkNonce_within received).of_mem h₄),
      hupTo (by omega) (checkRateLimit_within.of_mem h₅)⟩
  · intro keyId hkey
    obtain ⟨row, key, now, later, hrow, hverify, ⟨order, time, rfl⟩, hnow⟩ :=
      checkSessionKey_reaches_ret hkey h₂
    exact ⟨row, key, now,
      t₁ ++ [⟨.postgres (.selectSessionKey keyId), .ok (some row),
        order, time⟩], later ++ (t₃ ++ (t₄ ++ t₅)), by simp,
      ⟨order, time, by simp⟩, hnow.append_right, hrow, hverify⟩
  · intro agentId hagent
    obtain ⟨agent, rows, rules, _, hread, hactive, hrows, hrules, heq, _⟩ :=
      checkGuardrails_reaches_ret hagent h₃
    exact ⟨agent, rows, rules, hread.append_right.append_left.append_left,
      hactive, hrows.append_right.append_left.append_left, hrules, heq⟩
  · exact (checkNonce_reaches_ret
      h₄).append_right.append_left.append_left.append_left

/-- A call of the reservation or the forwarding comes after everything that
admits the request. -/
theorem forwardRequest_admitted {req : ProxyRequest}
    {trace : List (Event Op Reply)} {rest : Handler ProxyResponse}
    {event : Event Op Reply}
    (h : (forwardRequest ext config req).Reaches trace rest)
    (hevent : event ∈ trace) (hstage : 9 < event.op.stage) :
    ∃ received agentRules before after, trace = before ++ after ∧
      Admitted ext req received agentRules before ∧ event ∈ after ∧
      (reserveSpend received agentRules >>= fun _ =>
        forwardToTarget ext req received).Reaches after rest := by
  obtain ⟨received, t₁, _, rfl, h₁, h, hevent⟩ :=
    reaches_bind_of_mem h (receivePayment_within req) hevent
      (by unfold UpTo; omega)
  obtain ⟨_, t₂, _, rfl, h₂, h, hevent⟩ :=
    reaches_bind_of_mem h (checkSessionKey_within received) hevent
      (by unfold UpTo; omega)
  obtain ⟨agentRules, t₃, _, rfl, h₃, h, hevent⟩ :=
    reaches_bind_of_mem h (checkGuardrails_within req received) hevent
      (by unfold UpTo; omega)
  obtain ⟨_, t₄, _, rfl, h₄, h, hevent⟩ :=
    reaches_bind_of_mem h (checkNonce_within received) hevent
      (by unfold UpTo; omega)
  obtain ⟨_, t₅, after, rfl, h₅, h, hevent⟩ :=
    reaches_bind_of_mem h checkRateLimit_within hevent (by unfold UpTo; omega)
  have hpassed : Passed ext config req received agentRules
      (t₁ ++ (t₂ ++ (t₃ ++ (t₄ ++ t₅)))) :=
    ⟨t₁, t₂, t₃, t₄, t₅, rfl, h₁, h₂, h₃, h₄, h₅⟩
  exact ⟨received, agentRules, _, after, by simp, hpassed.admitted, hevent, h⟩

/-- A call of the forwarding comes after a finished reservation too. -/
theorem forwardRequest_reserved {req : ProxyRequest}
    {trace : List (Event Op Reply)} {rest : Handler ProxyResponse}
    {event : Event Op Reply}
    (h : (forwardRequest ext config req).Reaches trace rest)
    (hevent : event ∈ trace) (hstage : 10 < event.op.stage) :
    ∃ received agentRules before reserve after,
      trace = before ++ (reserve ++ after) ∧
      Admitted ext req received agentRules before ∧
      (reserveSpend received agentRules).Reaches reserve (.ret ()) ∧
      (forwardToTarget ext req received).Reaches after rest ∧
      event ∈ after := by
  obtain ⟨received, agentRules, before, _, rfl, hadmitted, hevent, h⟩ :=
    forwardRequest_admitted h hevent (by omega)
  obtain ⟨_, reserve, after, rfl, hreserve, hforward, hevent⟩ :=
    reaches_bind_of_mem h (reserveSpend_within received agentRules) hevent
      (by unfold UpTo; omega)
  exact ⟨received, agentRules, before, reserve, after, rfl, hadmitted,
    hreserve, hforward, hevent⟩

namespace ProxyRequest

variable (ext : Externals) (req : ProxyRequest)

/-- The agent a request names. -/
def agent : Option Uuid := req.agentId.bind ext.parseUuid

/-- The session key a request names. -/
def sessionKey : Option Uuid := req.sessionKeyId.bind ext.parseUuid

/-- The amount its authorization pays. -/
def amount : Nat :=
  (((ext.decodePayload req.x402Payment).toOption.bind fun payment =>
    ext.parseU256 payment.payload.authorization.value).map BitVec.toNat).getD 0

/-- The EIP-3009 authorization it carries: the signer and the nonce. -/
def authorization : Option (Address × Bytes32) :=
  (ext.decodePayload req.x402Payment).toOption.bind fun payment =>
    (ext.parseAddress payment.payload.authorization.from).bind fun signer =>
      (parseBytes32 payment.payload.authorization.nonce).toOption.map
        fun nonce => (signer, nonce)

end ProxyRequest

namespace Request

variable (ext : Externals)

/-- The same of any request; only a request to be forwarded names anything. -/
def forwards : Request → Option ProxyRequest
  | .forwardRequest req => some req
  | _ => none

def agent (request : Request) : Option Uuid :=
  request.forwards.bind (ProxyRequest.agent ext)

def sessionKey (request : Request) : Option Uuid :=
  request.forwards.bind (ProxyRequest.sessionKey ext)

def amount (request : Request) : Nat :=
  (request.forwards.map (ProxyRequest.amount ext)).getD 0

def authorization (request : Request) : Option (Address × Bytes32) :=
  request.forwards.bind (ProxyRequest.authorization ext)

end Request

theorem parseOptionalId_eq_ok {message : String} {text? : Option String}
    {id? : Option Uuid} (h : parseOptionalId ext message text? = .ok id?) :
    id? = text?.bind ext.parseUuid := by
  cases text? with
  | none =>
      cases h
      rfl
  | some text =>
      simp only [parseOptionalId] at h
      cases hparse : ext.parseUuid text with
      | none => simp [hparse, okOr, Except.map] at h
      | some id =>
          simp only [hparse, okOr, Except.map, Except.ok.injEq] at h
          simp [← h, hparse]

/-- Once received, a request is what it names. -/
theorem Received.Valid.names {req : ProxyRequest} {received : Received}
    (h : received.Valid ext req) :
    received.agentId = req.agent ext ∧
      received.sessionKeyId = req.sessionKey ext ∧
      received.paymentAmount = req.amount ext ∧
      req.authorization ext =
        some (received.verified.from, received.verified.nonce) := by
  obtain ⟨payment, nowSecs, hpayment, hverify⟩ := h.verified
  simp only [verifyRequest, except_bind_eq_ok, okOr_eq_ok_iff,
    u64OfU256_eq_some_iff, pure, Except.pure, Except.ok.injEq] at hverify
  obtain ⟨verified, hverified, agentId, hagent, sessionKeyId, hkey, amount,
    ⟨_, rfl⟩, heq⟩ := hverify
  have hvalid := verifyPayment_valid ext hverified
  rw [← heq]
  refine ⟨parseOptionalId_eq_ok hagent, parseOptionalId_eq_ok hkey, ?_, ?_⟩
  · simp [ProxyRequest.amount, hpayment, hvalid.value, Except.toOption]
  · simp [ProxyRequest.authorization, hpayment, hvalid.sender, hvalid.nonce,
      Except.toOption]

namespace Sample

variable (which : Which) (forAgent withKey : Bool)

theorem received_valid : (received which forAgent withKey).Valid externals
    (request which forAgent withKey) := by
  refine ⟨?_, payment which, 1_700_000_100, decodePayload_sample which,
    verifyRequest_sample which forAgent withKey (by omega) (by omega)⟩
  exact mapError_eq_ok_iff.mp parsePaymentRequirements_sample

@[simp] theorem agent_request :
    (Request.forwardRequest (request which forAgent withKey)).agent externals =
      if forAgent then some agentId else none :=
  (received_valid which forAgent withKey).names.1.symm

@[simp] theorem sessionKey_request :
    (Request.forwardRequest (request which forAgent withKey)).sessionKey
      externals = if withKey then some keyId else none :=
  (received_valid which forAgent withKey).names.2.1.symm

@[simp] theorem amount_request :
    (Request.forwardRequest (request which forAgent withKey)).amount
      externals = 60_000_000 :=
  (received_valid which forAgent withKey).names.2.2.1.symm

@[simp] theorem authorization_request :
    (Request.forwardRequest (request which forAgent withKey)).authorization
      externals = some (signer, nonce which) :=
  (received_valid which forAgent withKey).names.2.2.2

end Sample

/-- The operations a request can lead to, by their stage. -/
def Request.Issues : Request → Op → Prop
  | .forwardRequest _, op => op.stage ≤ 11
  | .createSessionKey .., op => op.stage ≤ 7 ∨ op.stage = 13
  | .revokeAll .., op => op.stage ≤ 7 ∨ op.stage = 14
  | _, op => op.stage ≤ 7 ∨ op.stage = 12

theorem requireAgent_within {S : Op → Prop} {agentId : Uuid}
    (h : S (.postgres (.selectAgent agentId))) :
    (requireAgent agentId).Within S :=
  Within.bind (within_mapError.mpr (Repo.query_within h))
    fun _ => within_lift _ _

/-- The alphabet of every handler. -/
theorem handle_issues (request : Request) :
    (handle ext config request).Within request.Issues := by
  cases request with
  | forwardRequest req =>
      have hupTo : ∀ {n : Nat} {op : Op}, n ≤ 11 → UpTo n op →
          op.stage ≤ 11 := fun hn hop => Nat.le_trans hop hn
      refine Within.map ?_
      refine Within.bind ((receivePayment_within req).mono
        fun op => hupTo (by omega)) fun received => ?_
      refine Within.bind ((checkSessionKey_within received).mono
        fun op => hupTo (by omega)) fun _ => ?_
      refine Within.bind ((checkGuardrails_within req received).mono
        fun op => hupTo (by omega)) fun agentRules => ?_
      refine Within.bind ((checkNonce_within received).mono
        fun op => hupTo (by omega)) fun _ => ?_
      refine Within.bind (checkRateLimit_within.mono
        fun op => hupTo (by omega)) fun _ => ?_
      refine Within.bind ((reserveSpend_within received agentRules).mono
        fun op => hupTo (by omega)) fun _ => ?_
      exact (forwardToTarget_within req received).mono fun op hop => by
        simp only [Request.Issues]
        omega
  | createAgent req =>
      refine Within.map ?_
      refine Within.bind (within_lift _ _) fun _ => ?_
      refine Within.bind (within_lift _ _) fun _ => ?_
      refine Within.bind (within_mapError.mpr
        (Repo.query_within (Or.inr rfl))) fun _ => ?_
      exact Within.bind (emit_within (Or.inl (Nat.zero_le 7)))
        fun _ => trivial
  | getAgent id =>
      exact Within.map (Within.bind
        (requireAgent_within (Or.inl (Nat.le_refl 7))) fun _ => trivial)
  | createRule agentId ruleType =>
      refine Within.map ?_
      refine Within.bind (requireAgent_within (Or.inl (Nat.le_refl 7)))
        fun _ => ?_
      exact Within.bind (within_mapError.mpr (Within.bind
        (Repo.query_within (Or.inr rfl))
        fun _ => within_lift _ _)) fun _ => trivial
  | updateRule agentId ruleId ruleType isActive =>
      refine Within.map (Within.bind (within_mapError.mpr (Within.bind
        (Repo.query_within (Or.inr rfl)) fun row? => ?_))
        fun _ => trivial)
      cases row? with
      | none => trivial
      | some row => exact within_lift _ _
  | deactivateRule agentId ruleId =>
      refine Within.map (Within.bind (within_mapError.mpr (Within.bind
        (Repo.query_within (Or.inr rfl)) fun affected => ?_))
        fun _ => trivial)
      split <;> trivial
  | createSessionKey agentId req =>
      refine Within.map ?_
      refine Within.bind (within_lift _ _) fun _ => ?_
      refine Within.bind (within_lift _ _) fun _ => ?_
      refine Within.bind ⟨Or.inl (Nat.zero_le 7), fun _ => trivial⟩
        fun _ => ?_
      refine Within.bind (within_lift _ _) fun _ => ?_
      refine Within.bind (requireAgent_within (Or.inl (Nat.le_refl 7)))
        fun _ => ?_
      refine Within.bind (within_mapError.mpr (Within.bind
        (within_lift _ _) fun _ => Within.bind
        (Repo.query_within (Or.inr rfl))
        fun _ => within_lift _ _)) fun _ => ?_
      exact Within.bind (emit_within (Or.inl (Nat.zero_le 7)))
        fun _ => trivial
  | getSessionKey agentId keyId =>
      refine Within.map ?_
      refine Within.bind (within_mapError.mpr
        (findSessionKey_within (Or.inl (Nat.le_succ 6)))) fun _ => ?_
      refine Within.bind (within_lift _ _) fun _ => ?_
      exact Within.bind (within_lift _ _) fun _ => trivial
  | revokeSessionKey agentId keyId =>
      refine Within.map (Within.bind (within_mapError.mpr (Within.bind
        (Repo.query_within (Or.inr rfl)) fun affected => ?_))
        fun _ => Within.bind (emit_within (Or.inl (Nat.zero_le 7)))
          fun _ => trivial)
      split <;> trivial
  | revokeAll agentId req =>
      refine Within.map ?_
      refine Within.bind (within_lift _ _) fun _ => ?_
      refine Within.bind (requireAgent_within (Or.inl (Nat.le_refl 7)))
        fun _ => ?_
      refine Within.bind (within_lift _ _) fun _ => ?_
      refine Within.bind (within_mapError.mpr
        (Repo.query_within (Or.inr rfl))) fun _ => ?_
      refine Within.bind (within_mapError.mpr
        (Repo.query_within (Or.inr rfl))) fun _ => ?_
      refine Within.bind (within_mapError.mpr (Within.bind
        (Repo.query_within (Or.inr rfl))
        fun (affected, tx) => ?_)) fun _ => ?_
      · dsimp only
        split <;> trivial
      refine Within.bind (within_mapError.mpr
        (Repo.query_within (Or.inr rfl))) fun _ => ?_
      refine Within.bind (emit_within (Or.inl (Nat.zero_le 7))) fun _ => ?_
      exact Within.bind (emit_within (Or.inl (Nat.zero_le 7)))
        fun _ => trivial

/-- Every call stays within the alphabet of its request. -/
theorem issues_of_mem {call : Call (handle ext config)}
    {event : Event Op Reply} (hevent : event ∈ call.trace) :
    call.request.Issues event.op :=
  (handle_issues call.request).of_mem call.reached event hevent

/-- So does the operation a call waits for. -/
theorem issues_of_rest {call : Call (handle ext config)} {op : Op}
    {next : Reply op → Handler Response} (hrest : call.rest = .call op next) :
    call.request.Issues op := by
  have hwithin := (handle_issues call.request).rest call.reached
  rw [hrest] at hwithin
  exact hwithin.1

/-- The operations that only forwarding a request performs. -/
def Op.Spends (op : Op) : Prop := 8 ≤ op.stage ∧ op.stage ≤ 11

/-- A call that has performed an operation of the late steps forwards a
request, and its trace is one of `forwardRequest`. -/
theorem forwards_of_spends {call : Call (handle ext config)}
    {event : Event Op Reply} (hevent : event ∈ call.trace)
    (hspends : event.op.Spends) :
    ∃ req rest, call.request = .forwardRequest req ∧
      (forwardRequest ext config req).Reaches call.trace rest := by
  have hissues := issues_of_mem hevent
  have hreached := call.reached
  unfold Op.Spends at hspends
  cases hreq : call.request with
  | forwardRequest req =>
      rw [hreq] at hreached
      obtain ⟨rest, hrest⟩ := reaches_of_map hreached
      exact ⟨req, rest, rfl, hrest⟩
  | _ =>
      rw [hreq] at hissues
      simp only [Request.Issues] at hissues
      omega

/-- A call about to insert into the ledger has read the rules of the agent it
inserts for, has its limit from them, and has taken its snapshot. -/
theorem insertSpend_of_rest {call : Call (handle ext config)}
    {snapshot : Snapshot} {values : SpendValues} {limit? : Option Int}
    {next : Reply (.postgres (.insertSpend snapshot values limit?)) →
      Handler Response}
    (hrest : call.rest =
      .call (.postgres (.insertSpend snapshot values limit?)) next) :
    ∃ rows rules,
      Performed call.trace (.postgres (.selectActiveRules values.agentId))
        (.ok rows) ∧
      rowsToRules rows = .ok rules ∧
      limit? = (extractDailyLimit rules).map (↑) ∧
      Performed call.trace (.postgres .beginSpend) (.ok snapshot) := by
  let event : Event Op Reply := ⟨.postgres (.insertSpend snapshot values
    limit?), .error .connection, 0, 0⟩
  let resumed := call.resume hrest (.error .connection) 0 0
  have hevent : event ∈ resumed.trace := by simp [resumed, event]
  have hstage : event.op.stage = 10 := rfl
  obtain ⟨req, rest, _, h⟩ := forwards_of_spends hevent (by
    unfold Op.Spends
    omega)
  obtain ⟨received, agentRules, before, after, htrace, hadmitted, hafter,
    hreserve⟩ := forwardRequest_admitted h hevent (by omega)
  have hinserts : ∃ agentId, received.agentId = some agentId ∧
      values = received.spendValues agentId ∧
      limit? = (agentRules.bind extractDailyLimit).map (↑) ∧
      Performed after (.postgres .beginSpend) (.ok snapshot) := by
    rcases reaches_bind_iff.mp hreserve with
      ⟨p', hp', _⟩ | ⟨_, first, second, rfl, hfirst, hsecond⟩
    · exact reserveSpend_inserts hp' hafter rfl
    · rcases List.mem_append.mp hafter with hin | hlater
      · obtain ⟨agentId, hagent, hvalues, hlimit, hbegin⟩ :=
          reserveSpend_inserts hfirst hin rfl
        exact ⟨agentId, hagent, hvalues, hlimit, hbegin.append_right⟩
      · have := (forwardToTarget_within req received).of_mem hsecond event
          hlater
        omega
  obtain ⟨agentId, hagent, rfl, hlimit, hbegin⟩ := hinserts
  obtain ⟨_, rows, rules, _, _, hrows, hrules, heq⟩ :=
    hadmitted.agent agentId hagent
  subst heq
  have hperformed : ∀ {op : Op} {reply : Reply op}, op ≠ event.op →
      Performed resumed.trace op reply → Performed call.trace op reply :=
    fun hne hop => hop.of_snoc hne
  refine ⟨rows, rules, hperformed (fun heq => by cases heq) ?_, hrules,
    hlimit, hperformed (fun heq => by cases heq) ?_⟩
  · rw [htrace]
    exact hrows.append_right
  · rw [htrace]
    exact hbegin.append_left

/-- Only `revokeAll` commits a transaction, and its trace is one of
`revokeAll`. -/
theorem revokes_of_commit {call : Call (handle ext config)}
    {event : Event Op Reply} (hevent : event ∈ call.trace)
    (hstage : event.op.stage = 14) :
    ∃ agentId req rest, call.request = .revokeAll agentId req ∧
      (revokeAll agentId req).Reaches call.trace rest := by
  have hissues := issues_of_mem hevent
  have hreached := call.reached
  cases hreq : call.request with
  | revokeAll agentId req =>
      rw [hreq] at hreached
      obtain ⟨rest, hrest⟩ := reaches_of_map hreached
      exact ⟨agentId, req, rest, rfl, hrest⟩
  | _ =>
      rw [hreq] at hissues
      simp only [Request.Issues] at hissues
      omega

/-- The transaction that `revokeAll` commits is what it has gathered for its
agent. -/
theorem revokeAll_commits {agentId : Uuid} {req : RevokeAllRequest}
    {trace : List (Event Op Reply)} {rest : Handler RevokeAllResponse}
    {event : Event Op Reply} {tx : Tx}
    (h : (revokeAll agentId req).Reaches trace rest) (hevent : event ∈ trace)
    (hop : event.op = .postgres (.commit tx)) :
    ∃ tx₀ keys tx₁ affected,
      Performed trace (.postgres .begin) (.ok tx₀) ∧
      Performed trace (.postgres (.revokeAllInTx tx₀ agentId))
        (.ok (keys, tx₁)) ∧
      Performed trace (.postgres (.deactivateInTx tx₁ agentId))
        (.ok (affected, tx)) ∧ affected ≠ 0 := by
  have hne : ∀ op, op ≠ .postgres (.commit tx) → ¬ event.op = op :=
    fun op hop' heq => hop' (heq.symm.trans hop)
  obtain ⟨_, _, _, rfl, _, h, hevent⟩ := reaches_bind_of_mem h
    (within_lift (fun _ => False) _) hevent id
  obtain ⟨agent, _, _, rfl, _, h, hevent⟩ := reaches_bind_of_mem h
    (requireAgent_within (S := UpTo 7) (Nat.le_refl 7)) hevent
    (by simp [UpTo, hop, Op.stage])
  obtain ⟨_, _, _, rfl, _, h, hevent⟩ := reaches_bind_of_mem h
    (within_lift (fun _ => False) _) hevent id
  obtain ⟨tx₀, _, _, rfl, hbegin, h, hevent⟩ := reaches_bind_of_mem h
    (within_mapError.mpr (Repo.query_within
      (S := fun op => op = .postgres .begin) rfl)) hevent
    (hne _ fun heq => by cases heq)
  obtain ⟨⟨keys, tx₁⟩, _, _, rfl, hcollect, h, hevent⟩ :=
    reaches_bind_of_mem h (within_mapError.mpr (Repo.query_within
      (S := fun op => op = .postgres (.revokeAllInTx tx₀ agentId)) rfl)) hevent
    (hne _ fun heq => by cases heq)
  have hdeactivate : (Repo.Agents.deactivateTx tx₁ agentId).Within
      fun op => op = .postgres (.deactivateInTx tx₁ agentId) := by
    refine Within.bind (Repo.query_within rfl) fun (affected, tx) => ?_
    dsimp only
    split <;> trivial
  obtain ⟨tx₂, _, tail, rfl, hdone, h, hevent⟩ := reaches_bind_of_mem h
    (within_mapError.mpr hdeactivate) hevent
    (hne _ fun heq => by cases heq)
  have hrest : ∀ {S : Op → Prop}, S (.postgres (.commit tx₂)) →
      (∀ event, S (.emit event)) → S event.op := by
    intro S hcommit hemit
    refine Within.of_mem ?_ h event hevent
    refine Within.bind (within_mapError.mpr (Repo.query_within hcommit))
      fun _ => ?_
    exact Within.bind (emit_within (hemit _)) fun _ =>
      Within.bind (emit_within (hemit _)) fun _ => trivial
  have htx : tx = tx₂ := by
    have hsame := hrest (S := fun op =>
      ∀ tx, op = .postgres (.commit tx) → tx = tx₂)
      (fun tx heq => by cases heq; rfl) (fun _ _ heq => by cases heq)
    exact hsame tx hop
  subst htx
  rw [reaches_mapError_ret_iff] at hbegin hcollect hdone
  obtain ⟨order₁, time₁, rfl⟩ := Repo.query_reaches_ret_iff.mp hbegin
  obtain ⟨order₂, time₂, rfl⟩ := Repo.query_reaches_ret_iff.mp hcollect
  rw [Repo.Agents.deactivateTx, reaches_bind_ret_iff] at hdone
  obtain ⟨_, _, ⟨affected, tx₃⟩, rfl, hquery, hdone⟩ := hdone
  obtain ⟨order₃, time₃, rfl⟩ := Repo.query_reaches_ret_iff.mp hquery
  dsimp only at hdone
  split at hdone
  · rw [reaches_throw_iff] at hdone
    cases hdone.2
  · rename_i hne
    rw [pure_eq_ret, reaches_ret_iff] at hdone
    obtain ⟨_, heq⟩ := hdone
    cases heq
    exact ⟨tx₀, keys, tx₁, affected, ⟨order₁, time₁, by simp⟩,
      ⟨order₂, time₂, by simp⟩, ⟨order₃, time₃, by simp⟩, hne⟩

end X402Guard

/-
One request over two states that show the same time and the same database.  It
ends alike in both, unless it comes to its nonce check and the nonce is stored
in one of them only.
-/
import X402Guard.HandlerErrors
import X402Guard.NonceScope
import X402Guard.PairedExecution

namespace X402Guard

open Interaction Prog

variable {ext : Externals} {config : AppConfig}

/-- Steps 1 to 7. -/
def admitRequest (ext : Externals) (req : ProxyRequest) :
    Handler (Received × Option (List GuardrailRule)) := do
  let received ← receivePayment ext req
  checkSessionKey ext received
  let agentRules ← checkGuardrails ext req received
  return (received, agentRules)

/-- Steps 9 to 11. -/
def finishRequest (ext : Externals) (config : AppConfig) (req : ProxyRequest)
    (admitted : Received × Option (List GuardrailRule)) :
    Handler ProxyResponse := do
  checkRateLimit config
  reserveSpend admitted.1 admitted.2
  forwardToTarget ext req admitted.1

theorem forwardRequest_eq (req : ProxyRequest) :
    forwardRequest ext config req = admitRequest ext req >>= fun admitted =>
      checkNonce admitted.1 >>= fun _ =>
        finishRequest ext config req admitted := by
  simp only [forwardRequest, admitRequest, finishRequest, bind_assoc,
    pure_eq_ret, ret_bind]

/-- The request passes all checks that come before the nonce check, in this
state. -/
structure Admissible (ext : Externals) (req : ProxyRequest) (s : Shared)
    (received : Received) : Prop where
  url : validateTargetUrl ext req.targetUrl = .ok ()
  payment : ∃ requirements payment,
    parsePaymentRequirements ext req.x402Requirements = .ok requirements ∧
    parsePaymentPayload ext req.x402Payment = .ok payment ∧
    validateResourceMatch ext req.targetUrl requirements.resource = .ok () ∧
    validateAssetMatch ext payment requirements = .ok () ∧
    verifyRequest ext req requirements payment (s.now / microsPerSecond) =
      .ok received
  sessionKey : ∀ keyId, received.sessionKeyId = some keyId → ∃ row key,
    s.db.sessionKeys.find? keyId = some row ∧ rowToSessionKey row = .ok key ∧
    verifySessionKey ext s.now key received.verified
      (targetContract received.requirements) = .ok ()
  agent : ∀ agentId, received.agentId = some agentId →
    ∃ agent rules total dailySpent,
      s.db.agents.find? agentId = some agent ∧ agent.isActive = true ∧
      rowsToRules (s.db.guardrailRules.selectWhere fun row =>
        row.agentId = agentId ∧ row.isActive = true) = .ok rules ∧
      bigint (spentLast24h agentId s.now s.db.spendLedger.rows) =
        .ok total ∧
      u64TryFrom total = some dailySpent ∧
      evaluate ext rules received.verified received.requirements dailySpent =
        .ok ()

theorem emit_solo_ok {event : AuditEvent} {value : Unit} {s t : Shared}
    (h : (emit event).Solo proxySemantics s (.ok value) t) :
    t.now = s.now ∧ t.db = s.db := by
  simp only [emit, perform_bind, solo_call_iff, pure_eq_ret, solo_ret_iff,
    proxySemantics_perform] at h
  obtain ⟨outcome, _, rfl⟩ := h
  exact ⟨perform_now _ _ _, perform_db_of_ne (fun _ heq => by cases heq) _ _⟩

theorem clock_solo_ok {now : Micros} {s t : Shared}
    (h : (Prog.perform Op.clock : Handler Micros).Solo proxySemantics s
      (.ok now) t) : now = s.now ∧ t = s := by
  obtain ⟨outcome, hret⟩ := solo_call_iff.mp h
  obtain ⟨hnow, rfl⟩ := solo_ret_iff.mp hret
  exact ⟨Except.ok.inj hnow, rfl⟩

/-- Of the state, the first five steps change only what is reported. -/
theorem receivePayment_solo_ok {req : ProxyRequest} {received : Received}
    {s t : Shared}
    (h : (receivePayment ext req).Solo proxySemantics s (.ok received) t) :
    validateTargetUrl ext req.targetUrl = .ok () ∧
    (∃ requirements payment,
      parsePaymentRequirements ext req.x402Requirements = .ok requirements ∧
      parsePaymentPayload ext req.x402Payment = .ok payment ∧
      validateResourceMatch ext req.targetUrl requirements.resource =
        .ok () ∧
      validateAssetMatch ext payment requirements = .ok () ∧
      verifyRequest ext req requirements payment (s.now / microsPerSecond) =
        .ok received) ∧ t.now = s.now ∧ t.db = s.db := by
  simp only [receivePayment, solo_bind_ok_iff, solo_lift_iff] at h
  obtain ⟨_, _, ⟨hurl, rfl⟩, _, t₁, hemit, requirements, _,
    ⟨hrequirements, rfl⟩, payment, _, ⟨hpayment, rfl⟩, _, _,
    ⟨hresource, rfl⟩, _, _, ⟨hasset, rfl⟩, now, _, hclock, hverify, rfl⟩ := h
  obtain ⟨hnow, hdb⟩ := emit_solo_ok hemit
  obtain ⟨rfl, rfl⟩ := clock_solo_ok hclock
  rw [hnow] at hverify
  exact ⟨hurl, ⟨requirements, payment, hrequirements, hpayment, hresource,
    hasset, hverify⟩, hnow, hdb⟩

/-- A session key that passes was read and verified; nothing changes. -/
theorem checkSessionKey_solo_ok {received : Received} {value : Unit}
    {s t : Shared}
    (h : (checkSessionKey ext received).Solo proxySemantics s (.ok value) t) :
    (∀ keyId, received.sessionKeyId = some keyId → ∃ row key,
      s.db.sessionKeys.find? keyId = some row ∧
      rowToSessionKey row = .ok key ∧
      verifySessionKey ext s.now key received.verified
        (targetContract received.requirements) = .ok ()) ∧ t = s := by
  rcases Option.eq_none_or_eq_some received.sessionKeyId with
    hkey | ⟨keyId, hkey⟩
  · simp only [checkSessionKey, hkey, pure_eq_ret, solo_ret_iff] at h
    refine ⟨?_, h.2⟩
    intro keyId hsome
    rw [hkey] at hsome
    cases hsome
  · simp only [checkSessionKey, hkey, solo_bind_ok_iff, solo_lift_iff,
      solo_mapError_ok_iff, Repo.SessionKeys.findById] at h
    obtain ⟨found, t₂, ⟨row?, t₁, hquery, hfound⟩, key, _, ⟨hsome, rfl⟩, now,
      t₃, hclock, hverify, rfl⟩ := h
    obtain ⟨hrow?, hread⟩ := Repo.read_solo_ok hquery fun _ => rfl
    obtain ⟨rfl, hend⟩ := clock_solo_ok hclock
    rw [okOr_eq_ok_iff] at hsome
    subst hsome
    cases row? with
    | none => simp at hfound
    | some row =>
        simp only [solo_bind_ok_iff, solo_lift_iff, pure_eq_ret,
          solo_ret_iff] at hfound
        obtain ⟨key', _, ⟨hkey', rfl⟩, heq, rfl⟩ := hfound
        cases heq
        rw [hread] at hend hverify
        refine ⟨?_, hend⟩
        intro keyId' hsome
        rw [hkey] at hsome
        cases hsome
        exact ⟨row, key, hrow?.symm, hkey', hverify⟩

/-- Guardrails that pass allow the payment; nothing changes. -/
theorem checkGuardrails_solo_ok {req : ProxyRequest} {received : Received}
    {agentRules : Option (List GuardrailRule)} {s t : Shared}
    (h : (checkGuardrails ext req received).Solo proxySemantics s
      (.ok agentRules) t) :
    (∀ agentId, received.agentId = some agentId →
      ∃ agent rules total dailySpent,
        s.db.agents.find? agentId = some agent ∧ agent.isActive = true ∧
        rowsToRules (s.db.guardrailRules.selectWhere fun row =>
          row.agentId = agentId ∧ row.isActive = true) = .ok rules ∧
        bigint (spentLast24h agentId s.now s.db.spendLedger.rows) =
          .ok total ∧
        u64TryFrom total = some dailySpent ∧
        evaluate ext rules received.verified received.requirements
          dailySpent = .ok ()) ∧ t = s := by
  rcases Option.eq_none_or_eq_some received.agentId with
    hagent | ⟨agentId, hagent⟩
  · simp only [checkGuardrails, hagent, pure_eq_ret, solo_ret_iff] at h
    refine ⟨?_, h.2⟩
    intro agentId hsome
    rw [hagent] at hsome
    cases hsome
  · simp only [checkGuardrails, hagent, solo_bind_ok_iff, solo_lift_iff,
      solo_mapError_ok_iff, Repo.Agents.findById, rejectIf_eq_ok_iff,
      Repo.Guardrails.findActiveByAgent, Repo.SpendLedger.sumLast24h] at h
    obtain ⟨found, t₁, hfound, agent, _, ⟨hsome, rfl⟩, _, _,
      ⟨hactive, rfl⟩, rules, _, ⟨rows, t₂, hrows, hrules, rfl⟩, dailySpent, _,
      ⟨total, t₃, htotal, hspent, rfl⟩, hrest⟩ := h
    obtain ⟨rfl, hread⟩ := Repo.read_solo_ok hfound fun _ => rfl
    obtain ⟨rfl, hread'⟩ := Repo.read_solo_ok hrows fun _ => rfl
    obtain ⟨_, _, hsum, hread''⟩ := Repo.query_solo_ok htotal
    simp only [Query.run, except_bind_eq_ok, pure, Except.pure,
      Except.ok.injEq, Prod.mk.injEq] at hsum
    obtain ⟨total', hbigint, rfl, rfl⟩ := hsum
    rw [okOr_eq_ok_iff] at hsome hspent
    rw [hread', hread] at hread'' hbigint
    rw [hread] at hrules
    cases hevaluate : evaluate ext rules received.verified
        received.requirements dailySpent with
    | ok value' =>
        rw [hevaluate] at hrest
        simp only [pure_eq_ret, solo_ret_iff] at hrest
        refine ⟨?_, hrest.2.trans hread''⟩
        intro agentId' hsome'
        rw [hagent] at hsome'
        cases hsome'
        exact ⟨agent, rules, total', dailySpent, hsome, not_not.mp hactive,
          hrules, hbigint, hspent, hevaluate⟩
    | error violation =>
        rw [hevaluate] at hrest
        simp [solo_bind_ok_iff] at hrest

/-- A request is admitted only if it passes all the checks. -/
theorem admissible_of_solo {req : ProxyRequest} {received : Received}
    {agentRules : Option (List GuardrailRule)} {s t : Shared}
    (h : (admitRequest ext req).Solo proxySemantics s
      (.ok (received, agentRules)) t) : Admissible ext req s received := by
  simp only [admitRequest, solo_bind_ok_iff, pure_eq_ret, solo_ret_iff] at h
  obtain ⟨received', t₁, hreceive, _, t₂, hkey, agentRules', t₃, hguardrails,
    heq, rfl⟩ := h
  cases heq
  obtain ⟨hurl, hpayment, hnow, hdb⟩ := receivePayment_solo_ok hreceive
  obtain ⟨hkey, rfl⟩ := checkSessionKey_solo_ok hkey
  obtain ⟨hagent, rfl⟩ := checkGuardrails_solo_ok hguardrails
  simp only [hnow, hdb] at hkey hagent
  exact ⟨hurl, hpayment, hkey, hagent⟩

theorem alone_lift {ε α : Type} {outcome : Outcome} (result : Except ε α)
    (s : Shared) :
    (Prog.lift result : Prog Op Reply ε α).alone proxySemantics outcome s =
      (result, s) := by
  cases result <;> rfl

theorem read_alone {q : Query} {answer : q.Answer} {s : Shared}
    {outcome : Outcome} (hfine : outcome.fails = false)
    (hread : q.run s.now outcome.freshId s.db = .ok (answer, s.db)) :
    (Repo.query q).alone proxySemantics outcome s = (.ok answer, s) := by
  simp [Repo.query, alone, perform, hfine, hread, Except.mapError]

theorem checkSessionKey_alone {received : Received} {s : Shared}
    {outcome : Outcome} (hfine : outcome.fails = false)
    (h : ∀ keyId, received.sessionKeyId = some keyId → ∃ row key,
      s.db.sessionKeys.find? keyId = some row ∧
      rowToSessionKey row = .ok key ∧
      verifySessionKey ext s.now key received.verified
        (targetContract received.requirements) = .ok ()) :
    (checkSessionKey ext received).alone proxySemantics outcome s =
      (.ok (), s) := by
  rcases Option.eq_none_or_eq_some received.sessionKeyId with
    hnone | ⟨keyId, hsome⟩
  · simp [checkSessionKey, hnone, alone]
  · obtain ⟨row, key, hrow, hkey, hverified⟩ := h keyId hsome
    have hread : (Repo.query (.selectSessionKey keyId)).alone proxySemantics
        outcome s = (.ok (some row), s) := by
      rw [read_alone hfine rfl, hrow]
    have hclock : (Prog.perform Op.clock : Handler Micros).alone
        proxySemantics outcome s = (.ok s.now, s) := rfl
    simp only [checkSessionKey, hsome, Repo.SessionKeys.findById, alone_bind,
      alone_mapError, alone_lift, hread, hkey, pure_eq_ret, alone, okOr,
      Except.mapError, hclock, hverified]

theorem checkGuardrails_alone (req : ProxyRequest) {received : Received}
    {s : Shared} {outcome : Outcome} (hfine : outcome.fails = false)
    (h : ∀ agentId, received.agentId = some agentId →
      ∃ agent rules total dailySpent,
        s.db.agents.find? agentId = some agent ∧ agent.isActive = true ∧
        rowsToRules (s.db.guardrailRules.selectWhere fun row =>
          row.agentId = agentId ∧ row.isActive = true) = .ok rules ∧
        bigint (spentLast24h agentId s.now s.db.spendLedger.rows) =
          .ok total ∧
        u64TryFrom total = some dailySpent ∧
        evaluate ext rules received.verified received.requirements
          dailySpent = .ok ()) :
    ∃ agentRules, (checkGuardrails ext req received).alone proxySemantics
      outcome s = (.ok agentRules, s) := by
  rcases Option.eq_none_or_eq_some received.agentId with
    hnone | ⟨agentId, hsome⟩
  · exact ⟨none, by simp [checkGuardrails, hnone, alone]⟩
  · obtain ⟨agent, rules, total, dailySpent, hagent, hactive, hrules, hsum,
      hspent, hevaluate⟩ := h agentId hsome
    have hfound : (Repo.query (.selectAgent agentId)).alone proxySemantics
        outcome s = (.ok (some agent), s) := by
      rw [read_alone hfine rfl, hagent]
    have hrows := read_alone (q := .selectActiveRules agentId) (s := s) hfine
      rfl
    have htotal : (Repo.query (.sumLast24h agentId)).alone proxySemantics
        outcome s = (.ok total, s) := by
      apply read_alone hfine
      simp only [Query.run, hsum]
      rfl
    refine ⟨some rules, ?_⟩
    simp only [checkGuardrails, hsome, Repo.Agents.findById,
      Repo.Guardrails.findActiveByAgent, Repo.SpendLedger.sumLast24h,
      alone_bind, alone_mapError, alone_lift, hfound, hrows, hrules, htotal,
      hspent, hevaluate, okOr, rejectIf, hactive, not_true_eq_false,
      ↓reduceIte, Except.mapError, pure_eq_ret, alone]

/-- When no operation fails, the checks admit what is admissible. -/
theorem admitRequest_alone {req : ProxyRequest} {received : Received}
    {s : Shared} {outcome : Outcome} (hfine : outcome.fails = false)
    (h : Admissible ext req s received) :
    ∃ agentRules t, (admitRequest ext req).alone proxySemantics outcome s =
        (.ok (received, agentRules), t) ∧
      t.now = s.now ∧ t.redis = s.redis := by
  obtain ⟨requirements, payment, hrequirements, hpayment, hresource, hasset,
    hverify⟩ := h.payment
  let reported : Shared :=
    { s with audit := s.audit ++ [receivedEvent ext req] }
  have hreceive : (receivePayment ext req).alone proxySemantics outcome s =
      (.ok received, reported) := by
    rw [receivePayment_of_ok ext h.url hrequirements hpayment hresource hasset]
    simp [emit, alone, perform, hfine, hverify, reported]
  have hkey : (checkSessionKey ext received).alone proxySemantics outcome
      reported = (.ok (), reported) :=
    checkSessionKey_alone hfine h.sessionKey
  obtain ⟨agentRules, hguardrails⟩ :=
    checkGuardrails_alone (s := reported) req hfine h.agent
  refine ⟨agentRules, reported, ?_, rfl, rfl⟩
  simp only [admitRequest, alone_bind, hreceive, hkey, hguardrails]
  rfl

/-- The key of the limiter's window. -/
def windowKey (key : String) : String := s!"x402:rate:{key}"

/-- The window of the global limit has emptied: all its entries are older than
its second. -/
def WindowEmptied (s : Shared) : Prop :=
  ∀ entry ∈ s.redis.members s.now (windowKey "global"),
    (entry.1 : Int) ≤ (s.now / 1000 : Nat) - 1000

/-- The states show the same time and the same database. -/
structure SameDb (s s' : Shared) : Prop where
  now : s'.now = s.now
  db : s'.db = s.db

/-- And the nonce is stored in both or in neither, and both windows have
emptied. -/
structure Alike (nonce : Bytes32) (s s' : Shared) : Prop
    extends SameDb s s' where
  live : s.redis.Live s.now (redisKey nonce) ↔
    s'.redis.Live s'.now (redisKey nonce)
  window : WindowEmptied s
  window' : WindowEmptied s'

/-- The operations that neither the nonce store nor the limiter performs. -/
def Op.Plain (op : Op) : Prop := op.stage ≠ 8 ∧ op.stage ≠ 9

/-- They answer alike at the same time over the same database, and leave Redis
as it is. -/
theorem perform_sameDb {op : Op} (hop : op.Plain) (outcome : Outcome)
    {s s' : Shared} (h : SameDb s s') :
    (perform op outcome s).1 = (perform op outcome s').1 ∧
      SameDb (perform op outcome s).2 (perform op outcome s').2 ∧
      (perform op outcome s).2.redis = s.redis ∧
      (perform op outcome s').2.redis = s'.redis := by
  obtain ⟨now, db, redis, counter, audit⟩ := s
  obtain ⟨now', db', redis', counter', audit'⟩ := s'
  obtain ⟨rfl, rfl⟩ : now' = now ∧ db' = db := ⟨h.now, h.db⟩
  cases op with
  | clock => exact ⟨rfl, ⟨rfl, rfl⟩, rfl, rfl⟩
  | redisConnect => exact ⟨rfl, ⟨rfl, rfl⟩, rfl, rfl⟩
  | httpGet url payment => exact ⟨rfl, ⟨rfl, rfl⟩, rfl, rfl⟩
  | nextCounter => exact absurd rfl hop.2
  | redis command =>
      cases command with
      | setNxEx key ttlSecs => exact absurd rfl hop.1
      | _ => exact absurd rfl hop.2
  | emit event =>
      cases hfails : outcome.fails with
      | true =>
          simp only [perform, hfails, ↓reduceIte]
          exact ⟨trivial, ⟨rfl, rfl⟩, trivial, trivial⟩
      | false =>
          simp only [perform, hfails, Bool.false_eq_true, ↓reduceIte]
          exact ⟨trivial, ⟨rfl, rfl⟩, trivial, trivial⟩
  | postgres query =>
      cases hfails : outcome.fails with
      | true =>
          simp only [perform, hfails, ↓reduceIte]
          exact ⟨trivial, ⟨rfl, rfl⟩, trivial, trivial⟩
      | false =>
          simp only [perform, hfails, Bool.false_eq_true, ↓reduceIte]
          cases query.run now' outcome.freshId db' with
          | error error => exact ⟨rfl, ⟨rfl, rfl⟩, rfl, rfl⟩
          | ok result => exact ⟨rfl, ⟨rfl, rfl⟩, rfl, rfl⟩

theorem perform_alike {nonce : Bytes32} {op : Op} (hop : op.Plain)
    (outcome : Outcome) {s s' : Shared} (h : Alike nonce s s') :
    (perform op outcome s).1 = (perform op outcome s').1 ∧
      Alike nonce (perform op outcome s).2 (perform op outcome s').2 := by
  obtain ⟨hreply, hsame, hredis, hredis'⟩ :=
    perform_sameDb hop outcome h.toSameDb
  refine ⟨hreply, hsame, ?_, ?_, ?_⟩
  · rw [hredis, hredis', perform_now, perform_now]
    exact h.live
  · unfold WindowEmptied
    rw [hredis, perform_now]
    exact h.window
  · unfold WindowEmptied
    rw [hredis', perform_now]
    exact h.window'

theorem admitRequest_within (req : ProxyRequest) :
    (admitRequest ext req).Within (UpTo 7) := by
  refine Within.bind ((receivePayment_within req).mono
    fun op hop => Nat.le_trans hop (by omega)) fun received => ?_
  refine Within.bind ((checkSessionKey_within received).mono
    fun op hop => Nat.le_trans hop (by omega)) fun _ => ?_
  exact Within.bind (checkGuardrails_within req received) fun _ => trivial

/-- The first seven steps go the same way in both states. -/
theorem admitRequest_paired {R : Shared → Shared → Prop} (req : ProxyRequest)
    {s s' : Shared} (h : R s s')
    (hstep : ∀ op outcome s s', op.Plain → R s s' →
      (perform op outcome s).1 = (perform op outcome s').1 ∧
        R (perform op outcome s).2 (perform op outcome s').2) :
    (admitRequest ext req).Paired proxySemantics
      (fun value value' t t' => (value = value' ∧ R t t') ∧
        Admissible ext req s value.1) (admitRequest ext req) s s' := by
  have hpaired : (admitRequest ext req).Paired proxySemantics
      (fun value value' t t' => value = value' ∧ R t t')
      (admitRequest ext req) s s' :=
    paired_of_within (admitRequest_within req) h
      fun op outcome s s' hop => hstep op outcome s s' (by
        unfold UpTo at hop
        constructor <;> omega)
  exact hpaired.and_ensures (ensures_of_solo fun value t solo =>
    admissible_of_solo solo)

/-- Storing the nonce is answered alike, and stores it in both states or in
neither. -/
theorem perform_setNxEx_alike {nonce : Bytes32} {s s' : Shared}
    (h : Alike nonce s s') (ttlSecs : Nat) (outcome : Outcome) :
    (perform (.redis (.setNxEx (redisKey nonce) ttlSecs)) outcome s).1 =
        (perform (.redis (.setNxEx (redisKey nonce) ttlSecs)) outcome s').1 ∧
      Alike nonce
        (perform (.redis (.setNxEx (redisKey nonce) ttlSecs)) outcome s).2
        (perform (.redis (.setNxEx (redisKey nonce) ttlSecs)) outcome
          s').2 := by
  have hreply := perform_setNxEx_congr h.live ttlSecs outcome
  have hwindow : ∀ s : Shared, WindowEmptied s → WindowEmptied
      (perform (.redis (.setNxEx (redisKey nonce) ttlSecs)) outcome s).2 := by
    intro s hs
    simp only [perform, Command.run]
    split
    · exact hs
    · split <;> exact hs
  have hnot : ∀ query : Query,
      Op.redis (.setNxEx (redisKey nonce) ttlSecs) ≠ .postgres query :=
    fun _ heq => by cases heq
  refine ⟨hreply, ⟨?_, ?_⟩, ?_, hwindow s h.window, hwindow s' h.window'⟩
  · rw [perform_now, perform_now, h.now]
  · rw [perform_db_of_ne hnot, perform_db_of_ne hnot, h.db]
  · have hlive := h.live
    rw [RedisDb.live_iff, RedisDb.live_iff] at hlive
    rw [RedisDb.live_iff, RedisDb.live_iff, perform_now, perform_now,
      perform_reservedUntil_iff _ _ _ 0, perform_reservedUntil_iff _ _ _ 0,
      hlive, hreply, h.now]

theorem checkNonce_paired {nonce : Bytes32} {received : Received}
    {s s' : Shared} (hnonce : received.verified.nonce = nonce)
    (h : Alike nonce s s') :
    (checkNonce received).Paired proxySemantics
      (fun value value' t t' => value = value' ∧ Alike nonce t t')
      (checkNonce received) s s' := by
  refine paired_of_within (checkNonce_ops (S := fun op =>
    op = .redisConnect ∨ ∃ ttlSecs,
      op = .redis (.setNxEx (redisKey nonce) ttlSecs)) received (Or.inl rfl)
    fun ttlSecs => Or.inr ⟨ttlSecs, by rw [← hnonce]; rfl⟩) h ?_
  rintro op outcome s s' (rfl | ⟨ttlSecs, rfl⟩) h
  · exact perform_alike ⟨by decide, by decide⟩ outcome h
  · exact perform_setNxEx_alike h ttlSecs outcome

theorem SameDb.redis {s s' : Shared} (h : SameDb s s')
    (command command' : Command) (outcome : Outcome) :
    SameDb (perform (.redis command) outcome s).2
      (perform (.redis command') outcome s').2 := by
  have hnot : ∀ (command : Command) (query : Query),
      Op.redis command ≠ .postgres query := fun _ _ heq => by cases heq
  constructor
  · rw [perform_now, perform_now, h.now]
  · rw [perform_db_of_ne (hnot _), perform_db_of_ne (hnot _), h.db]

/-- A window without recent entries counts one. -/
theorem perform_slideWindow {s : Shared} {key member : String}
    {windowStart : Int} {score ttlSecs : Nat}
    (h : ∀ entry ∈ s.redis.members s.now key, (entry.1 : Int) ≤ windowStart)
    (outcome : Outcome) :
    (perform (.redis (.slideWindow key windowStart score member ttlSecs))
      outcome s).1 =
      if outcome.fails then .error redisError else .ok [1] := by
  have hnone : (s.redis.members s.now key).filter (fun entry =>
      windowStart < entry.1 ∧ entry.2 ≠ member) = [] := by
    rw [List.filter_eq_nil_iff]
    intro entry hentry hkept
    have hold := h entry hentry
    simp only [decide_eq_true_eq] at hkept
    omega
  simp only [perform, Command.run, hnone]
  split <;> rfl

/-- Over emptied windows the limiter counts the request alone, whatever the
counter that names its entry. -/
theorem rateLimiterCheck_paired {s s' : Shared} (h : SameDb s s')
    (hwindow : WindowEmptied s) (hwindow' : WindowEmptied s')
    (maxRequests : Nat) :
    (rateLimiterCheck "global" maxRequests 1).Paired proxySemantics
      (fun allowed allowed' t t' => allowed = allowed' ∧ SameDb t t')
      (rateLimiterCheck "global" maxRequests 1) s s' := by
  refine Paired.bind (Q := fun connected connected' t t' =>
    connected = connected' ∧ s = t ∧ s' = t')
    (fun outcome => ⟨rfl, rfl, rfl⟩) ?_
  rintro connected _ _ _ ⟨rfl, rfl, rfl⟩
  refine Paired.bind (Q := fun _ _ t t' => s = t ∧ s' = t')
    (paired_lift fun _ _ => ⟨rfl, rfl⟩) ?_
  rintro _ _ _ _ ⟨rfl, rfl⟩
  refine Paired.bind (Q := fun (now now' : Micros) t t' =>
    now = s.now ∧ now' = s.now ∧ s = t ∧ s' = t')
    (fun outcome => ⟨rfl, h.now, rfl, rfl⟩) ?_
  rintro _ _ _ _ ⟨rfl, rfl, rfl, rfl⟩
  -- the counters may differ from here on
  refine Paired.bind (Q := fun _ _ t t' => SameDb t t' ∧ t.now = s.now ∧
    t.redis = s.redis ∧ t'.redis = s'.redis)
    (fun outcome => ⟨⟨h.now, h.db⟩, rfl, rfl, rfl⟩) ?_
  rintro counter counter' t t' ⟨hsame, hnow, hredis, hredis'⟩
  refine Paired.bind (Q := fun results results' t t' =>
    results = results' ∧ SameDb t t') ?_ ?_
  · intro outcome
    refine ⟨?_, hsame.redis _ _ outcome⟩
    rw [proxySemantics_perform, proxySemantics_perform, perform_slideWindow,
      perform_slideWindow]
    · rw [hredis', hsame.now, hnow, ← h.now]
      exact hwindow'
    · rw [hredis, hnow]
      exact hwindow
  · rintro results _ t t' ⟨rfl, hsame⟩
    refine Paired.bind (Q := fun counts counts' t t' =>
      counts = counts' ∧ SameDb t t') (paired_lift fun _ _ => ⟨rfl, hsame⟩) ?_
    rintro counts _ t t' ⟨rfl, hsame⟩
    dsimp only
    split
    · refine Paired.bind (Q := fun _ _ t t' => SameDb t t') ?_ ?_
      · exact fun outcome => hsame.redis _ _ outcome
      · intro _ _ t t' hsame
        exact ⟨rfl, hsame⟩
    · exact ⟨rfl, hsame⟩

/-- The steps after the nonce check go the same way in both states. -/
theorem finishRequest_paired (req : ProxyRequest)
    (admitted : Received × Option (List GuardrailRule)) {s s' : Shared}
    (h : SameDb s s') (hwindow : WindowEmptied s)
    (hwindow' : WindowEmptied s') :
    (finishRequest ext config req admitted).Paired proxySemantics
      (fun value value' _ _ => value = value')
      (finishRequest ext config req admitted) s s' := by
  have hplain : ∀ op outcome s s', op.stage = 0 ∨ 10 ≤ op.stage →
      SameDb s s' → (perform op outcome s).1 = (perform op outcome s').1 ∧
        SameDb (perform op outcome s).2 (perform op outcome s').2 := by
    intro op outcome s s' hop hsame
    have hop : op.Plain := by constructor <;> omega
    obtain ⟨hreply, hnext, _⟩ := perform_sameDb hop outcome hsame
    exact ⟨hreply, hnext⟩
  refine Paired.bind (Q := fun _ _ t t' => SameDb t t') ?_ ?_
  · refine Paired.bind
      (rateLimiterCheck_paired h hwindow hwindow' _).mapError ?_
    rintro allowed _ t t' ⟨rfl, hsame⟩
    exact paired_lift fun _ _ => hsame
  · intro _ _ t t' hsame
    refine Paired.bind (paired_of_within (S := fun op => 10 ≤ op.stage)
      (reserveSpend_ops admitted.1 admitted.2 (by decide)
        (fun _ _ _ _ => Nat.le_refl 10) fun _ _ => Nat.le_refl 10) hsame
      fun op outcome s s' hop => hplain op outcome s s' (Or.inr hop)) ?_
    rintro _ _ t t' ⟨_, hsame⟩
    refine (paired_of_within (forwardToTarget_within req admitted.1) hsame
      fun op outcome s s' hop => hplain op outcome s s' (by omega)).mono ?_
    exact fun _ _ _ _ hboth => hboth.1

theorem Admissible.valid {req : ProxyRequest} {s : Shared}
    {received : Received} (h : Admissible ext req s received) :
    received.Valid ext req := by
  obtain ⟨requirements, payment, hrequirements, hpayment, _, _, hverify⟩ :=
    h.payment
  rw [parsePaymentRequirements, mapError_eq_ok_iff] at hrequirements
  rw [parsePaymentPayload, mapError_eq_ok_iff] at hpayment
  rw [← verifyRequest_requirements hverify] at hrequirements hverify
  exact ⟨hrequirements, payment, _, hpayment, hverify⟩

/-- The nonce that an admissible request has checked is its own. -/
theorem Admissible.nonce {req : ProxyRequest} {s : Shared}
    {received : Received} {nonce : Bytes32}
    (h : Admissible ext req s received)
    (hnonce : (Request.forwardRequest req).nonce ext = some nonce) :
    received.verified.nonce = nonce := by
  obtain ⟨_, _, _, hauth⟩ := h.valid.names
  have hsame : (Request.forwardRequest req).nonce ext =
      some received.verified.nonce := congrArg (Option.map Prod.snd) hauth
  exact Option.some.inj (hsame.symm.trans hnonce)

theorem sameOutcome_of_alike {req : ProxyRequest} {nonce : Bytes32}
    {s s' : Shared}
    (hnonce : (Request.forwardRequest req).nonce ext = some nonce)
    (h : Alike nonce s s') :
    (forwardRequest ext config req).SameOutcome proxySemantics s s' := by
  rw [forwardRequest_eq]
  apply Paired.sameOutcome
  refine Paired.bind (admitRequest_paired req h
    fun op outcome s s' hop => perform_alike hop outcome) ?_
  rintro admitted _ t t' ⟨⟨rfl, halike⟩, hadmissible⟩
  refine Paired.bind
    (checkNonce_paired (hadmissible.nonce hnonce) halike) ?_
  rintro _ _ t t' ⟨_, halike⟩
  exact finishRequest_paired req admitted halike.toSameDb halike.window
    halike.window'

/-- A request that is not admissible never comes to the nonce check. -/
theorem sameOutcome_of_not_admissible {req : ProxyRequest} {s s' : Shared}
    (h : SameDb s s') (hnot : ∀ received, ¬ Admissible ext req s received) :
    (forwardRequest ext config req).SameOutcome proxySemantics s s' := by
  rw [forwardRequest_eq]
  apply Paired.sameOutcome
  refine Paired.bind (admitRequest_paired req h ?_) ?_
  · intro op outcome s s' hop hsame
    obtain ⟨hreply, hnext, _⟩ := perform_sameDb hop outcome hsame
    exact ⟨hreply, hnext⟩
  · rintro admitted _ t t' ⟨_, hadmissible⟩
    exact absurd hadmissible (hnot admitted.1)

theorem SameDb.admissible {req : ProxyRequest} {s s' : Shared}
    {received : Received} (h : SameDb s s')
    (hadmissible : Admissible ext req s received) :
    Admissible ext req s' received := by
  obtain ⟨hurl, hpayment, hkey, hagent⟩ := hadmissible
  rw [← h.now] at hpayment
  simp only [← h.now, ← h.db] at hkey hagent
  exact ⟨hurl, hpayment, hkey, hagent⟩

/-- The nonce check when nothing fails. -/
theorem checkNonce_alone {received : Received} {s : Shared}
    {outcome : Outcome} (hfine : outcome.fails = false) :
    ((checkNonce received).alone proxySemantics outcome s).1 =
      if s.redis.Live s.now (redisKey received.verified.nonce) then
        .error (.badRequest
          s!"nonce already used: {nonceHex received.verified}")
      else .ok () := by
  have hkey : nonceKey (nonceHex received.verified) =
      redisKey received.verified.nonce := rfl
  by_cases hlive : s.redis.Live s.now (redisKey received.verified.nonce)
  · simp [checkNonce, checkAndStore, alone_bind, alone_mapError, alone,
      perform, Command.run, hfine, hkey, hlive, Prog.perform,
      Except.mapError, Except.toOption, rejectIf]
  · simp [checkNonce, checkAndStore, alone_bind, alone_mapError, alone,
      perform, Command.run, hfine, hkey, hlive, Prog.perform,
      Except.mapError, Except.toOption, rejectIf]

/-- When nothing fails, an admissible request comes to its nonce check. -/
theorem forwardRequest_alone {req : ProxyRequest} {received : Received}
    {s : Shared} {outcome : Outcome} (hfine : outcome.fails = false)
    (h : Admissible ext req s received) :
    ∃ agentRules t, t.now = s.now ∧ t.redis = s.redis ∧
      (forwardRequest ext config req).alone proxySemantics outcome s =
        (checkNonce received >>= fun _ => finishRequest ext config req
          (received, agentRules)).alone proxySemantics outcome t := by
  obtain ⟨agentRules, t, hadmitted, hnow, hredis⟩ :=
    admitRequest_alone hfine h
  refine ⟨agentRules, t, hnow, hredis, ?_⟩
  rw [forwardRequest_eq, alone_bind, hadmitted]

/-- There it is rejected as a replay if the nonce is stored. -/
theorem replayed_of_live {req : ProxyRequest} {received : Received}
    {s : Shared} {outcome : Outcome} (hfine : outcome.fails = false)
    (h : Admissible ext req s received)
    (hlive : s.redis.Live s.now (redisKey received.verified.nonce)) :
    ((forwardRequest ext config req).alone proxySemantics outcome s).1 =
      .error (.badRequest
        s!"nonce already used: {nonceHex received.verified}") := by
  obtain ⟨agentRules, t, hnow, hredis, heq⟩ := forwardRequest_alone hfine h
  rw [heq]
  apply alone_bind_error
  rw [checkNonce_alone hfine, hnow, hredis, if_pos hlive]

/-- And passes it if the nonce is free; no later step calls a request bad. -/
theorem not_badRequest_of_free {req : ProxyRequest} {received : Received}
    {s : Shared} {outcome : Outcome} (hfine : outcome.fails = false)
    (h : Admissible ext req s received)
    (hfree : ¬ s.redis.Live s.now (redisKey received.verified.nonce))
    (message : String) :
    ((forwardRequest ext config req).alone proxySemantics outcome s).1 ≠
      .error (.badRequest message) := by
  obtain ⟨agentRules, t, hnow, hredis, heq⟩ := forwardRequest_alone hfine h
  have hpassed : ((checkNonce received).alone proxySemantics outcome t).1 =
      .ok () := by
    rw [checkNonce_alone hfine, hnow, hredis, if_neg hfree]
  have hfails : (finishRequest ext config req (received, agentRules)).Fails
      fun error => ∀ message, error ≠ .badRequest message := by
    refine (checkRateLimit_fails (fun _ _ heq => by cases heq)
      fun _ heq => by cases heq).bind fun _ => ?_
    refine (reserveSpend_fails (fun _ _ heq => by cases heq)
      (fun _ _ heq => by cases heq) _ _).bind fun _ => ?_
    exact forwardToTarget_fails (fun _ _ heq => by cases heq) _ _
  rw [heq, alone_bind_ok hpassed]
  intro hbad
  exact hfails.alone hbad message rfl

/-- With the nonce stored in one state and free in the other, an admissible
request can end differently. -/
theorem not_sameOutcome_of_live {req : ProxyRequest} {received : Received}
    {s s' : Shared} (h : SameDb s s')
    (hadmissible : Admissible ext req s received)
    (hlive : s.redis.Live s.now (redisKey received.verified.nonce))
    (hfree : ¬ s'.redis.Live s'.now (redisKey received.verified.nonce)) :
    ¬ (forwardRequest ext config req).SameOutcome proxySemantics s s' := by
  intro hsame
  let fine : Outcome := ⟨false, 0, .response 200 none⟩
  have hboth := hsame fun _ => fine
  rw [under_const, under_const, replayed_of_live rfl hadmissible hlive]
    at hboth
  exact not_badRequest_of_free rfl (h.admissible hadmissible) hfree _
    hboth.symm

end X402Guard

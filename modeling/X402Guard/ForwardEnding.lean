/-
How a forwarded request ends, said once: it is refused by one of the steps
before the reservation, its reservation fails, or the last step ends it.
-/
import X402Guard.Forwarding

namespace X402Guard

open Interaction Prog

variable {ext : Externals} {config : AppConfig}

/-- The request failed in one of the steps before the reservation. -/
inductive Refused (ext : Externals) (config : AppConfig) (req : ProxyRequest) :
    List (Event Op Reply) → AppError → Prop
  | receive {trace : List (Event Op Reply)} {error : AppError}
      (hfails : (receivePayment ext req).Reaches trace (.throw error)) :
      Refused ext config req trace error
  | sessionKey {first second : List (Event Op Reply)} {received : Received}
      {error : AppError}
      (hreceive : (receivePayment ext req).Reaches first (.ret received))
      (hfails : (checkSessionKey ext received).Reaches second (.throw error)) :
      Refused ext config req (first ++ second) error
  | guardrails {first second third : List (Event Op Reply)}
      {received : Received} {error : AppError}
      (hreceive : (receivePayment ext req).Reaches first (.ret received))
      (hkey : (checkSessionKey ext received).Reaches second (.ret ()))
      (hfails : (checkGuardrails ext req received).Reaches third
        (.throw error)) :
      Refused ext config req (first ++ (second ++ third)) error
  | nonce {first second third fourth : List (Event Op Reply)}
      {received : Received} {agentRules : Option (List GuardrailRule)}
      {error : AppError}
      (hreceive : (receivePayment ext req).Reaches first (.ret received))
      (hkey : (checkSessionKey ext received).Reaches second (.ret ()))
      (hguardrails : (checkGuardrails ext req received).Reaches third
        (.ret agentRules))
      (hfails : (checkNonce received).Reaches fourth (.throw error)) :
      Refused ext config req (first ++ (second ++ (third ++ fourth))) error
  | rateLimit {first second third fourth fifth : List (Event Op Reply)}
      {received : Received} {agentRules : Option (List GuardrailRule)}
      {error : AppError}
      (hreceive : (receivePayment ext req).Reaches first (.ret received))
      (hkey : (checkSessionKey ext received).Reaches second (.ret ()))
      (hguardrails : (checkGuardrails ext req received).Reaches third
        (.ret agentRules))
      (hnonce : (checkNonce received).Reaches fourth (.ret ()))
      (hfails : (checkRateLimit config).Reaches fifth (.throw error)) :
      Refused ext config req
        (first ++ (second ++ (third ++ (fourth ++ fifth)))) error

/-- Its calls are those of these steps. -/
theorem Refused.stages {req : ProxyRequest} {trace : List (Event Op Reply)}
    {error : AppError} (h : Refused ext config req trace error) :
    ∀ event ∈ trace, event.op.stage ≤ 9 := by
  have hupTo : ∀ {n : Nat} {t : List (Event Op Reply)}, n ≤ 9 →
      (∀ e ∈ t, UpTo n e.op) → ∀ e ∈ t, e.op.stage ≤ 9 :=
    fun hn ht e he => Nat.le_trans (ht e he) hn
  have hreceived : ∀ {t : List (Event Op Reply)} {p : Handler Received},
      (receivePayment ext req).Reaches t p → ∀ e ∈ t, e.op.stage ≤ 9 :=
    fun h => hupTo (by omega) ((receivePayment_within req).of_mem h)
  have hchecked : ∀ {received : Received} {t : List (Event Op Reply)}
      {p : Handler Unit}, (checkSessionKey ext received).Reaches t p →
      ∀ e ∈ t, e.op.stage ≤ 9 :=
    fun h => hupTo (by omega) ((checkSessionKey_within _).of_mem h)
  have hevaluated : ∀ {received : Received} {t : List (Event Op Reply)}
      {p : Handler (Option (List GuardrailRule))},
      (checkGuardrails ext req received).Reaches t p →
      ∀ e ∈ t, e.op.stage ≤ 9 :=
    fun h => hupTo (by omega) ((checkGuardrails_within req _).of_mem h)
  have hstored : ∀ {received : Received} {t : List (Event Op Reply)}
      {p : Handler Unit}, (checkNonce received).Reaches t p →
      ∀ e ∈ t, e.op.stage ≤ 9 :=
    fun h => hupTo (by omega) ((checkNonce_within _).of_mem h)
  induction h with
  | receive hfails => exact hreceived hfails
  | sessionKey hreceive hfails =>
      simp only [List.forall_mem_append]
      exact ⟨hreceived hreceive, hchecked hfails⟩
  | guardrails hreceive hkey hfails =>
      simp only [List.forall_mem_append]
      exact ⟨hreceived hreceive, hchecked hkey, hevaluated hfails⟩
  | nonce hreceive hkey hguardrails hfails =>
      simp only [List.forall_mem_append]
      exact ⟨hreceived hreceive, hchecked hkey, hevaluated hguardrails,
        hstored hfails⟩
  | rateLimit hreceive hkey hguardrails hnonce hfails =>
      simp only [List.forall_mem_append]
      exact ⟨hreceived hreceive, hchecked hkey, hevaluated hguardrails,
        hstored hnonce, hupTo (by omega) (checkRateLimit_within.of_mem hfails)⟩

/-- A request that has ended was refused, or passed the steps before the
reservation and ended after them. -/
theorem forwardRequest_ends {req : ProxyRequest}
    {trace : List (Event Op Reply)} {result : Except AppError ProxyResponse}
    (h : (forwardRequest ext config req).Reaches trace (lift result)) :
    (∃ error, Refused ext config req trace error ∧ result = .error error) ∨
      ∃ received agentRules before after, trace = before ++ after ∧
        Passed ext config req received agentRules before ∧
        (reserveSpend received agentRules >>= fun _ =>
          forwardToTarget ext req received).Reaches after (lift result) := by
  unfold forwardRequest at h
  rcases reaches_bind_lift_iff.mp h with
    ⟨error, h₁, rfl⟩ | ⟨received, t₁, _, rfl, h₁, h⟩
  · exact Or.inl ⟨error, .receive h₁, rfl⟩
  rcases reaches_bind_lift_iff.mp h with
    ⟨error, h₂, rfl⟩ | ⟨_, t₂, _, rfl, h₂, h⟩
  · exact Or.inl ⟨error, .sessionKey h₁ h₂, rfl⟩
  rcases reaches_bind_lift_iff.mp h with
    ⟨error, h₃, rfl⟩ | ⟨agentRules, t₃, _, rfl, h₃, h⟩
  · exact Or.inl ⟨error, .guardrails h₁ h₂ h₃, rfl⟩
  rcases reaches_bind_lift_iff.mp h with
    ⟨error, h₄, rfl⟩ | ⟨_, t₄, _, rfl, h₄, h⟩
  · exact Or.inl ⟨error, .nonce h₁ h₂ h₃ h₄, rfl⟩
  rcases reaches_bind_lift_iff.mp h with
    ⟨error, h₅, rfl⟩ | ⟨_, t₅, after, rfl, h₅, h⟩
  · exact Or.inl ⟨error, .rateLimit h₁ h₂ h₃ h₄ h₅, rfl⟩
  · exact Or.inr ⟨received, agentRules, _, after, by simp,
      ⟨t₁, t₂, t₃, t₄, t₅, rfl, h₁, h₂, h₃, h₄, h₅⟩, h⟩

theorem Repo.query_reaches_throw_iff {q : Query}
    {trace : List (Event Op Reply)} {cause : String} :
    (Repo.query q).Reaches trace (.throw cause) ↔
      ∃ error order time,
        trace = [⟨.postgres q, .error error, order, time⟩] ∧
        error.toString = cause := by
  rw [← lift_error, Repo.query, reaches_bind_lift_iff]
  constructor
  · rintro (⟨error, hthrow, _⟩ | ⟨reply, first, second, rfl, hfirst, hsecond⟩)
    · exact absurd hthrow not_reaches_perform_throw
    · obtain ⟨order, time, rfl⟩ := reaches_perform_ret_iff.mp hfirst
      obtain ⟨rfl, hresult⟩ := reaches_lift_lift_iff.mp hsecond
      cases reply with
      | ok answer => cases hresult
      | error error =>
          cases hresult
          exact ⟨error, order, time, rfl, rfl⟩
  · rintro ⟨error, order, time, rfl, rfl⟩
    exact Or.inr ⟨.error error, [_], [], rfl,
      reaches_perform_ret_iff.mpr ⟨order, time, rfl⟩, .refl _⟩

/-- How the snapshot and the INSERT end: one of them fails, or the INSERT is
answered. -/
theorem insertSpend_ends {values : SpendValues} {limit : Option Int}
    {f : Nat → Bool} {trace : List (Event Op Reply)}
    {result : Except String Bool}
    (h : (Repo.query .beginSpend >>= fun taken =>
      Repo.query (.insertSpend taken values limit) >>= fun affected =>
        .ret (f affected)).Reaches trace (lift result)) :
    (∃ cause, result = .error cause ∧
      ∀ event ∈ trace, event.op = .postgres .beginSpend ∨
        ∃ snapshot limit? error order time, event =
          ⟨.postgres (.insertSpend snapshot values limit?), .error error,
            order, time⟩) ∨
    ∃ (snapshot : Snapshot) (affected order₁ time₁ order₂ time₂ : Nat),
      trace = [⟨.postgres .beginSpend, .ok snapshot, order₁, time₁⟩,
        ⟨.postgres (.insertSpend snapshot values limit), .ok affected, order₂,
          time₂⟩] ∧ result = .ok (f affected) := by
  rcases reaches_bind_lift_iff.mp h with
    ⟨cause, hbegin, rfl⟩ | ⟨snapshot, first, rest, rfl, hbegin, hrest⟩
  · obtain ⟨error, order, time, rfl, _⟩ :=
      Repo.query_reaches_throw_iff.mp hbegin
    exact Or.inl ⟨cause, rfl, by simp⟩
  obtain ⟨order₁, time₁, rfl⟩ := Repo.query_reaches_ret_iff.mp hbegin
  rcases reaches_bind_lift_iff.mp hrest with
    ⟨cause, hfails, rfl⟩ | ⟨affected, second, last, rfl, hquery, hlast⟩
  · obtain ⟨error, order, time, rfl, _⟩ :=
      Repo.query_reaches_throw_iff.mp hfails
    exact Or.inl ⟨cause, rfl, by simp⟩
  · obtain ⟨order₂, time₂, rfl⟩ := Repo.query_reaches_ret_iff.mp hquery
    obtain ⟨rfl, hresult⟩ := reaches_ret_iff.mp hlast
    refine Or.inr ⟨snapshot, affected, order₁, time₁, order₂, time₂, rfl, ?_⟩
    cases result with
    | error error => cases hresult
    | ok value =>
        cases hresult
        rfl

/-- How the reservation in the ledger ends: it fails before it inserts, or its
INSERT is answered. -/
theorem recordSpendAtomic_ends {agentId : Uuid} {sessionKeyId : Option Uuid}
    {amount : Nat} {txNonce : String} {dailyLimit : Option Nat}
    {trace : List (Event Op Reply)} {result : Except String Bool}
    (h : (Repo.SpendLedger.recordSpendAtomic agentId sessionKeyId amount
      txNonce dailyLimit).Reaches trace (lift result)) :
    (∃ cause, result = .error cause ∧
      ∀ event ∈ trace, event.op = .postgres .beginSpend ∨
        ∃ snapshot limit? error order time, event = ⟨.postgres (.insertSpend
          snapshot ⟨agentId, sessionKeyId, amount, txNonce⟩ limit?),
          .error error, order, time⟩) ∨
    ∃ (snapshot : Snapshot) (affected order₁ time₁ order₂ time₂ : Nat),
      amount < 2 ^ 63 ∧
      trace = [⟨.postgres .beginSpend, .ok snapshot, order₁, time₁⟩,
        ⟨.postgres (.insertSpend snapshot
          ⟨agentId, sessionKeyId, amount, txNonce⟩ (dailyLimit.map (↑))),
          .ok affected, order₂, time₂⟩] ∧
      result = .ok (dailyLimit.isNone || decide (0 < affected)) := by
  rcases reaches_bind_lift_iff.mp h with
    ⟨cause, hamount, rfl⟩ | ⟨amountI64, first, rest, rfl, hamount, h⟩
  · obtain ⟨rfl, _⟩ := reaches_lift_throw_iff.mp hamount
    exact Or.inl ⟨cause, rfl, by simp⟩
  rw [reaches_lift_ret_iff, okOr_eq_ok_iff, i64TryFrom_eq_some_iff]
    at hamount
  obtain ⟨rfl, hlt, rfl⟩ := hamount
  cases dailyLimit with
  | none =>
      rcases insertSpend_ends (f := fun _ => true) h with hfails |
        ⟨snapshot, affected, order₁, time₁, order₂, time₂, rfl, rfl⟩
      · exact Or.inl hfails
      · exact Or.inr ⟨snapshot, affected, order₁, time₁, order₂, time₂, hlt,
          rfl, rfl⟩
  | some limit =>
      rcases reaches_bind_lift_iff.mp h with
        ⟨cause, hlimit, rfl⟩ | ⟨limitI64, first, rest, rfl, hlimit, h⟩
      · obtain ⟨rfl, _⟩ := reaches_lift_throw_iff.mp hlimit
        exact Or.inl ⟨cause, rfl, by simp⟩
      rw [reaches_lift_ret_iff, okOr_eq_ok_iff, i64TryFrom_eq_some_iff]
        at hlimit
      obtain ⟨rfl, _, rfl⟩ := hlimit
      rcases insertSpend_ends (f := fun n => decide (0 < n)) h with hfails |
        ⟨snapshot, affected, order₁, time₁, order₂, time₂, rfl, rfl⟩
      · exact Or.inl hfails
      · exact Or.inr ⟨snapshot, affected, order₁, time₁, order₂, time₂, hlt,
          rfl, rfl⟩

/-- A charge fails without changing a row. -/
theorem incrementSpent_reaches_throw {keyId : Uuid} {amount : Nat}
    {trace : List (Event Op Reply)} {cause : String} (hlt : amount < 2 ^ 63)
    (h : (Repo.SessionKeys.incrementSpent keyId amount).Reaches trace
      (.throw cause)) :
    ∃ (reply : Except DbError Nat) (order time : Nat),
      trace = [⟨.postgres (.incrementSpent keyId amount), reply, order,
        time⟩] ∧ ∀ affected, reply = .ok affected → affected = 0 := by
  have hamount : i64TryFrom amount = some (amount : Int) :=
    i64TryFrom_eq_some_iff.mpr ⟨hlt, rfl⟩
  rw [Repo.SessionKeys.incrementSpent, hamount, okOr, lift_ok, ret_bind,
    reaches_bind_throw_iff] at h
  rcases h with hquery | ⟨affected, first, second, rfl, hquery, h⟩
  · obtain ⟨error, order, time, rfl, _⟩ :=
      Repo.query_reaches_throw_iff.mp hquery
    exact ⟨.error error, order, time, rfl, fun _ heq => by cases heq⟩
  · obtain ⟨order, time, rfl⟩ := Repo.query_reaches_ret_iff.mp hquery
    split at h
    · rename_i hzero
      obtain ⟨rfl, _⟩ := reaches_throw_iff.mp h
      refine ⟨.ok affected, order, time, rfl, ?_⟩
      intro affected' heq
      cases heq
      exact hzero
    · cases (reaches_ret_iff.mp h).2

/-- How the reservation of a request for an agent ends. -/
inductive ReservationEnd (received : Received) (agentId : Uuid)
    (agentRules : Option (List GuardrailRule)) :
    List (Event Op Reply) → Except AppError Unit → Prop
  | notInserted {trace : List (Event Op Reply)} {cause : String}
      (hevents : ∀ event ∈ trace, event.op = .postgres .beginSpend ∨
        ∃ snapshot limit? error order time, event = ⟨.postgres (.insertSpend
          snapshot (received.spendValues agentId) limit?), .error error,
          order, time⟩) :
      ReservationEnd received agentId agentRules trace
        (.error (.internal cause))
  | overLimit {snapshot : Snapshot} {limit order₁ time₁ order₂ time₂ : Nat}
      (hlimit : agentRules.bind extractDailyLimit = some limit) :
      ReservationEnd received agentId agentRules
        [⟨.postgres .beginSpend, .ok snapshot, order₁, time₁⟩,
          ⟨.postgres (.insertSpend snapshot (received.spendValues agentId)
            (some limit)), .ok (0 : Nat), order₂, time₂⟩]
        (.error (.guardrailViolation "MaxSpendPerDay exceeded (atomic check)"))
  | notCharged {snapshot : Snapshot} {reply : Except DbError Nat}
      {affected order₁ time₁ order₂ time₂ order₃ time₃ : Nat} {keyId : Uuid}
      (hkey : received.sessionKeyId = some keyId)
      (hlimit : (agentRules.bind extractDailyLimit).isSome = true →
        0 < affected)
      (hreply : ∀ charged, reply = .ok charged → charged = 0) :
      ReservationEnd received agentId agentRules
        [⟨.postgres .beginSpend, .ok snapshot, order₁, time₁⟩,
          ⟨.postgres (.insertSpend snapshot (received.spendValues agentId)
            ((agentRules.bind extractDailyLimit).map (↑))), .ok affected,
            order₂, time₂⟩,
          ⟨.postgres (.incrementSpent keyId received.paymentAmount), reply,
            order₃, time₃⟩]
        (.error (.guardrailViolation
          "session key spend limit exceeded (concurrent check)"))
  | reserved {trace : List (Event Op Reply)}
      (h : Reserved received agentId agentRules trace) :
      ReservationEnd received agentId agentRules trace (.ok ())

theorem reserveSpend_ends {received : Received} {agentId : Uuid}
    {agentRules : Option (List GuardrailRule)} {trace : List (Event Op Reply)}
    {result : Except AppError Unit} (hagent : received.agentId = some agentId)
    (h : (reserveSpend received agentRules).Reaches trace (lift result)) :
    ReservationEnd received agentId agentRules trace result := by
  cases result with
  | ok value => exact .reserved (reserveSpend_reaches_ret hagent h)
  | error error =>
      simp only [reserveSpend, hagent, lift_error] at h
      rcases reaches_bind_throw_iff.mp h with
        hrecord | ⟨spendOk, first, rest, rfl, hrecord, hrest⟩
      · obtain ⟨cause, hfails, rfl⟩ := reaches_mapError_throw_iff.mp hrecord
        rw [← lift_error] at hfails
        rcases recordSpendAtomic_ends hfails with
          ⟨_, _, hevents⟩ | ⟨_, _, _, _, _, _, _, _, heq⟩
        · exact .notInserted hevents
        · cases heq
      rw [reaches_mapError_ret_iff, ← lift_ok] at hrecord
      rcases recordSpendAtomic_ends hrecord with
        ⟨_, heq, _⟩ | ⟨snapshot, affected, order₁, time₁, order₂, time₂, hlt,
          rfl, hok⟩
      · cases heq
      have hok : spendOk = ((agentRules.bind extractDailyLimit).isNone ||
        decide (0 < affected)) := Except.ok.inj hok
      rcases reaches_bind_throw_iff.mp hrest with
        hreject | ⟨_, second, last, rfl, hreject, hcharge⟩
      · rw [reaches_lift_throw_iff, rejectIf] at hreject
        obtain ⟨rfl, hreject⟩ := hreject
        split at hreject
        · rename_i hnotOk
          obtain rfl := Except.error.inj hreject
          rw [hok, Bool.or_eq_false_iff, decide_eq_false_iff_not] at hnotOk
          obtain ⟨hsome, hzero⟩ := hnotOk
          obtain rfl : affected = 0 := by omega
          cases hlimit : agentRules.bind extractDailyLimit with
          | none => simp [hlimit] at hsome
          | some limit => exact .overLimit hlimit
        · cases hreject
      · rw [reaches_lift_ret_iff, rejectIf_eq_ok_iff, hok] at hreject
        obtain ⟨rfl, hpassed⟩ := hreject
        have hlimit : (agentRules.bind extractDailyLimit).isSome = true →
            0 < affected := by
          intro hsome
          cases hextract : agentRules.bind extractDailyLimit with
          | none => simp [hextract] at hsome
          | some limit => simpa [hextract, Nat.pos_iff_ne_zero] using hpassed
        rcases Option.eq_none_or_eq_some received.sessionKeyId with
          hkey | ⟨keyId, hkey⟩
        · rw [hkey] at hcharge
          cases (reaches_ret_iff.mp hcharge).2
        · rw [hkey] at hcharge
          obtain ⟨cause, hfails, rfl⟩ :=
            reaches_mapError_throw_iff.mp hcharge
          obtain ⟨reply, order, time, rfl, hreply⟩ :=
            incrementSpent_reaches_throw hlt hfails
          exact .notCharged hkey hlimit hreply

/-- How the forwarding of a request ends. -/
inductive TargetEnd (ext : Externals) (req : ProxyRequest)
    (received : Received) :
    List (Event Op Reply) → Except AppError ProxyResponse → Prop
  | notBuilt (hheader : ext.isHeaderValue req.x402Payment = false) :
      TargetEnd ext req received []
        (.error (.internal "forward request failed: builder error"))
  | unanswered {reply : HttpReply} {cause : String} {order time : Nat}
      (hheader : ext.isHeaderValue req.x402Payment = true)
      (hreply : reply = .notSent cause ∨ reply = .noResponse cause) :
      TargetEnd ext req received
        [⟨.httpGet req.targetUrl req.x402Payment, reply, order, time⟩]
        (.error (.internal s!"forward request failed: {cause}"))
  | answered {status order₁ time₁ order₂ time₂ : Nat} {body : Option Value}
      {eventType : AuditEventType} {emitted : Bool} {response : ProxyResponse}
      (hheader : ext.isHeaderValue req.x402Payment = true)
      (htype : eventType = .proxyRequestForwarded ∨
        eventType = .proxyRequestFailed) :
      TargetEnd ext req received
        [⟨.httpGet req.targetUrl req.x402Payment, .response status body,
            order₁, time₁⟩,
          ⟨.emit (outcomeEvent req received eventType status), emitted,
            order₂, time₂⟩] (.ok response)

theorem emit_bind_reaches_lift_iff {α : Type} {event : AuditEvent} {value : α}
    {trace : List (Event Op Reply)} {result : Except AppError α} :
    (emit event >>= fun _ => .ret value).Reaches trace (lift result) ↔
      ∃ emitted order time, trace = [⟨.emit event, emitted, order, time⟩] ∧
        result = .ok value := by
  change (Prog.call (Op.emit event) fun _ => .ret value).Reaches _ _ ↔ _
  rw [reaches_call_iff]
  constructor
  · rintro (⟨_, heq⟩ | ⟨emitted, order, time, tail, rfl, htail⟩)
    · cases result <;> cases heq
    · rw [← lift_ok, reaches_lift_lift_iff] at htail
      obtain ⟨rfl, rfl⟩ := htail
      exact ⟨emitted, order, time, rfl, rfl⟩
  · rintro ⟨emitted, order, time, rfl, rfl⟩
    exact Or.inr ⟨emitted, order, time, [], rfl, .refl _⟩

theorem forwardToTarget_ends {req : ProxyRequest} {received : Received}
    {trace : List (Event Op Reply)} {result : Except AppError ProxyResponse}
    (h : (forwardToTarget ext req received).Reaches trace (lift result)) :
    TargetEnd ext req received trace result := by
  unfold forwardToTarget at h
  rcases reaches_bind_lift_iff.mp h with
    ⟨error, hreject, rfl⟩ | ⟨_, first, rest, rfl, hreject, hget⟩
  · rw [reaches_lift_throw_iff, rejectIf] at hreject
    obtain ⟨rfl, hreject⟩ := hreject
    split at hreject
    · rename_i hheader
      obtain rfl := Except.error.inj hreject
      exact .notBuilt hheader
    · cases hreject
  · rw [reaches_lift_ret_iff, rejectIf_eq_ok_iff, Bool.not_eq_false]
      at hreject
    obtain ⟨rfl, hheader⟩ := hreject
    rw [perform_bind, reaches_call_iff] at hget
    rcases hget with ⟨_, heq⟩ | ⟨reply, order, time, tail, rfl, htail⟩
    · cases result <;> cases heq
    · cases reply with
      | notSent cause =>
          rw [concludeForward, ← lift_error, reaches_lift_lift_iff] at htail
          obtain ⟨rfl, rfl⟩ := htail
          exact .unanswered hheader (Or.inl rfl)
      | noResponse cause =>
          rw [concludeForward, ← lift_error, reaches_lift_lift_iff] at htail
          obtain ⟨rfl, rfl⟩ := htail
          exact .unanswered hheader (Or.inr rfl)
      | response status body =>
          simp only [concludeForward] at htail
          split at htail
          · obtain ⟨emitted, order', time', rfl, rfl⟩ :=
              emit_bind_reaches_lift_iff.mp htail
            exact .answered hheader (Or.inl rfl)
          · obtain ⟨emitted, order', time', rfl, rfl⟩ :=
              emit_bind_reaches_lift_iff.mp htail
            exact .answered hheader (Or.inr rfl)

/-- The error that a computation ended with, if it ended with one. -/
def errorOf {α : Type} : Except AppError α → Option AppError
  | .ok _ => none
  | .error error => some error

theorem errorOf_map {α β : Type} (f : α → β) (result : Except AppError α) :
    errorOf (result.map f) = errorOf result := by
  cases result <;> rfl

theorem errorOf_eq_some_iff {α : Type} {result : Except AppError α}
    {error : AppError} :
    errorOf result = some error ↔ result = .error error := by
  cases result <;> simp [errorOf]

/-- A call that has ended has run `forwardRequest` to its end. -/
theorem forwardRequest_of_ended {call : Call (handle ext config)}
    {req : ProxyRequest} {result : Except AppError Response}
    (hreq : call.request = .forwardRequest req)
    (hended : call.rest.result? = some result) :
    ∃ result', (forwardRequest ext config req).Reaches call.trace
        (lift result') ∧ errorOf result' = errorOf result := by
  have hreached := call.reached
  rw [hreq, result?_eq_some_iff.mp hended] at hreached
  obtain ⟨result', hforward, rfl⟩ := reaches_map_lift_iff.mp hreached
  exact ⟨result', hforward, (errorOf_map _ _).symm⟩

namespace Sample

/-- Which calls of a replay have ended, and with which error if with one. -/
def endings (r : Replayed) : List (Option (Option AppError)) :=
  r.threads.map fun thread => thread.rest.result?.map errorOf

theorem endings_toReplay (w : World (handle ext config) Shared) :
    endings w.toReplay = w.calls.map fun call =>
      call.rest.result?.map errorOf := by
  simp [endings, World.toReplay, Call.toThread, Function.comp_def]

/-- The only call of a world has ended. -/
theorem forwardRequest_of_endings
    {w : World (handle externals config) Shared} {req : ProxyRequest}
    {error? : Option AppError}
    (hrequests : w.calls.map Call.request = [.forwardRequest req])
    (hendings : endings w.toReplay = [some error?]) :
    ∃ call result, w.calls = [call] ∧
      (forwardRequest externals config req).Reaches call.trace (lift result) ∧
      errorOf result = error? := by
  obtain ⟨call, hcalls, hreq⟩ := List.map_eq_singleton_iff.mp hrequests
  rw [endings_toReplay, hcalls, List.map_singleton, List.cons.injEq,
    Option.map_eq_some_iff] at hendings
  obtain ⟨⟨result, hended, herror⟩, _⟩ := hendings
  obtain ⟨result', hreached, hsame⟩ := forwardRequest_of_ended hreq hended
  exact ⟨call, result', hcalls, hreached, hsame.trans herror⟩

end Sample

end X402Guard

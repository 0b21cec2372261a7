/-
Forwarded requests and what they were charged: a request that went out to its
target went out once, after its reservation had ended.
-/
import X402Guard.ReplyFacts

namespace X402Guard

open Interaction Prog

variable {ext : Externals} {config : AppConfig}

/-- The request went out to the target. -/
def sent : Event Op Reply → Bool
  | ⟨.httpGet _ _, reply, _, _⟩ => reply.sent
  | _ => false

/-- The call has forwarded its request. -/
def forwarded (call : Call (handle ext config)) : Bool := call.trace.any sent

theorem forwarded_iff {call : Call (handle ext config)} :
    forwarded call = true ↔ ∃ event ∈ call.trace, sent event = true :=
  List.any_eq_true

theorem stage_of_sent {event : Event Op Reply} (h : sent event = true) :
    event.op.stage = 11 := by
  unfold sent at h
  split at h
  · rfl
  · cases h

theorem sent_eq_false {event : Event Op Reply} (h : event.op.stage ≠ 11) :
    sent event = false := by
  cases hsent : sent event with
  | false => rfl
  | true => exact absurd (stage_of_sent hsent) h

theorem countP_sent_eq_zero {trace : List (Event Op Reply)}
    (h : ∀ event ∈ trace, event.op.stage ≤ 10) : trace.countP sent = 0 := by
  rw [List.countP_eq_zero]
  intro event hevent hsent
  have hstage := stage_of_sent hsent
  have hle := h event hevent
  omega

/-- The last step makes at most one request. -/
theorem forwardToTarget_count {req : ProxyRequest} {received : Received}
    {trace : List (Event Op Reply)} {rest : Handler ProxyResponse}
    (h : (forwardToTarget ext req received).Reaches trace rest) :
    trace.countP sent ≤ 1 := by
  unfold forwardToTarget at h
  rcases reaches_bind_iff.mp h with
    ⟨p', hlift, _⟩ | ⟨_, first, second, rfl, hlift, hcall⟩
  · rw [countP_sent_eq_zero fun event hevent => absurd
      ((within_lift (fun _ => False) _).of_mem hlift event hevent) id]
    exact Nat.zero_le 1
  · obtain ⟨rfl, _⟩ := reaches_lift_ret_iff.mp hlift
    rw [perform_bind, reaches_call_iff] at hcall
    rcases hcall with ⟨rfl, _⟩ | ⟨reply, order, time, tail, rfl, htail⟩
    · exact Nat.zero_le 1
    · have hzero : tail.countP sent = 0 := countP_sent_eq_zero
        ((concludeForward_within (S := UpTo 10) req received reply
          fun _ => Nat.zero_le 10).of_mem htail)
      rw [List.nil_append, List.countP_cons, hzero]
      split <;> simp

/-- A request goes out at most once. -/
theorem forwardRequest_count {req : ProxyRequest}
    {trace : List (Event Op Reply)} {rest : Handler ProxyResponse}
    (h : (forwardRequest ext config req).Reaches trace rest) :
    trace.countP sent ≤ 1 := by
  by_cases hany : ∃ event ∈ trace, sent event = true
  · obtain ⟨event, hevent, hsent⟩ := hany
    obtain ⟨received, agentRules, before, reserve, after, rfl, hadmitted,
      hreserve, hforward, _⟩ := forwardRequest_reserved h hevent
        (by rw [stage_of_sent hsent]; omega)
    rw [List.countP_append, List.countP_append,
      countP_sent_eq_zero fun e he => Nat.le_succ_of_le (hadmitted.stages e he),
      countP_sent_eq_zero
        ((reserveSpend_within received agentRules).of_mem hreserve)]
    simpa using forwardToTarget_count hforward
  · rw [List.countP_eq_zero.mpr fun event hevent hsent =>
      hany ⟨event, hevent, hsent⟩]
    exact Nat.zero_le 1

/-- The trace of a call that has sent its request: what admitted it, then a
finished reservation, then the sending. -/
theorem sent_parts {call : Call (handle ext config)} {event : Event Op Reply}
    (hevent : event ∈ call.trace) (hsent : sent event = true) :
    ∃ req received agentRules before reserve after rest,
      call.trace = before ++ (reserve ++ after) ∧
      Admitted ext req received agentRules before ∧
      (reserveSpend received agentRules).Reaches reserve (.ret ()) ∧
      (forwardToTarget ext req received).Reaches after rest ∧
      event ∈ after ∧ call.request.agent ext = received.agentId ∧
      call.request.sessionKey ext = received.sessionKeyId ∧
      call.request.amount ext = received.paymentAmount ∧
      call.request.authorization ext =
        some (received.verified.from, received.verified.nonce) ∧
      call.request = .forwardRequest req := by
  have hstage := stage_of_sent hsent
  obtain ⟨req, rest, hreq, h⟩ := forwards_of_spends hevent (by
    unfold Op.Spends
    omega)
  obtain ⟨received, agentRules, before, reserve, after, htrace, hadmitted,
    hreserve, hforward, hafter⟩ := forwardRequest_reserved h hevent (by omega)
  obtain ⟨hagent, hkey, hamount, hauthorization⟩ := hadmitted.valid.names
  rw [hreq]
  exact ⟨req, received, agentRules, before, reserve, after, rest, htrace,
    hadmitted, hreserve, hforward, hafter, hagent.symm, hkey.symm,
    hamount.symm, hauthorization, rfl⟩

/-- A call sends its request at most once. -/
theorem sent_count (call : Call (handle ext config)) :
    call.trace.countP sent ≤ 1 := by
  by_cases hany : ∃ event ∈ call.trace, sent event = true
  · obtain ⟨event, hevent, hsent⟩ := hany
    have hstage := stage_of_sent hsent
    obtain ⟨req, rest, _, h⟩ := forwards_of_spends hevent (by
      unfold Op.Spends
      omega)
    exact forwardRequest_count h
  · have hzero : call.trace.countP sent = 0 :=
      List.countP_eq_zero.mpr fun event hevent hsent =>
        hany ⟨event, hevent, hsent⟩
    omega

/-- A request that was forwarded for an agent has inserted the row of its
payment. -/
theorem inserted_of_forwarded {call : Call (handle ext config)}
    {agentId : Uuid} {db : Db}
    (hagent : call.request.agent ext = some agentId)
    (hreplies : ∀ event ∈ call.trace, ReplyFact event.op event.reply db)
    (hforwarded : forwarded call = true) :
    ∃ auth snapshot limit? order time,
      call.request.authorization ext = some auth ∧
      ⟨.postgres (.insertSpend snapshot ⟨agentId, call.request.sessionKey ext,
        call.request.amount ext, hexEncode auth.2.bytes⟩ limit?),
        .ok (1 : Nat), order, time⟩ ∈ call.trace := by
  obtain ⟨event, hevent, hsent⟩ := forwarded_iff.mp hforwarded
  obtain ⟨req, received, agentRules, before, reserve, after, rest, htrace,
    _, hreserve, _, _, hagent', hkey, hamount, hauth, _⟩ :=
    sent_parts hevent hsent
  rw [hagent] at hagent'
  obtain ⟨snapshot, affected, order₁, time₁, order₂, time₂, tail,
    haffected, rfl, _⟩ :=
    (reserveSpend_reaches_ret hagent'.symm hreserve).ledger
  let inserted : Event Op Reply := ⟨.postgres (.insertSpend snapshot
    (received.spendValues agentId)
    ((agentRules.bind extractDailyLimit).map (↑))), .ok affected,
    order₂, time₂⟩
  have hinserted : inserted ∈ call.trace := by
    rw [htrace]
    simp [inserted]
  obtain ⟨hle, hnone, _⟩ : affected ≤ 1 ∧ _ ∧ _ :=
    hreplies inserted hinserted
  have hone : affected = 1 := by
    cases hlimit : agentRules.bind extractDailyLimit with
    | none => exact hnone (by rw [hlimit]; rfl)
    | some limit =>
        have := haffected (by rw [hlimit]; rfl)
        omega
  subst hone
  rw [hkey, hamount, hauth]
  exact ⟨_, snapshot, _, order₂, time₂, rfl, hinserted⟩

/-- What an event charged to a session key. -/
def chargeTo (key : Uuid) : Event Op Reply → Int
  | ⟨.postgres query, .ok answer, _, _⟩ => query.charge key answer
  | _ => 0

theorem perform_spent (key : Uuid) (op : Op) (outcome : Outcome) (s : Shared)
    (order time : Nat) :
    (perform op outcome s).2.db.spent key = s.db.spent key +
      chargeTo key ⟨op, (perform op outcome s).1, order, time⟩ := by
  by_cases hop : ∃ query, op = .postgres query
  · obtain ⟨query, rfl⟩ := hop
    rcases perform_postgres query outcome s with
      ⟨error, heq⟩ | ⟨answer, db', heq, hchange⟩
    · simp [heq, chargeTo]
    · rw [heq]
      exact hchange.spent key
  · rw [perform_db_of_ne (fun query heq => hop ⟨query, heq⟩)]
    cases op with
    | postgres query => exact absurd ⟨query, rfl⟩ hop
    | _ => simp [chargeTo]

/-- The counter of a key is what it was plus all charges of the run. -/
theorem spent_eq_charges {Allowed : World (handle ext config) Shared →
      Action Request Micros Outcome → Prop}
    {w₀ w : World (handle ext config) Shared}
    (run : Run (World.step proxySemantics) Allowed w₀ w)
    (hstart : w₀.events = []) (key : Uuid) :
    w.shared.db.spent key = w₀.shared.db.spent key + w.total (chargeTo key) :=
  World.accounting (fun s : Shared => s.db.spent key) (chargeTo key) run hstart
    (fun _ _ => rfl) fun op outcome s order =>
      perform_spent key op outcome s order s.now

theorem chargeTo_eq_zero {key : Uuid} {event : Event Op Reply}
    (h : ∀ id amount, event.op ≠ .postgres (.incrementSpent id amount)) :
    chargeTo key event = 0 := by
  obtain ⟨op, reply, order, time⟩ := event
  cases op with
  | postgres query =>
      cases reply with
      | error error => rfl
      | ok answer =>
          cases query with
          | incrementSpent id amount => exact absurd rfl (h id amount)
          | _ => rfl
  | _ => rfl

theorem chargeTo_eq_zero_of_stage {key : Uuid} {event : Event Op Reply}
    (h : event.op.stage ≠ 10) : chargeTo key event = 0 :=
  chargeTo_eq_zero fun id amount heq => h (by rw [heq]; rfl)

theorem charges_eq_zero {key : Uuid} {trace : List (Event Op Reply)}
    (h : ∀ event ∈ trace, event.op.stage ≠ 10) :
    (trace.map (chargeTo key)).sum = 0 := by
  refine List.sum_eq_zero fun charge hcharge => ?_
  obtain ⟨event, hevent, rfl⟩ := List.mem_map.mp hcharge
  exact chargeTo_eq_zero_of_stage (h event hevent)

/-- Only charges of a nonnegative amount are ever issued. -/
def Op.ChargesNonneg (op : Op) : Prop :=
  ∀ id amount, op = .postgres (.incrementSpent id amount) → 0 ≤ amount

theorem Op.ChargesNonneg.of_stage {op : Op} (h : op.stage ≠ 10) :
    op.ChargesNonneg := by
  rintro id amount rfl
  exact absurd rfl h

theorem reserveSpend_chargesNonneg (received : Received)
    (agentRules : Option (List GuardrailRule)) :
    (reserveSpend received agentRules).Within Op.ChargesNonneg := by
  apply reserveSpend_ops
  · intro _ _ heq
    cases heq
  · intro _ _ _ _ _ _ heq
    cases heq
  · intro _ n id amount heq
    cases heq
    exact Int.natCast_nonneg n

/-- No call is ever charged a negative amount. -/
theorem chargeTo_nonneg {call : Call (handle ext config)} (key : Uuid)
    {event : Event Op Reply} (hevent : event ∈ call.trace) :
    0 ≤ chargeTo key event := by
  by_cases hstage : event.op.stage = 10
  · obtain ⟨req, rest, _, h⟩ := forwards_of_spends hevent (by
      unfold Op.Spends
      omega)
    obtain ⟨received, agentRules, before, after, htrace, _, hafter, hrest⟩ :=
      forwardRequest_admitted h hevent (by omega)
    have hforward : (forwardToTarget ext req received).Within
        Op.ChargesNonneg :=
      (forwardToTarget_within req received).mono fun op hop =>
        Op.ChargesNonneg.of_stage (by omega)
    have hnonneg := ((reserveSpend_chargesNonneg received agentRules).bind
      fun _ => hforward).of_mem hrest event hafter
    obtain ⟨op, reply, order, time⟩ := event
    cases op with
    | postgres query =>
        cases reply with
        | error error => exact Int.le_refl 0
        | ok answer =>
            cases query with
            | incrementSpent id amount =>
                simp only [chargeTo, Query.charge]
                split
                · exact Int.mul_nonneg (Int.natCast_nonneg _)
                    (hnonneg id amount rfl)
                · exact Int.le_refl 0
            | _ => exact Int.le_refl 0
    | _ => exact Int.le_refl 0
  · rw [chargeTo_eq_zero_of_stage hstage]

/-- The trace charges the key exactly `amount`, all of it before the request
goes out. -/
def ChargedBeforeSent (key : Uuid) (amount : Nat)
    (trace : List (Event Op Reply)) : Prop :=
  ∃ before after, trace = before ++ after ∧
    (∀ event ∈ before, sent event = false) ∧
    (∃ event ∈ after, sent event = true) ∧
    (before.map (chargeTo key)).sum = amount ∧
    (after.map (chargeTo key)).sum = 0

theorem ChargedBeforeSent.sum {key : Uuid} {amount : Nat}
    {trace : List (Event Op Reply)}
    (h : ChargedBeforeSent key amount trace) :
    (trace.map (chargeTo key)).sum = amount := by
  obtain ⟨before, after, rfl, _, _, hbefore, hafter⟩ := h
  rw [List.map_append, List.sum_append, hbefore, hafter, Int.add_zero]

/-- What the forwarded calls whose request is one of `p` have paid. -/
def forwardedAmount (p : Request → Prop) [DecidablePred p]
    (w : World (handle ext config) Shared) : Int :=
  (w.calls.map fun call =>
    if forwarded call = true ∧ p call.request then
      (call.request.amount ext : Int)
    else 0).sum

/-- A finished reservation for an agent charges the named key the amount. -/
theorem Reserved.charges {received : Received} {agentId key : Uuid}
    {agentRules : Option (List GuardrailRule)} {trace : List (Event Op Reply)}
    {db : Db} (h : Reserved received agentId agentRules trace)
    (hkey : received.sessionKeyId = some key)
    (hreplies : ∀ event ∈ trace, ReplyFact event.op event.reply db) :
    (trace.map (chargeTo key)).sum = received.paymentAmount := by
  obtain ⟨snapshot, affected, order₁, time₁, order₂, time₂, rest, _, rfl,
    _, hrest⟩ := h.ledger
  obtain ⟨charged, order, time, hne, rfl⟩ := hrest key hkey
  have hle : charged ≤ 1 := hreplies ⟨.postgres (.incrementSpent key
    received.paymentAmount), .ok charged, order, time⟩ (by simp)
  have hone : charged = 1 := by omega
  subst hone
  simp [chargeTo, Query.charge]

/-- A request that was forwarded for an agent and a session key has charged the
key exactly its amount, before it went out. -/
theorem forwarded_charged {call : Call (handle ext config)}
    {agentId key : Uuid} {db : Db}
    (hagent : call.request.agent ext = some agentId)
    (hkey : call.request.sessionKey ext = some key)
    (hreplies : ∀ event ∈ call.trace, ReplyFact event.op event.reply db)
    (hforwarded : forwarded call = true) :
    ChargedBeforeSent key (call.request.amount ext) call.trace := by
  obtain ⟨event, hevent, hsent⟩ := forwarded_iff.mp hforwarded
  obtain ⟨req, received, agentRules, before, reserve, after, rest, htrace,
    hadmitted, hreserve, hforward, hafter, hagent', hkey', hamount, _⟩ :=
    sent_parts hevent hsent
  rw [hagent] at hagent'
  rw [hkey] at hkey'
  have hreserved := reserveSpend_reaches_ret hagent'.symm hreserve
  have hupTo : ∀ event ∈ reserve, event.op.stage ≤ 10 :=
    (reserveSpend_within received agentRules).of_mem hreserve
  have hbefore : (before.map (chargeTo key)).sum = 0 :=
    charges_eq_zero fun event hevent => by
      have := hadmitted.stages event hevent
      omega
  have hcharge := hreserved.charges hkey'.symm fun event hevent =>
    hreplies event (by simp [htrace, hevent])
  refine ⟨before ++ reserve, after, by rw [htrace, List.append_assoc], ?_,
    ⟨event, hafter, hsent⟩, ?_, ?_⟩
  · intro event hevent
    refine sent_eq_false ?_
    rcases List.mem_append.mp hevent with hevent | hevent
    · have := hadmitted.stages event hevent
      omega
    · have := hupTo event hevent
      omega
  · rw [List.map_append, List.sum_append, hbefore, hcharge, hamount,
      Int.zero_add]
  · refine charges_eq_zero fun event hevent => ?_
    have := (forwardToTarget_within req received).of_mem hforward event hevent
    omega

/-- What the forwarded calls naming a key have paid is at most what all calls
were charged, if every such call names an agent too. -/
theorem forwardedAmount_le_charges {p : Request → Prop} [DecidablePred p]
    {w : World (handle ext config) Shared} {key : Uuid} {db : Db}
    (hreplies : ∀ event ∈ w.events, ReplyFact event.op event.reply db)
    (hnames : ∀ call ∈ w.calls, p call.request →
      call.request.sessionKey ext = some key ∧
        ∃ agentId, call.request.agent ext = some agentId) :
    forwardedAmount p w ≤ w.total (chargeTo key) := by
  refine World.sum_calls_le_total fun call hcall => ?_
  split
  · rename_i hpaid
    obtain ⟨hkey, agentId, hagent⟩ := hnames call hcall hpaid.2
    exact Int.le_of_eq (forwarded_charged hagent hkey
      (fun event hevent => hreplies event (World.mem_events hcall hevent))
      hpaid.1).sum.symm
  · refine List.sum_nonneg fun charge hcharge => ?_
    obtain ⟨event, hevent, rfl⟩ := List.mem_map.mp hcharge
    exact chargeTo_nonneg key hevent

namespace Sample

/-- Which calls of a replay have forwarded their request. -/
def sentFlags (r : Replayed) : List Bool :=
  r.threads.map fun thread => thread.trace.any sent

/-- How often each call of a replay has sent its request before the instant. -/
def sentBefore (instant : Micros) (r : Replayed) : List Nat :=
  r.threads.map fun thread =>
    thread.trace.countP fun event => sent event && event.time < instant

theorem sentBefore_toReplay (instant : Micros)
    (w : World (handle ext config) Shared) :
    sentBefore instant w.toReplay = w.calls.map fun call =>
      call.trace.countP fun event => sent event && event.time < instant := by
  simp [sentBefore, World.toReplay, Call.toThread, Function.comp_def]

theorem sentFlags_toReplay (w : World (handle ext config) Shared) :
    sentFlags w.toReplay = w.calls.map forwarded := by
  simp [sentFlags, World.toReplay, Call.toThread, Function.comp_def,
    forwarded]

end Sample

end X402Guard

/-
What a request that fails before it goes out leaves in the database.  The spend
is reserved before the request is sent and never given back, so errors after
the reservation leave it behind; all others leave nothing.
-/
import X402Guard.ForwardEnding
import X402Guard.LedgerBacking
import Mathlib.Algebra.Order.Group.Multiset

namespace X402Guard

open Interaction Prog

variable {ext : Externals} {config : AppConfig}
variable {Allowed : World (handle ext config) Shared →
  Action Request Micros Outcome → Prop}

/-- The values that a row was inserted with. -/
def LedgerRow.values (row : LedgerRow) : SpendValues :=
  ⟨row.agentId, row.sessionKeyId, row.amount, row.txNonce⟩

/-- The values of all rows of the ledger. -/
def Db.ledgerValues (db : Db) : Multiset SpendValues :=
  (db.spendLedger.rows.map LedgerRow.values : List SpendValues)

/-- What an event inserted into the ledger. -/
def insertedBy (event : Event Op Reply) : Multiset SpendValues :=
  ((inserted? event).toList : List SpendValues)

theorem perform_ledgerValues (op : Op) (outcome : Outcome) (s : Shared)
    (order time : Nat) :
    (perform op outcome s).2.db.ledgerValues = s.db.ledgerValues +
      insertedBy ⟨op, (perform op outcome s).1, order, time⟩ := by
  unfold Db.ledgerValues insertedBy
  rcases perform_inserted op outcome s order time with
    ⟨hnone, hsame⟩ | ⟨values, createdAt, hpos, hnew, hsome, hrows⟩
  · rw [hnone, hsame]
    exact (add_zero _).symm
  · rw [hsome, hrows]
    simp only [KeyedTable.insert, List.map_append, ← Multiset.coe_add]
    rfl

/-- The ledger holds what it held and what has been inserted. -/
theorem ledgerValues_eq {w₀ w : World (handle ext config) Shared}
    (run : Run (World.step proxySemantics) Allowed w₀ w)
    (hstart : w₀.events = []) :
    w.shared.db.ledgerValues =
      w₀.shared.db.ledgerValues + w.total insertedBy :=
  World.accounting (fun s : Shared => s.db.ledgerValues) insertedBy run hstart
    (fun _ _ => rfl) fun op outcome s order =>
      perform_ledgerValues op outcome s order s.now

/-- No row of the ledger is changed or removed. -/
theorem ledger_grows {w₀ w : World (handle ext config) Shared}
    (run : Run (World.step proxySemantics) Allowed w₀ w) :
    ∃ rows, w.shared.db.spendLedger.rows =
      w₀.shared.db.spendLedger.rows ++ rows := by
  refine World.shared_invariant (I := fun s : Shared => ∃ rows,
    s.db.spendLedger.rows = w₀.shared.db.spendLedger.rows ++ rows) run
    ⟨[], (List.append_nil _).symm⟩ (fun _ _ h => h) ?_
  rintro op outcome s ⟨rows, hrows⟩
  rw [proxySemantics_perform]
  rcases perform_inserted op outcome s 0 0 with
    ⟨_, hsame⟩ | ⟨values, createdAt, hpos, hnew, _, hadded⟩
  · exact ⟨rows, by rw [hsame, hrows]⟩
  · refine ⟨rows ++ [values.row createdAt hpos], ?_⟩
    rw [hadded, ← List.append_assoc, ← hrows]
    rfl

/-- The rows that a run has added are those it has inserted. -/
theorem ledger_rows {w₀ w : World (handle ext config) Shared}
    (run : Run (World.step proxySemantics) Allowed w₀ w)
    (hstart : w₀.events = []) :
    ∃ rows, w.shared.db.spendLedger.rows =
        w₀.shared.db.spendLedger.rows ++ rows ∧
      ((rows.map LedgerRow.values : List SpendValues) :
        Multiset SpendValues) = w.total insertedBy := by
  obtain ⟨rows, hrows⟩ := ledger_grows run
  refine ⟨rows, hrows, ?_⟩
  have hvalues := ledgerValues_eq run hstart
  unfold Db.ledgerValues at hvalues
  rw [hrows, List.map_append, ← Multiset.coe_add] at hvalues
  exact add_left_cancel hvalues

/-- The values reserve what the request pays, for the agent and the key it
names and under its nonce. -/
structure SpendValues.Reserve (ext : Externals) (values : SpendValues)
    (req : ProxyRequest) : Prop where
  agent : req.agent ext = some values.agentId
  sessionKey : values.sessionKeyId = req.sessionKey ext
  amount : values.amount = req.amount ext
  nonce : ∃ auth, req.authorization ext = some auth ∧
    values.txNonce = hexEncode auth.2.bytes

theorem Received.Valid.reserve {req : ProxyRequest} {received : Received}
    {agentId : Uuid} (h : received.Valid ext req)
    (hagent : received.agentId = some agentId) :
    (received.spendValues agentId).Reserve ext req := by
  obtain ⟨hagent', hkey, hamount, hauth⟩ := h.names
  refine ⟨hagent' ▸ hagent, hkey, ?_, _, hauth, rfl⟩
  rw [← hamount]
  rfl

/-- What the request charges the key if it names it. -/
def ProxyRequest.chargeFor (ext : Externals) (req : ProxyRequest)
    (key : Uuid) : Int :=
  if req.sessionKey ext = some key then req.amount ext else 0

/-- What a request that ended with an error has inserted into the ledger and
charged to each key: nothing, or its reservation. -/
inductive LeavesBehind (ext : Externals) (req : ProxyRequest) :
    AppError → Multiset SpendValues → (Uuid → Int) → Prop
  | nothing (error : AppError) : LeavesBehind ext req error 0 fun _ => 0
  | reservation {values : SpendValues} (h : values.Reserve ext req) :
      LeavesBehind ext req (.guardrailViolation
        "session key spend limit exceeded (concurrent check)") {values}
        fun _ => 0
  | charge {values : SpendValues} (h : values.Reserve ext req)
      (cause : String) :
      LeavesBehind ext req (.internal s!"forward request failed: {cause}")
        {values} (req.chargeFor ext)

theorem insertedBy_eq_zero {event : Event Op Reply}
    (h : event.op.stage ≠ 10) : insertedBy event = 0 := by
  obtain ⟨op, reply, order, time⟩ := event
  cases op with
  | postgres query =>
      cases query with
      | insertSpend => exact absurd rfl h
      | _ => rfl
  | _ => rfl

/-- What the events of a trace insert and charge. -/
def Leaves (ext : Externals) (req : ProxyRequest) (error : AppError)
    (trace : List (Event Op Reply)) : Prop :=
  LeavesBehind ext req error (trace.map insertedBy).sum
    fun key => (trace.map (chargeTo key)).sum

theorem LeavesBehind.leaves {req : ProxyRequest} {error : AppError}
    {trace : List (Event Op Reply)} {inserted : Multiset SpendValues}
    {charged : Uuid → Int} (h : LeavesBehind ext req error inserted charged)
    (hinserted : (trace.map insertedBy).sum = inserted)
    (hcharged : ∀ key, (trace.map (chargeTo key)).sum = charged key) :
    Leaves ext req error trace := by
  unfold Leaves
  rw [hinserted, funext hcharged]
  exact h

theorem inserted_eq_zero {trace : List (Event Op Reply)}
    (h : ∀ event ∈ trace, event.op.stage ≠ 10) :
    (trace.map insertedBy).sum = 0 := by
  apply List.sum_eq_zero
  intro inserted hinserted
  obtain ⟨event, hevent, rfl⟩ := List.mem_map.mp hinserted
  exact insertedBy_eq_zero (h event hevent)

/-- The steps around the reservation leave nothing. -/
theorem leaves_nothing {req : ProxyRequest} {error : AppError}
    {trace : List (Event Op Reply)}
    (h : ∀ event ∈ trace, event.op.stage ≠ 10) :
    Leaves ext req error trace :=
  (LeavesBehind.nothing error).leaves (inserted_eq_zero h)
    fun _ => charges_eq_zero h

/-- So does a reservation whose INSERT has failed. -/
theorem leaves_nothing_of_failed {req : ProxyRequest} {error : AppError}
    {trace : List (Event Op Reply)} {values : SpendValues}
    (h : ∀ event ∈ trace, event.op = .postgres .beginSpend ∨
      ∃ snapshot limit? error order time, event = ⟨.postgres (.insertSpend
        snapshot values limit?), .error error, order, time⟩) :
    Leaves ext req error trace := by
  apply (LeavesBehind.nothing error).leaves
  · apply List.sum_eq_zero
    intro inserted hinserted
    obtain ⟨⟨op, reply, order, time⟩, hevent, rfl⟩ :=
      List.mem_map.mp hinserted
    rcases h _ hevent with hop | ⟨snapshot, limit?, error, order, time, heq⟩
    · obtain rfl : op = .postgres .beginSpend := hop
      rfl
    · rw [heq]
      rfl
  · intro key
    apply List.sum_eq_zero
    intro charge hcharge
    obtain ⟨event, hevent, rfl⟩ := List.mem_map.mp hcharge
    apply chargeTo_eq_zero
    intro id amount hop
    rcases h _ hevent with hbegin | ⟨snapshot, limit?, error, order, time, rfl⟩
    · rw [hop] at hbegin
      cases hbegin
    · cases hop

/-- What comes before the reservation leaves nothing. -/
theorem leaves_append_iff {req : ProxyRequest} {error : AppError}
    {before after : List (Event Op Reply)}
    (h : ∀ event ∈ before, event.op.stage ≠ 10) :
    Leaves ext req error (before ++ after) ↔
      Leaves ext req error after := by
  unfold Leaves
  simp only [List.map_append, List.sum_append, inserted_eq_zero h,
    charges_eq_zero h, zero_add]

/-- The INSERT of a reservation that passes its check inserts one row. -/
theorem inserted_one {snapshot : Snapshot} {values : SpendValues}
    {limit? : Option Nat} {affected order time : Nat} {db : Db}
    (hlimit : limit?.isSome = true → 0 < affected)
    (h : ReplyFact (.postgres (.insertSpend snapshot values
      (limit?.map (↑)))) (.ok affected) db) :
    insertedBy ⟨.postgres (.insertSpend snapshot values (limit?.map (↑))),
      .ok affected, order, time⟩ = {values} := by
  obtain ⟨hle, hnone, _⟩ : affected ≤ 1 ∧ _ ∧ _ := h
  have hone : affected = 1 := by
    cases limit? with
    | none => exact hnone rfl
    | some limit =>
        have hpos := hlimit rfl
        omega
  subst hone
  rfl

/-- How a reservation that fails leaves the database. -/
theorem reserveSpend_leaves {req : ProxyRequest} {received : Received}
    {agentRules : Option (List GuardrailRule)} {trace : List (Event Op Reply)}
    {error : AppError} {db : Db} (hvalid : received.Valid ext req)
    (h : (reserveSpend received agentRules).Reaches trace (.throw error))
    (hreplies : ∀ event ∈ trace, ReplyFact event.op event.reply db) :
    Leaves ext req error trace := by
  rcases Option.eq_none_or_eq_some received.agentId with
    hagent | ⟨agentId, hagent⟩
  · simp only [reserveSpend, hagent, pure_eq_ret] at h
    cases (reaches_ret_iff.mp h).2
  rw [← lift_error] at h
  cases reserveSpend_ends hagent h with
  | notInserted hevents => exact leaves_nothing_of_failed hevents
  | overLimit hlimit =>
      exact (LeavesBehind.nothing _).leaves rfl fun _ => rfl
  | notCharged hkey hlimit hreply =>
      have hone := hreplies _ (.tail _ (.head _))
      apply (LeavesBehind.reservation (hvalid.reserve hagent)).leaves
      · simp only [List.map_cons, List.sum_cons, inserted_one hlimit hone]
        rfl
      · intro key
        rename_i reply _ _ _ _ _ _ _ _
        cases reply with
        | error error => rfl
        | ok charged =>
            rw [hreply charged rfl]
            simp [chargeTo, Query.charge]

/-- A reservation that goes through inserts its row. -/
theorem Reserved.inserted {received : Received} {agentId : Uuid}
    {agentRules : Option (List GuardrailRule)} {trace : List (Event Op Reply)}
    {db : Db} (h : Reserved received agentId agentRules trace)
    (hreplies : ∀ event ∈ trace, ReplyFact event.op event.reply db) :
    (trace.map insertedBy).sum = {received.spendValues agentId} := by
  obtain ⟨snapshot, affected, order₁, time₁, order₂, time₂, rest, hlimit, rfl,
    hempty, hcharge⟩ := h.ledger
  have hone := hreplies _ (.tail _ (.head _))
  simp only [List.map_cons, List.sum_cons, inserted_one hlimit hone]
  rcases Option.eq_none_or_eq_some received.sessionKeyId with
    hkey | ⟨keyId, hkey⟩
  · rw [hempty hkey]
    rfl
  · obtain ⟨charged, order, time, _, rfl⟩ := hcharge keyId hkey
    rfl

/-- And charges the key that the request names, and no other. -/
theorem Reserved.charges_each {req : ProxyRequest} {received : Received}
    {agentId : Uuid} {agentRules : Option (List GuardrailRule)}
    {trace : List (Event Op Reply)} {db : Db}
    (hvalid : received.Valid ext req)
    (h : Reserved received agentId agentRules trace)
    (hreplies : ∀ event ∈ trace, ReplyFact event.op event.reply db)
    (key : Uuid) :
    (trace.map (chargeTo key)).sum = req.chargeFor ext key := by
  obtain ⟨_, hkey, hamount, _⟩ := hvalid.names
  unfold ProxyRequest.chargeFor
  rw [← hkey, ← hamount]
  by_cases hnamed : received.sessionKeyId = some key
  · rw [if_pos hnamed]
    exact h.charges hnamed hreplies
  · rw [if_neg hnamed]
    obtain ⟨snapshot, affected, order₁, time₁, order₂, time₂, rest, _, rfl,
      hempty, hcharge⟩ := h.ledger
    rcases Option.eq_none_or_eq_some received.sessionKeyId with
      hnone | ⟨keyId, hsome⟩
    · rw [hempty hnone]
      rfl
    · obtain ⟨charged, order, time, _, rfl⟩ := hcharge keyId hsome
      have hne : keyId ≠ key := fun heq => hnamed (heq ▸ hsome)
      simp [chargeTo, Query.charge, hne]

/-- What a request that ended with an error leaves behind. -/
theorem forwardRequest_leaves {req : ProxyRequest}
    {trace : List (Event Op Reply)} {error : AppError} {db : Db}
    (h : (forwardRequest ext config req).Reaches trace (.throw error))
    (hreplies : ∀ event ∈ trace, ReplyFact event.op event.reply db) :
    Leaves ext req error trace := by
  rw [← lift_error] at h
  rcases forwardRequest_ends h with ⟨error, hrefused, heq⟩ |
    ⟨received, agentRules, before, after, rfl, hpassed, hafter⟩
  · cases heq
    exact leaves_nothing fun event hevent => by
      have := hrefused.stages event hevent
      omega
  have hvalid := hpassed.admitted.valid
  rw [leaves_append_iff fun event hevent => by
    have := hpassed.admitted.stages event hevent
    omega]
  have hfacts : ∀ event ∈ after, ReplyFact event.op event.reply db :=
    fun event hevent => hreplies event (List.mem_append_right before hevent)
  rcases reaches_bind_lift_iff.mp hafter with
    ⟨error, hreserve, heq⟩ | ⟨_, reserve, target, rfl, hreserve, htarget⟩
  · cases heq
    exact reserveSpend_leaves hvalid hreserve hfacts
  · have hlast := (forwardToTarget_within req received).of_mem htarget
    have htail : ∀ event ∈ target, event.op.stage ≠ 10 := by
      intro event hevent
      have := hlast event hevent
      omega
    rcases Option.eq_none_or_eq_some received.agentId with
      hagent | ⟨agentId, hagent⟩
    · simp only [reserveSpend, hagent, pure_eq_ret] at hreserve
      obtain ⟨rfl, _⟩ := reaches_ret_iff.mp hreserve
      exact leaves_nothing htail
    · obtain ⟨cause, rfl⟩ : ∃ cause,
          error = .internal s!"forward request failed: {cause}" := by
        cases forwardToTarget_ends htarget with
        | notBuilt hheader => exact ⟨"builder error", rfl⟩
        | unanswered hheader hreply => exact ⟨_, rfl⟩
      have hreserved := reserveSpend_reaches_ret hagent hreserve
      have hearly : ∀ event ∈ reserve, ReplyFact event.op event.reply db :=
        fun event hevent => hfacts event (List.mem_append_left target hevent)
      apply (LeavesBehind.charge (hvalid.reserve hagent) cause).leaves
      · rw [List.map_append, List.sum_append, inserted_eq_zero htail,
          add_zero]
        exact hreserved.inserted hearly
      · intro key
        rw [List.map_append, List.sum_append, charges_eq_zero htail, add_zero]
        exact hreserved.charges_each hvalid hearly key

/-- What the call has inserted into the ledger. -/
def insertedIn (call : Call (handle ext config)) : Multiset SpendValues :=
  (call.trace.map insertedBy).sum

/-- What the call has charged to the key. -/
def chargedIn (key : Uuid) (call : Call (handle ext config)) : Int :=
  (call.trace.map (chargeTo key)).sum

/-- The ledger and the counters are what they were at the start and what the
calls have written. -/
structure Accounted (s₀ : Shared) (w : World (handle ext config) Shared) :
    Prop where
  rows : ∃ rows, w.shared.db.spendLedger.rows =
      s₀.db.spendLedger.rows ++ rows ∧
    ((rows.map LedgerRow.values : List SpendValues) : Multiset SpendValues) =
      (w.calls.map insertedIn).sum
  counters : ∀ key, w.shared.db.spent key =
    s₀.db.spent key + (w.calls.map (chargedIn key)).sum

theorem accounted (s₀ : Shared) {w : World (handle ext config) Shared}
    (run : Run (World.step proxySemantics) Allowed
      (World.start (handle ext config) s₀) w) : Accounted s₀ w where
  rows := by
    obtain ⟨rows, hrows, hvalues⟩ := ledger_rows run (World.events_start s₀)
    rw [World.total_eq_sum_calls] at hvalues
    exact ⟨rows, hrows, hvalues⟩
  counters key := by
    have hspent := spent_eq_charges run (World.events_start s₀) key
    rw [World.total_eq_sum_calls] at hspent
    exact hspent

/-- Whatever else runs beside it, a request that ended with an error has written
nothing, or its reservation if the error came after it. -/
theorem error_remains (s₀ : Shared) {w : World (handle ext config) Shared}
    (run : Run (World.step proxySemantics) Allowed
      (World.start (handle ext config) s₀) w)
    {call : Call (handle ext config)} {req : ProxyRequest} {error : AppError}
    (hcall : call ∈ w.calls) (hreq : call.request = .forwardRequest req)
    (hended : call.rest = .throw error) :
    LeavesBehind ext req error (insertedIn call)
      (fun key => chargedIn key call) ∧ Accounted s₀ w := by
  refine ⟨?_, accounted s₀ run⟩
  obtain ⟨result, hreached, herror⟩ := forwardRequest_of_ended hreq
    (result?_eq_some_iff.mpr hended : call.rest.result? = some (.error error))
  obtain rfl : result = .error error := by
    cases result with
    | ok response => cases herror
    | error error' =>
        cases herror
        rfl
  exact forwardRequest_leaves hreached fun event hevent =>
    replies_sound run (World.events_start s₀) event
      (World.mem_events hcall hevent)

/-- The ledger and the counter of every key are the same. -/
def SpendUnchanged (db db' : Db) : Prop :=
  db'.spendLedger = db.spendLedger ∧ ∀ key, db'.spent key = db.spent key

namespace Sample

/-- The target cannot be reached. -/
def unreachable : Outcome := ⟨false, 0, .notSent "error sending request"⟩

def unreachableError : AppError :=
  .internal "forward request failed: error sending request"

/-- A payment for the agent whose target cannot be reached. -/
theorem unreachable_run : ∃ w call,
    Run (World.step proxySemantics) always (world none none) w ∧
    w.calls = [call] ∧
    call.request = .forwardRequest (request .first true false) ∧
    call.rest = .throw unreachableError ∧ forwarded call = false ∧
    w.shared.db.spendLedger.rows.length = 1 := by
  have hrun : ∃ w, Run (World.step proxySemantics) always (world none none) w ∧
      (endings w.toReplay, sentFlags w.toReplay,
        w.toReplay.shared.db.spendLedger.rows.length) =
          ([some (some unreachableError)], [false], 1) ∧
      w.calls.map Call.request =
        [.forwardRequest (request .first true false)] := by
    refine World.exists_run_of_replay (fun r => (endings r, sentFlags r,
      r.shared.db.spendLedger.rows.length))
      (fun _ _ => true) (fun _ _ _ => trivial)
      ([.arrive (.forwardRequest (request .first true false))] ++
        (advance 0 13 ++ [.advance 0 unreachable])) ?_
    simp only [List.map_append, List.map_cons, List.map_nil,
      withProgram_forward, map_advance]
    decide
  obtain ⟨w, run, hseen, hrequests⟩ := hrun
  obtain ⟨call, hcalls, hreq⟩ := List.map_eq_singleton_iff.mp hrequests
  simp only [endings_toReplay, sentFlags_toReplay, hcalls, List.map_singleton,
    Prod.mk.injEq, List.cons.injEq, and_true] at hseen
  obtain ⟨hended, hsent, hrows⟩ := hseen
  obtain ⟨result, hresult, herror⟩ := Option.map_eq_some_iff.mp hended
  rw [result?_eq_some_iff] at hresult
  cases result with
  | ok response => cases herror
  | error error =>
      cases herror
      exact ⟨w, call, run, hcalls, hreq, hresult, hsent, hrows⟩

end Sample

/-- Beside a payment that is forwarded, one whose target cannot be reached
leaves its reservation. -/
theorem error_remains_sample : ∃ w first second,
    Run (World.step proxySemantics) always (Sample.world none none) w ∧
    w.calls = [first, second] ∧ forwarded first = false ∧
    forwarded second = true ∧ first.rest = .throw Sample.unreachableError ∧
    LeavesBehind Sample.externals (Sample.request .first true false)
      Sample.unreachableError (insertedIn first)
      (fun key => chargedIn key first) ∧
    Accounted (Sample.world none none).shared w := by
  have hrun : ∃ w, Run (World.step proxySemantics) always
      (Sample.world none none) w ∧
      (Sample.endings w.toReplay, Sample.sentFlags w.toReplay) =
        ([some (some Sample.unreachableError), some none], [false, true]) ∧
      w.calls.map Call.request =
        [.forwardRequest (Sample.request .first true false),
          .forwardRequest (Sample.request .second true false)] := by
    refine World.exists_run_of_replay
      (fun r => (Sample.endings r, Sample.sentFlags r))
      (fun _ _ => true) (fun _ _ _ => trivial)
      ([.arrive (.forwardRequest (Sample.request .first true false)),
        .arrive (.forwardRequest (Sample.request .second true false))] ++
        (Sample.advance 0 7 ++ (Sample.advance 1 15 ++
          (Sample.advance 0 6 ++ [.advance 0 Sample.unreachable])))) ?_
    simp only [List.map_append, List.map_cons, List.map_nil,
      Sample.withProgram_forward, Sample.map_advance]
    decide
  obtain ⟨w, run, hseen, hrequests⟩ := hrun
  obtain ⟨first, second, hcalls, hreq, _⟩ := World.calls_eq_pair hrequests
  simp only [Sample.endings_toReplay, Sample.sentFlags_toReplay, hcalls,
    List.map_cons, List.map_nil, Prod.mk.injEq, List.cons.injEq, and_true]
    at hseen
  obtain ⟨⟨hended, _⟩, hunsent, hsent⟩ := hseen
  obtain ⟨result, hresult, herror⟩ := Option.map_eq_some_iff.mp hended
  rw [result?_eq_some_iff] at hresult
  cases result with
  | ok response => cases herror
  | error error =>
      cases herror
      exact ⟨w, first, second, run, hcalls, hunsent, hsent, hresult,
        error_remains _ run (by simp [hcalls]) hreq hresult⟩

/-- Not every error without a request sent leaves the ledger as it was. -/
theorem not_error_spendUnchanged : ¬ ∀ s₀
    (w : World (handle Sample.externals Sample.config) Shared) call req error,
    Run (World.step proxySemantics) always
      (World.start (handle Sample.externals Sample.config) s₀) w →
    w.calls = [call] → call.request = .forwardRequest req →
    call.rest = .throw error → forwarded call = false →
    SpendUnchanged s₀.db w.shared.db := by
  intro h
  obtain ⟨w, call, run, hcalls, hreq, hended, hunsent, hrows⟩ :=
    Sample.unreachable_run
  obtain ⟨hsame, _⟩ := h _ w call _ _ run hcalls hreq hended hunsent
  rw [hsame] at hrows
  cases hrows

end X402Guard

/-
The daily cap of an agent: what the reservations of overlapping requests leave
of it, and which of several daily rules a reservation enforces.
-/
import X402Guard.ReplyFacts

namespace X402Guard

open Interaction Prog

variable {ext : Externals} {config : AppConfig}
variable {Allowed : World (handle ext config) Shared →
  Action Request Micros Outcome → Prop}

/-- `limit` is the only limit of the agent's active daily rules. -/
def Db.DailyLimit (db : Db) (agentId : Uuid) (limit : Nat) : Prop :=
  ∃ rules, rowsToRules (db.guardrailRules.selectWhere fun row =>
      row.agentId = agentId ∧ row.isActive = true) = .ok rules ∧
    ∀ other, HasDailyLimit rules other ↔ other = limit

theorem extractDailyLimit_of_single {rules : List GuardrailRule} {limit : Nat}
    (h : ∀ other, HasDailyLimit rules other ↔ other = limit) :
    extractDailyLimit rules = some limit := by
  cases hextract : extractDailyLimit rules with
  | none =>
      exact absurd ((h limit).mpr rfl)
        (extractDailyLimit_eq_none_iff.mp hextract limit)
  | some other =>
      have hother := (extractDailyLimit_eq_some_iff.mp hextract).hasDailyLimit
      rw [(h other).mp hother]

/-- Only requests to be forwarded arrive. -/
def ForwardsOnly (Allowed : World (handle ext config) Shared →
    Action Request Micros Outcome → Prop) : Prop :=
  ∀ w request, Allowed w (.arrive request) → request.forwards.isSome = true

/-- While requests are only forwarded, no rule changes. -/
theorem guardrailRules_of_forwardsOnly (hforwards : ForwardsOnly Allowed)
    {w₀ w : World (handle ext config) Shared}
    (run : Run (World.step proxySemantics) Allowed w₀ w)
    (hstart : w₀.calls = []) :
    w.shared.db.guardrailRules = w₀.shared.db.guardrailRules := by
  refine World.reachable_invariant (I := fun w =>
    w.shared.db.guardrailRules = w₀.shared.db.guardrailRules) run rfl ?_ ?_ ?_
  · intro w request _ h _
    exact h
  · intro w event _ h _
    exact h
  intro w index call op next outcome hrest hcall hrun h _
  have hforward := World.requests
    (P := fun request : Request => request.forwards.isSome = true) hrun
    (by simp [hstart]) hforwards call (List.mem_of_getElem? hcall)
  have hissues := issues_of_rest hrest
  obtain ⟨req, hreq⟩ : ∃ req, call.request = .forwardRequest req := by
    cases hreq : call.request with
    | forwardRequest req => exact ⟨req, rfl⟩
    | _ => simp [hreq, Request.forwards] at hforward
  rw [hreq] at hissues
  refine Eq.trans ?_ h
  cases op with
  | postgres query =>
      rcases perform_postgres query outcome w.shared with
        ⟨error, heq⟩ | ⟨answer, db', heq, hchange⟩
      · simp only [World.perform, proxySemantics_perform, heq]
      · simp only [World.perform, proxySemantics_perform, heq]
        apply hchange.guardrailRules
        cases query <;>
          simp_all [Query.WritesRules, Request.Issues, Op.stage]
  | _ =>
      simp only [World.perform, proxySemantics_perform]
      rw [perform_db_of_ne (fun query heq => by cases heq)]

/-- Every list of active rules that was read is the one of the start. -/
theorem selectedRules_of_forwardsOnly (hforwards : ForwardsOnly Allowed)
    {w₀ w : World (handle ext config) Shared}
    (run : Run (World.step proxySemantics) Allowed w₀ w)
    (hstart : w₀.calls = []) {agentId : Uuid} {rows : List GuardrailRow}
    {order time : Nat}
    (hevent : ⟨.postgres (.selectActiveRules agentId), .ok rows, order,
      time⟩ ∈ w.events) :
    rows = w₀.shared.db.guardrailRules.selectWhere fun row =>
      row.agentId = agentId ∧ row.isActive = true := by
  have hsettled := World.settled (P := fun (event : Event Op Reply) _ =>
    ∀ agentId rows order time,
      event = ⟨.postgres (.selectActiveRules agentId), .ok rows, order, time⟩ →
      rows = w₀.shared.db.guardrailRules.selectWhere fun row =>
        row.agentId = agentId ∧ row.isActive = true) run
    (by simp [World.events, hstart]) (fun _ _ _ h => h) (fun _ _ _ _ h => h)
    ?_
  · exact hsettled _ hevent _ _ _ _ rfl
  · intro w index call op next outcome hrest hcall hrun agentId rows order time
      heq
    have hop : op = .postgres (.selectActiveRules agentId) :=
      congrArg Event.op heq
    subst hop
    have hrules := guardrailRules_of_forwardsOnly hforwards hrun hstart
    simp only [World.stamp, proxySemantics_perform, perform, Event.mk.injEq,
      heq_eq_eq, true_and] at heq
    split at heq
    · simp at heq
    · simp only [Query.run, Except.ok.injEq] at heq
      rw [← hrules, heq.1]

/-- A snapshot is not taken in the future. -/
theorem snapshot_now_le {w₀ w : World (handle ext config) Shared}
    (run : Run (World.step proxySemantics) Allowed w₀ w)
    (hstart : w₀.events = []) {snapshot : Snapshot} {order time : Nat}
    (hevent : ⟨.postgres .beginSpend, .ok snapshot, order, time⟩ ∈ w.events) :
    snapshot.now ≤ w.shared.now := by
  have hsettled := World.settled
    (P := fun (event : Event Op Reply) (s : Shared) =>
      ∀ snapshot order time,
        event = ⟨.postgres .beginSpend, .ok snapshot, order, time⟩ →
        snapshot.now ≤ s.now) run (by simp [hstart]) ?_ ?_ ?_
  · exact hsettled _ hevent _ _ _ rfl
  · intro event elapsed s h snapshot order time heq
    exact Nat.le_trans (h snapshot order time heq) (Nat.le_add_right _ _)
  · intro event op outcome s h snapshot order time heq
    rw [proxySemantics_perform, perform_now]
    exact h snapshot order time heq
  · intro w index call op next outcome hrest hcall _ snapshot order time heq
    have hop : op = .postgres .beginSpend := congrArg Event.op heq
    subst hop
    simp only [World.stamp, proxySemantics_perform, Event.mk.injEq,
      heq_eq_eq, true_and] at heq
    rw [perform_beginSpend heq.1, proxySemantics_perform, perform_now]

/-- A step leaves the ledger alone, or a reservation within its limit appends
its row. -/
theorem perform_spendLedger (op : Op) (outcome : Outcome) (s : Shared) :
    (perform op outcome s).2.db.spendLedger.rows = s.db.spendLedger.rows ∨
      ∃ (snapshot : Snapshot) (values : SpendValues) (limit? : Option Int)
        (hpos : 0 < values.amount),
        op = .postgres (.insertSpend snapshot values limit?) ∧
        Db.withinLimit snapshot values limit? = .ok true ∧
        (perform op outcome s).2.db.spendLedger.rows =
          s.db.spendLedger.rows ++ [values.row snapshot.now hpos] := by
  by_cases hop : ∃ query, op = .postgres query
  · obtain ⟨query, rfl⟩ := hop
    rcases perform_postgres query outcome s with
      ⟨error, heq⟩ | ⟨answer, db', heq, hchange⟩
    · rw [heq]
      exact Or.inl rfl
    · rw [heq]
      rcases hchange.spendLedger with
        hsame | ⟨snapshot, values, limit?, hpos, hnew, rfl, hwithin, hrows⟩
      · exact Or.inl (congrArg KeyedTable.rows hsame)
      · exact Or.inr ⟨snapshot, values, limit?, hpos, rfl, hwithin,
          congrArg KeyedTable.rows hrows⟩
  · rw [perform_db_of_ne (fun query heq => hop ⟨query, heq⟩)]
    exact Or.inl rfl

/-- The ledger rows of an agent. -/
def ledgerOf (agentId : Uuid) (rows : List LedgerRow) : List LedgerRow :=
  rows.filter fun row => decide (row.agentId = agentId)

/-- A reservation that still sees all rows of its agent keeps the sum within
the limit it checked. -/
theorem spentLast24h_insert_le {agentId : Uuid} {now : Micros} {limit : Int}
    {snapshot : Snapshot} {values : SpendValues} {rows : List LedgerRow}
    {hpos : 0 < values.amount} (hagent : values.agentId = agentId)
    (hwithin : Db.withinLimit snapshot values (some limit) = .ok true)
    (hcurrent : ledgerOf agentId rows = ledgerOf agentId snapshot.rows)
    (hnow : snapshot.now ≤ now) :
    spentLast24h agentId now (rows ++ [values.row snapshot.now hpos]) ≤
      limit := by
  have hsame : spentLast24h agentId now rows =
      spentLast24h agentId now snapshot.rows := by
    unfold ledgerOf at hcurrent
    rw [spentLast24h, hcurrent, ← spentLast24h]
  have hle := Db.withinLimit_le hwithin
  rw [hagent] at hle
  calc spentLast24h agentId now (rows ++ [values.row snapshot.now hpos])
      ≤ spentLast24h agentId now rows + values.amount := by
        have hsnoc := spentLast24h_snoc_le agentId now rows
          (values.row snapshot.now hpos)
        simpa [SpendValues.row, hagent] using hsnoc
    _ = spentLast24h agentId now snapshot.rows + values.amount := by
        rw [hsame]
    _ ≤ spentLast24h agentId snapshot.now snapshot.rows + values.amount :=
        Int.add_le_add_right (spentLast24h_antitone hnow) _
    _ ≤ limit := hle

/-- Only requests to be forwarded arrive, and a reservation for the agent ends
only while the snapshot it began with still shows all the agent's rows: no
other reservation of the agent has committed in between. -/
def CurrentSnapshots (ext : Externals) (config : AppConfig) (agentId : Uuid) :
    World (handle ext config) Shared → Action Request Micros Outcome → Prop
  | _, .arrive request => request.forwards.isSome = true
  | _, .external _ => True
  | w, .advance index _ => ∀ call snapshot values limit?,
      w.calls[index]? = some call →
      call.rest.op? = some (.postgres (.insertSpend snapshot values limit?)) →
      values.agentId = agentId →
      ledgerOf agentId w.shared.db.spendLedger.rows =
        ledgerOf agentId snapshot.rows

/-- Where no two reservations of the agent overlap, its spending of the last 24
hours is within the limit at every point of the run. -/
theorem dailyCap_of_currentSnapshots (s₀ : Shared) {agentId : Uuid}
    {limit : Nat} (hlimit : s₀.db.DailyLimit agentId limit)
    (hstart : spentLast24h agentId s₀.now s₀.db.spendLedger.rows ≤ limit)
    {w : World (handle ext config) Shared}
    (run : Run (World.step proxySemantics)
      (CurrentSnapshots ext config agentId)
      (World.start (handle ext config) s₀) w) :
    spentLast24h agentId w.shared.now w.shared.db.spendLedger.rows ≤
      limit := by
  have hforwards : ForwardsOnly (CurrentSnapshots ext config agentId) :=
    fun _ _ h => h
  refine World.reachable_invariant (I := fun w =>
    spentLast24h agentId w.shared.now w.shared.db.spendLedger.rows ≤ limit)
    run hstart ?_ ?_ ?_
  · intro w request _ h _
    exact h
  · intro w elapsed _ h _
    exact Int.le_trans (spentLast24h_antitone (Nat.le_add_right _ _)) h
  · intro w index call op next outcome hrest hcall hrun h hallowed
    simp only [World.perform, proxySemantics_perform, perform_now]
    rcases perform_spendLedger op outcome w.shared with
      hsame | ⟨snapshot, values, limit?, hpos, rfl, hwithin, hrows⟩
    · rw [hsame]
      exact h
    rw [hrows]
    by_cases hagent : values.agentId = agentId
    · -- a reservation of the agent: its limit and its snapshot
      have hmem : call ∈ w.calls := List.mem_of_getElem? hcall
      obtain ⟨rows, rules, ⟨order, time, hread⟩, hrules, rfl, ⟨order', time',
        hbegin⟩⟩ := insertSpend_of_rest hrest
      have hselected := selectedRules_of_forwardsOnly hforwards hrun rfl
        (World.mem_events hmem hread)
      obtain ⟨active, hactive, hsingle⟩ := hlimit
      rw [hselected, hagent] at hrules
      have hextract : extractDailyLimit rules = some limit := by
        have heq : active = rules := Except.ok.inj (hactive.symm.trans hrules)
        exact extractDailyLimit_of_single (heq ▸ hsingle)
      rw [hextract] at hwithin
      refine spentLast24h_insert_le hagent hwithin ?_ ?_
      · exact hallowed call snapshot values _ hcall (by rw [hrest]; rfl) hagent
      · exact snapshot_now_le hrun (World.events_start s₀)
          (World.mem_events hmem hbegin)
    · have hsnoc := spentLast24h_snoc_le agentId w.shared.now
        w.shared.db.spendLedger.rows (values.row snapshot.now hpos)
      simp only [SpendValues.row, hagent, ↓reduceIte, Int.add_zero] at hsnoc
      exact Int.le_trans hsnoc h

/-- Only requests that name the agent arrive. -/
def ForwardsFor (ext : Externals) (config : AppConfig) (agentId : Uuid) :
    World (handle ext config) Shared → Action Request Micros Outcome → Prop
  | _, .arrive request => request.agent ext = some agentId
  | _, _ => True

namespace Sample

/-- The agent with a daily limit of 100 USDC. -/
def cappedWorld : World (handle externals Sample.config) Shared :=
  world (some (.maxSpendPerDay 100_000_000)) none

theorem cappedWorld_dailyLimit :
    cappedWorld.shared.db.DailyLimit agentId 100_000_000 := by
  refine ⟨[⟨ruleId, agentId, .maxSpendPerDay 100_000_000, true⟩], ?_, ?_⟩
  · rfl
  · intro other
    constructor
    · rintro ⟨rule, hrule, _, htype⟩
      rw [List.mem_singleton] at hrule
      subst hrule
      cases htype
      rfl
    · rintro rfl
      exact ⟨_, List.mem_singleton_self _, rfl, rfl⟩

/-- The ledger is empty when a row is inserted, and was when its statement
began. -/
def insertsFirst (r : Replayed) : Op → Bool
  | .postgres (.insertSpend snapshot _ _) =>
      r.shared.db.spendLedger.rows.isEmpty && snapshot.rows.isEmpty
  | _ => true

end Sample

/-- Two reservations of 60 USDC that both begin before either commits pass a
limit of 100 USDC. -/
theorem dailyCap_overrun :
    Sample.cappedWorld.shared.db.DailyLimit Sample.agentId 100_000_000 ∧
      spentLast24h Sample.agentId Sample.cappedWorld.shared.now
        Sample.cappedWorld.shared.db.spendLedger.rows ≤ 100_000_000 ∧
      ¬ ∀ w, Run (World.step proxySemantics)
          (ForwardsFor Sample.externals Sample.config Sample.agentId)
          Sample.cappedWorld w →
        spentLast24h Sample.agentId w.shared.now
          w.shared.db.spendLedger.rows ≤ 100_000_000 := by
  refine ⟨Sample.cappedWorld_dailyLimit, by decide +kernel, fun h => ?_⟩
  have hrun : ∃ w, Run (World.step proxySemantics)
      (ForwardsFor Sample.externals Sample.config Sample.agentId)
      Sample.cappedWorld w ∧
      spentLast24h Sample.agentId w.toReplay.shared.now
        w.toReplay.shared.db.spendLedger.rows = 120_000_000 ∧
      w.calls.map Call.request =
        [.forwardRequest (Sample.request .first true false),
          .forwardRequest (Sample.request .second true false)] := by
    refine World.exists_run_of_replay (fun r : Sample.Replayed =>
        spentLast24h Sample.agentId r.shared.now r.shared.db.spendLedger.rows)
      (fun _ => Sample.arriving fun request =>
        decide (request.agent Sample.externals = some Sample.agentId)) ?_
      ([.arrive (.forwardRequest (Sample.request .first true false)),
        .arrive (.forwardRequest (Sample.request .second true false))] ++
        (Sample.advance 0 12 ++ (Sample.advance 1 12 ++
          (Sample.advance 0 1 ++ Sample.advance 1 1)))) ?_
    · intro w action hok
      cases action with
      | arrive request =>
          have hagent : request.agent Sample.externals =
            some Sample.agentId := of_decide_eq_true hok
          exact hagent
      | _ => trivial
    · simp only [List.map_append, List.map_cons, List.map_nil,
        Sample.withProgram_forward, Sample.map_advance]
      decide +kernel
  obtain ⟨w, run, hspent, _⟩ := hrun
  have hle := h w run
  rw [show w.shared = w.toReplay.shared from rfl, hspent] at hle
  omega

/-- One reservation of 60 USDC under the same limit. -/
theorem dailyCap_sample : ∃ w,
    Run (World.step proxySemantics)
      (CurrentSnapshots Sample.externals Sample.config Sample.agentId)
      Sample.cappedWorld w ∧
    w.shared.db.spendLedger.rows.length = 1 ∧
    spentLast24h Sample.agentId w.shared.now
      w.shared.db.spendLedger.rows ≤ (100_000_000 : Nat) := by
  have hrun : ∃ w, Run (World.step proxySemantics)
      (CurrentSnapshots Sample.externals Sample.config Sample.agentId)
      Sample.cappedWorld w ∧
      w.toReplay.shared.db.spendLedger.rows.length = 1 ∧
      w.calls.map Call.request =
        [.forwardRequest (Sample.request .first true false)] := by
    refine World.exists_run_of_replay (fun r : Sample.Replayed =>
      r.shared.db.spendLedger.rows.length)
      (fun r action =>
        Sample.arriving (fun request => request.forwards.isSome) action &&
          Sample.performing Sample.insertsFirst r action) ?_
      (.arrive (.forwardRequest (Sample.request .first true false)) ::
        Sample.advance 0 14) ?_
    · intro w action hok
      rw [Bool.and_eq_true] at hok
      cases action with
      | arrive request => exact hok.1
      | external elapsed => trivial
      | advance index outcome =>
          intro call snapshot values limit? hcall hop _
          have hfirst := Sample.allowed_of_performing hok.2 hcall hop
          simp only [Sample.insertsFirst, Bool.and_eq_true,
            List.isEmpty_iff] at hfirst
          obtain ⟨hledger, hsnapshot⟩ := hfirst
          have hledger' : w.shared.db.spendLedger.rows = [] := hledger
          rw [hledger', hsnapshot]
    · simp only [List.map_cons, Sample.withProgram_forward,
        Sample.map_advance]
      decide +kernel
  obtain ⟨w, run, hlength, _⟩ := hrun
  exact ⟨w, run, hlength, dailyCap_of_currentSnapshots _
    Sample.cappedWorld_dailyLimit (by decide +kernel) run⟩

/-- A reservation that records its amount, executed alone, has checked it
against the limit it was given. -/
theorem recordSpendAtomic_solo_le {agentId : Uuid}
    {sessionKeyId : Option Uuid} {amount limit : Nat} {txNonce : String}
    {s s' : Shared}
    (h : (Repo.SpendLedger.recordSpendAtomic agentId sessionKeyId amount
      txNonce (some limit)).Solo proxySemantics s (.ok true) s') :
    spentLast24h agentId s.now s.db.spendLedger.rows + amount ≤ limit := by
  simp only [Repo.SpendLedger.recordSpendAtomic, solo_bind_ok_iff,
    solo_lift_iff, pure_eq_ret, solo_ret_iff, okOr_eq_ok_iff,
    i64TryFrom_eq_some_iff] at h
  obtain ⟨_, _, ⟨⟨_, rfl⟩, rfl⟩, _, _, ⟨⟨_, rfl⟩, rfl⟩, snapshot, t, hbegin,
    affected, t', hinsert, haffected, _⟩ := h
  obtain ⟨outcome, hreply, rfl⟩ := Repo.query_solo_iff.mp hbegin
  rw [mapError_eq_ok_iff] at hreply
  obtain rfl := perform_beginSpend hreply
  obtain ⟨outcome', hreply', rfl⟩ := Repo.query_solo_iff.mp hinsert
  rw [mapError_eq_ok_iff] at hreply'
  have hpos : 0 < affected :=
    of_decide_eq_true (Except.ok.inj haffected).symm
  exact Db.withinLimit_le ((perform_postgres_ok hreply').inserted_within hpos)

section Recorded

variable {outcome : Outcome} {s : Shared} {agentId : Uuid}
variable {sessionKeyId : Option Uuid} {amount : ℕ} {txNonce : String}
variable {dailyLimit : Option ℕ}

/-- A payment of a stored agent, under a stored key if any, with a nonce that
the ledger does not have. -/
structure Db.Reservable (db : Db) (values : SpendValues) : Prop where
  agent : db.agents.HasKey values.agentId
  sessionKey : ∀ id, values.sessionKeyId = some id → db.sessionKeys.HasKey id
  nonce : ¬ db.spendLedger.HasKey values.txNonce
  amount_pos : 0 < values.amount

/-- The database with a row more in the ledger. -/
def Db.reserve (db : Db) (now : Micros) (values : SpendValues)
    (h : db.Reservable values) : Db :=
  { db with spendLedger :=
      db.spendLedger.insert (values.row now h.amount_pos) h.nonce }

theorem Db.insertSpend_within {db : Db} {snapshot : Snapshot}
    {values : SpendValues} {limit? : Option ℤ}
    (hwithin : Db.withinLimit snapshot values limit? = .ok true)
    (h : db.Reservable values) :
    db.insertSpend snapshot values limit? =
      .ok (1, db.reserve snapshot.now values h) := by
  have hkeys : db.agents.HasKey values.agentId ∧
      (values.sessionKeyId.all fun id => db.sessionKeys.HasKey id) = true := by
    refine ⟨h.agent, ?_⟩
    cases hid : values.sessionKeyId with
    | none => rfl
    | some id => exact decide_eq_true (h.sessionKey id hid)
  simp only [Db.insertSpend, hwithin]
  exact (dif_pos h.amount_pos).trans
    ((dif_pos h.nonce).trans (if_pos hkeys))

/-- A reservation whose numbers fit, and whose sum is within the limit, is
recorded. -/
theorem recordSpendAtomic_alone (hfine : outcome.fails = false)
    (h : s.db.Reservable ⟨agentId, sessionKeyId, amount, txNonce⟩)
    (hnonneg : 0 ≤ spentLast24h agentId s.now s.db.spendLedger.rows)
    (hamount : amount < 2 ^ 63)
    (hlimit : ∀ limit, dailyLimit = some limit → limit < 2 ^ 63 ∧
      spentLast24h agentId s.now s.db.spendLedger.rows + amount ≤ limit) :
    (Repo.SpendLedger.recordSpendAtomic agentId sessionKeyId amount txNonce
        dailyLimit).alone proxySemantics outcome s =
      (.ok true, { s with db := s.db.reserve s.now _ h }) := by
  have hi64 : ∀ {n : ℕ} (_ : n < 2 ^ 63), i64TryFrom n = some (n : ℤ) :=
    fun hn => i64TryFrom_eq_some_iff.mpr ⟨hn, rfl⟩
  have hbegin : Query.beginSpend.run s.now outcome.freshId s.db =
      .ok (⟨s.db.spendLedger.rows, s.now⟩, s.db) := rfl
  cases dailyLimit with
  | none =>
      have hinsert : (Query.insertSpend ⟨s.db.spendLedger.rows, s.now⟩
          ⟨agentId, sessionKeyId, amount, txNonce⟩ none).run s.now
          outcome.freshId s.db = .ok (1, s.db.reserve s.now _ h) :=
        Db.insertSpend_within rfl h
      simp only [Repo.SpendLedger.recordSpendAtomic, hi64 hamount, okOr,
        lift_ok, ret_bind, alone_bind, Repo.query_alone_of_ok hfine hbegin,
        Repo.query_alone_of_ok hfine hinsert]
      rfl
  | some limit =>
      obtain ⟨hrange, hle⟩ := hlimit limit rfl
      have hwithin : Db.withinLimit ⟨s.db.spendLedger.rows, s.now⟩
          ⟨agentId, sessionKeyId, amount, txNonce⟩ (some limit) =
          .ok true := by
        simp only [Db.withinLimit, except_bind_eq_ok, bigint_eq_ok_iff]
        refine ⟨_, ⟨by omega, rfl⟩, _, ⟨by omega, rfl⟩, ?_⟩
        exact congrArg Except.ok (decide_eq_true hle)
      have hinsert : (Query.insertSpend ⟨s.db.spendLedger.rows, s.now⟩
          ⟨agentId, sessionKeyId, amount, txNonce⟩ (some limit)).run s.now
          outcome.freshId s.db = .ok (1, s.db.reserve s.now _ h) :=
        Db.insertSpend_within hwithin h
      simp only [Repo.SpendLedger.recordSpendAtomic, hi64 hamount,
        hi64 hrange, okOr, lift_ok, ret_bind, alone_bind,
        Repo.query_alone_of_ok hfine hbegin,
        Repo.query_alone_of_ok hfine hinsert]
      rfl

end Recorded

/-- A first reservation of at most its limit is recorded. -/
theorem recordSpendAtomic_solo_records (agentId : Uuid) (txNonce : String)
    (s : Shared) {amount limit : Nat} (hagent : s.db.agents.HasKey agentId)
    (hledger : s.db.spendLedger.rows = []) (hpos : 0 < amount)
    (hle : amount ≤ limit) (hrange : limit < 2 ^ 63) :
    ∃ s', (Repo.SpendLedger.recordSpendAtomic agentId none amount txNonce
      (some limit)).Solo proxySemantics s (.ok true) s' := by
  have hzero : spentLast24h agentId s.now s.db.spendLedger.rows = 0 := by
    rw [hledger]
    rfl
  have h : s.db.Reservable ⟨agentId, none, amount, txNonce⟩ := {
    agent := hagent
    sessionKey := by simp
    nonce := by simp [KeyedTable.HasKey, hledger]
    amount_pos := Int.natCast_pos.mpr hpos }
  let outcome : Outcome := ⟨false, 0, .noResponse ""⟩
  have hlimit : ∀ limit', some limit = some limit' → limit' < 2 ^ 63 ∧
      spentLast24h agentId s.now s.db.spendLedger.rows + amount ≤ limit' := by
    rintro _ ⟨⟩
    exact ⟨hrange, by omega⟩
  have hfine : outcome.fails = false := rfl
  have hrecorded := recordSpendAtomic_alone hfine h hzero.ge
    (hle.trans_lt hrange) hlimit
  exact ⟨_, hrecorded ▸ solo_alone outcome _ s⟩

/-- The daily limit the reservation takes from the rules, alone, keeps every
daily rule exactly when the first active one is the strictest. -/
theorem reservation_keeps_dailyLimits_iff {rules : List GuardrailRule}
    (hrange : ∀ limit, HasDailyLimit rules limit → limit < 2 ^ 63) :
    (∀ (s s' : Shared) agentId sessionKeyId (amount : Nat) txNonce,
      0 < amount →
      (Repo.SpendLedger.recordSpendAtomic agentId sessionKeyId amount txNonce
        (extractDailyLimit rules)).Solo proxySemantics s (.ok true) s' →
      ∀ limit, HasDailyLimit rules limit →
        spentLast24h agentId s.now s.db.spendLedger.rows + amount ≤ limit) ↔
      ∀ first, FirstDailyLimit rules first →
        ∀ limit, HasDailyLimit rules limit → first ≤ limit := by
  constructor
  · intro h first hfirst limit hlimit
    by_cases hpos : 0 < first
    · have hrecorded : ∃ s', (Repo.SpendLedger.recordSpendAtomic
          Sample.agentId none first "" (some first)).Solo proxySemantics
          (Shared.start 0 (Sample.db none none)) (.ok true) s' :=
        recordSpendAtomic_solo_records _ _ _ (Sample.hasKey_agentId _ _) rfl
          hpos (Nat.le_refl first) (hrange first hfirst.hasDailyLimit)
      obtain ⟨s', hsolo⟩ := hrecorded
      rw [← extractDailyLimit_eq_some_iff.mpr hfirst] at hsolo
      have hle := h _ s' _ _ first _ hpos hsolo limit hlimit
      have hzero : spentLast24h Sample.agentId 0 [] = 0 := rfl
      simp only [Shared.start, Sample.db, KeyedTable.empty, hzero] at hle
      omega
    · omega
  · intro h s s' agentId sessionKeyId amount txNonce hpos hsolo limit hlimit
    cases hfirst : extractDailyLimit rules with
    | none =>
        exact absurd hlimit (extractDailyLimit_eq_none_iff.mp hfirst limit)
    | some first =>
        rw [hfirst] at hsolo
        have hrecorded := recordSpendAtomic_solo_le hsolo
        have hle :=
          h first (extractDailyLimit_eq_some_iff.mp hfirst) limit hlimit
        omega

/-- Active daily rules with the given limits, in this order. -/
def Sample.dailyRules (limits : List Nat) : List GuardrailRule :=
  limits.map fun limit => ⟨ruleId, agentId, .maxSpendPerDay limit, true⟩

theorem Sample.hasDailyLimit_dailyRules {limits : List Nat} {limit : Nat} :
    HasDailyLimit (Sample.dailyRules limits) limit ↔ limit ∈ limits := by
  constructor
  · rintro ⟨rule, hrule, _, htype⟩
    obtain ⟨other, hother, rfl⟩ := List.mem_map.mp hrule
    cases htype
    exact hother
  · intro h
    exact ⟨_, List.mem_map.mpr ⟨limit, h, rfl⟩, rfl, rfl⟩

/-- Rules in ascending order are all kept. -/
theorem reservation_keeps_dailyLimits_sample :
    extractDailyLimit (Sample.dailyRules [50, 100]) = some 50 ∧
      ∀ (s s' : Shared) agentId sessionKeyId (amount : Nat) txNonce,
        0 < amount →
        (Repo.SpendLedger.recordSpendAtomic agentId sessionKeyId amount txNonce
          (extractDailyLimit (Sample.dailyRules [50, 100]))).Solo
          proxySemantics s (.ok true) s' →
        ∀ limit, HasDailyLimit (Sample.dailyRules [50, 100]) limit →
          spentLast24h agentId s.now s.db.spendLedger.rows + amount ≤
            limit := by
  have hrange : ∀ limit, HasDailyLimit (Sample.dailyRules [50, 100]) limit →
      limit < 2 ^ 63 := by
    intro limit hlimit
    have hmem := Sample.hasDailyLimit_dailyRules.mp hlimit
    simp only [List.mem_cons, List.not_mem_nil, or_false] at hmem
    omega
  refine ⟨rfl, (reservation_keeps_dailyLimits_iff hrange).mpr ?_⟩
  intro first hfirst limit hlimit
  have hmem := Sample.hasDailyLimit_dailyRules.mp hlimit
  simp only [List.mem_cons, List.not_mem_nil, or_false] at hmem
  obtain rfl : 50 = first :=
    Option.some.inj (extractDailyLimit_eq_some_iff.mpr hfirst)
  omega

/-- With limits of 100 and then 50, a payment of 60 is recorded. -/
theorem reservation_breaks_second_dailyLimit :
    ¬ ∀ (s s' : Shared) agentId sessionKeyId (amount : Nat) txNonce,
      0 < amount →
      (Repo.SpendLedger.recordSpendAtomic agentId sessionKeyId amount txNonce
        (extractDailyLimit (Sample.dailyRules [100, 50]))).Solo
        proxySemantics s (.ok true) s' →
      ∀ limit, HasDailyLimit (Sample.dailyRules [100, 50]) limit →
        spentLast24h agentId s.now s.db.spendLedger.rows + amount ≤
          limit := by
  intro h
  have hrecorded : ∃ s', (Repo.SpendLedger.recordSpendAtomic Sample.agentId
      none 60 "" (some 100)).Solo proxySemantics
      (Shared.start 0 (Sample.db none none)) (.ok true) s' :=
    recordSpendAtomic_solo_records _ _ _ (Sample.hasKey_agentId _ _) rfl
      (by omega) (by omega) (by omega)
  obtain ⟨s', hsolo⟩ := hrecorded
  have hle := h _ s' _ _ 60 _ (by omega) hsolo 50
    (Sample.hasDailyLimit_dailyRules.mpr (by simp))
  have hzero : spentLast24h Sample.agentId 0 [] = 0 := rfl
  simp only [Shared.start, Sample.db, KeyedTable.empty, hzero] at hle
  omega

end X402Guard

/-
The ledger behind the payments that went out: every request forwarded for an
agent has a row of its own, at every moment of every run.
-/
import X402Guard.ReplayWindow

namespace X402Guard

open Interaction Prog

variable {ext : Externals} {config : AppConfig}
variable {Allowed : World (handle ext config) Shared →
  Action Request Micros Outcome → Prop}

/-- The values of the ledger row that an event inserted, if it inserted one. -/
def inserted? : Event Op Reply → Option SpendValues
  | ⟨.postgres (.insertSpend _ values _), .ok affected, _, _⟩ =>
      if affected = 1 then some values else none
  | _ => none

/-- The ledger grows by the row an event inserts, and by nothing else. -/
theorem perform_inserted (op : Op) (outcome : Outcome) (s : Shared)
    (order time : Nat) :
    (inserted? ⟨op, (perform op outcome s).1, order, time⟩ = none ∧
        (perform op outcome s).2.db.spendLedger = s.db.spendLedger) ∨
      ∃ values createdAt hpos hnew,
        inserted? ⟨op, (perform op outcome s).1, order, time⟩ =
          some values ∧
        (perform op outcome s).2.db.spendLedger =
          s.db.spendLedger.insert (values.row createdAt hpos) hnew := by
  by_cases hop : ∃ query, op = .postgres query
  · obtain ⟨query, rfl⟩ := hop
    rcases perform_postgres query outcome s with
      ⟨error, heq⟩ | ⟨answer, db', heq, hchange⟩
    · rw [heq]
      exact Or.inl ⟨by cases query <;> rfl, rfl⟩
    · rw [heq]
      cases hchange with
      | inserted snapshot values limit? hwithin hpos hnew =>
          exact Or.inr ⟨values, snapshot.now, hpos, hnew, rfl, rfl⟩
      | read _ hreads =>
          left
          cases query with
          | insertSpend => exact hreads.elim
          | _ => exact ⟨rfl, rfl⟩
      | rulesWritten _ hwrites =>
          left
          cases query with
          | insertSpend => exact hwrites.elim
          | _ => exact ⟨rfl, rfl⟩
      | _ => exact Or.inl ⟨rfl, rfl⟩
  · rw [perform_db_of_ne (fun query heq => hop ⟨query, heq⟩)]
    left
    cases op with
    | postgres query => exact absurd ⟨query, rfl⟩ hop
    | _ => exact ⟨rfl, rfl⟩

/-- The row that the event inserted is in the ledger. -/
def RowKept (event : Event Op Reply) (db : Db) : Prop :=
  ∀ values, inserted? event = some values → ∃ createdAt hpos,
    db.spendLedger.find? values.txNonce = some (values.row createdAt hpos)

/-- Rows stay in the ledger. -/
theorem rows_kept {w₀ w : World (handle ext config) Shared}
    (run : Run (World.step proxySemantics) Allowed w₀ w)
    (hstart : w₀.events = []) :
    ∀ event ∈ w.events, RowKept event w.shared.db := by
  refine World.settled (P := fun (event : Event Op Reply) (s : Shared) =>
    RowKept event s.db) run ?_ ?_ ?_ ?_
  · simp [hstart]
  · intro event elapsed s h
    exact h
  · intro event op outcome s h values hvalues
    obtain ⟨createdAt, hpos, hfound⟩ := h values hvalues
    refine ⟨createdAt, hpos, ?_⟩
    rw [proxySemantics_perform]
    rcases perform_inserted op outcome s 0 0 with
      ⟨_, hsame⟩ | ⟨_, _, _, hnew, _, hrows⟩
    · rw [hsame]
      exact hfound
    · rw [hrows]
      exact KeyedTable.find?_insert_of_find? hnew hfound
  · intro w index call op next outcome _ _ _ values hvalues
    rw [proxySemantics_perform]
    rcases perform_inserted op outcome w.shared w.steps w.shared.now with
      ⟨hnone, _⟩ | ⟨values', createdAt, hpos, hnew, hsome, hrows⟩
    · rw [World.stamp, proxySemantics_perform, proxySemantics_clock, hnone]
        at hvalues
      cases hvalues
    · rw [World.stamp, proxySemantics_perform, proxySemantics_clock, hsome]
        at hvalues
      obtain rfl := Option.some.inj hvalues
      refine ⟨createdAt, hpos, ?_⟩
      rw [hrows, KeyedTable.find?_insert]
      exact if_pos rfl

/-- All amounts in the ledger of an agent. -/
def Db.ledgerTotal (db : Db) (agentId : Uuid) : Int :=
  db.spendLedger.sumOf fun row =>
    if row.agentId = agentId then row.amount else 0

/-- What the row that an event inserted reserves for an agent. -/
def reservedFor (agentId : Uuid) (event : Event Op Reply) : Int :=
  ((inserted? event).map fun values =>
    if values.agentId = agentId then values.amount else 0).getD 0

theorem perform_ledgerTotal (agentId : Uuid) (op : Op) (outcome : Outcome)
    (s : Shared) (order time : Nat) :
    (perform op outcome s).2.db.ledgerTotal agentId =
      s.db.ledgerTotal agentId +
        reservedFor agentId ⟨op, (perform op outcome s).1, order, time⟩ := by
  unfold Db.ledgerTotal reservedFor
  rcases perform_inserted op outcome s order time with
    ⟨hnone, hsame⟩ | ⟨values, createdAt, hpos, hnew, hsome, hrows⟩
  · rw [hnone, hsame]
    exact (Int.add_zero _).symm
  · rw [hsome, hrows, KeyedTable.sumOf_insert]
    rfl

/-- The ledger of an agent is what it was plus all its reservations. -/
theorem ledgerTotal_eq {w₀ w : World (handle ext config) Shared}
    (run : Run (World.step proxySemantics) Allowed w₀ w)
    (hstart : w₀.events = []) (agentId : Uuid) :
    w.shared.db.ledgerTotal agentId =
      w₀.shared.db.ledgerTotal agentId + w.total (reservedFor agentId) :=
  World.accounting (fun s : Shared => s.db.ledgerTotal agentId)
    (reservedFor agentId) run hstart (fun _ _ => rfl)
    fun op outcome s order =>
      perform_ledgerTotal agentId op outcome s order s.now

theorem Db.ledgerTotal_nonneg (db : Db) (agentId : Uuid) :
    0 ≤ db.ledgerTotal agentId := by
  apply List.sum_nonneg
  intro amount hamount
  obtain ⟨row, _, rfl⟩ := List.mem_map.mp hamount
  split
  · exact Int.le_of_lt row.amount_pos
  · exact Int.le_refl 0

theorem reservedFor_nonneg {agentId : Uuid} {event : Event Op Reply} {db : Db}
    (h : RowKept event db) : 0 ≤ reservedFor agentId event := by
  unfold reservedFor
  cases hvalues : inserted? event with
  | none => exact Int.le_refl 0
  | some values =>
      obtain ⟨_, hpos, _⟩ := h values hvalues
      rw [Option.map_some, Option.getD_some]
      split
      · exact Int.le_of_lt hpos
      · exact Int.le_refl 0

/-- The nonce of the authorization that a request carries. -/
def Request.nonce (ext : Externals) (request : Request) : Option Bytes32 :=
  (request.authorization ext).map Prod.snd

/-- The row reserves what the request pays, for its agent and under its
nonce. -/
structure LedgerRow.Backs (ext : Externals) (row : LedgerRow)
    (request : Request) : Prop where
  agent : request.agent ext = some row.agentId
  nonce : (request.nonce ext).map (fun nonce => hexEncode nonce.bytes) =
    some row.txNonce
  amount : row.amount = request.amount ext

/-- The call at the index was forwarded for an agent. -/
def ForwardedForAgent (w : World (handle ext config) Shared) (i : ℕ) : Prop :=
  ∃ call, w.calls[i]? = some call ∧ forwarded call = true ∧
    (call.request.agent ext).isSome = true

/-- How often requests with the nonce have been sent for an agent. -/
def timesSentForAgents (nonce : Bytes32)
    (w : World (handle ext config) Shared) : Nat :=
  (w.calls.map fun call =>
    if (call.request.agent ext).isSome = true ∧
        call.request.nonce ext = some nonce then
      call.trace.countP sent
    else 0).sum

/-- The calls forwarded for agents have rows of their own in the ledger, so no
agent has forwarded more than its ledger says, and no nonce was sent twice. -/
structure LedgerBacked (w : World (handle ext config) Shared) : Prop where
  rows : ∃ row : {i // ForwardedForAgent w i} → LedgerRow,
    Function.Injective row ∧ ∀ i, row i ∈ w.shared.db.spendLedger.rows ∧
      ∀ call, w.calls[i.1]? = some call → (row i).Backs ext call.request
  totals : ∀ agentId,
    forwardedAmount (fun request => request.agent ext = some agentId) w ≤
      w.shared.db.ledgerTotal agentId
  once : ∀ nonce, timesSentForAgents nonce w ≤ 1

/-- The event by which a forwarded call inserted its row, and the row. -/
theorem row_of_forwarded {w₀ w : World (handle ext config) Shared}
    (run : Run (World.step proxySemantics) Allowed w₀ w)
    (hstart : w₀.events = []) {call : Call (handle ext config)}
    (hcall : call ∈ w.calls) (hforwarded : forwarded call = true)
    (hagent : (call.request.agent ext).isSome = true) :
    ∃ row ∈ w.shared.db.spendLedger.rows, row.Backs ext call.request ∧
      (∀ nonce, call.request.nonce ext = some nonce →
        ∃ event ∈ call.trace, inserts nonce event = true) ∧
      ∃ event ∈ call.trace,
        reservedFor row.agentId event = call.request.amount ext := by
  obtain ⟨agentId, hagent⟩ := Option.isSome_iff_exists.mp hagent
  have hreplies := replies_sound run hstart
  obtain ⟨auth, snapshot, limit?, order, time, hauth, hinserted⟩ :=
    inserted_of_forwarded hagent
      (fun event hevent => hreplies event (World.mem_events hcall hevent))
      hforwarded
  obtain ⟨createdAt, hpos, hfound⟩ := rows_kept run hstart _
    (World.mem_events hcall hinserted) _ rfl
  refine ⟨_, (KeyedTable.find?_eq_some_iff.mp hfound).1, ⟨hagent, ?_, rfl⟩,
    ?_, _, hinserted, ?_⟩
  · simp [Request.nonce, hauth, SpendValues.row]
  · intro nonce hnonce
    refine ⟨_, hinserted, ?_⟩
    rw [Request.nonce, hauth, Option.map_some, Option.some.injEq] at hnonce
    simp [inserts, hnonce]
  · simp [reservedFor, inserted?, SpendValues.row]

theorem inserts_congr {first second : Bytes32} {event : Event Op Reply}
    (hsame : hexEncode first.bytes = hexEncode second.bytes)
    (h : inserts second event = true) : inserts first event = true := by
  unfold inserts at h ⊢
  rw [hsame]
  exact h

/-- Two calls forwarded for agents under one nonce are the same call. -/
theorem index_eq_of_nonce {w₀ w : World (handle ext config) Shared}
    (run : Run (World.step proxySemantics) Allowed w₀ w)
    (hstart : w₀.events = []) {i j : Nat}
    {first second : Call (handle ext config)} {nonce nonce' : Bytes32}
    (hi : w.calls[i]? = some first) (hj : w.calls[j]? = some second)
    (hforwarded : forwarded first = true) (hforwarded' : forwarded second = true)
    (hagent : (first.request.agent ext).isSome = true)
    (hagent' : (second.request.agent ext).isSome = true)
    (hnonce : first.request.nonce ext = some nonce)
    (hnonce' : second.request.nonce ext = some nonce')
    (hsame : hexEncode nonce.bytes = hexEncode nonce'.bytes) : i = j := by
  obtain ⟨_, _, _, hinserts, _⟩ := row_of_forwarded run hstart
    (List.mem_of_getElem? hi) hforwarded hagent
  obtain ⟨_, _, _, hinserts', _⟩ := row_of_forwarded run hstart
    (List.mem_of_getElem? hj) hforwarded' hagent'
  obtain ⟨event, hevent, hinserted⟩ := hinserts' nonce' hnonce'
  exact World.index_eq_of_count_le_one (inserts_count run hstart nonce) hi hj
    (hinserts nonce hnonce) ⟨event, hevent, inserts_congr hsame hinserted⟩

theorem rows_backed {w₀ w : World (handle ext config) Shared}
    (run : Run (World.step proxySemantics) Allowed w₀ w)
    (hstart : w₀.events = []) :
    ∃ row : {i // ForwardedForAgent w i} → LedgerRow,
      Function.Injective row ∧ ∀ i, row i ∈ w.shared.db.spendLedger.rows ∧
        ∀ call, w.calls[i.1]? = some call →
          (row i).Backs ext call.request := by
  have hrow : ∀ i : {i // ForwardedForAgent w i},
      ∃ row ∈ w.shared.db.spendLedger.rows, ∀ call,
        w.calls[i.1]? = some call → row.Backs ext call.request := by
    rintro ⟨i, call, hcall, hforwarded, hagent⟩
    obtain ⟨row, hmem, hbacks, _⟩ := row_of_forwarded run hstart
      (List.mem_of_getElem? hcall) hforwarded hagent
    refine ⟨row, hmem, ?_⟩
    intro call' hcall'
    rw [hcall] at hcall'
    rwa [← Option.some.inj hcall']
  choose row hmem hbacks using hrow
  refine ⟨row, ?_, fun i => ⟨hmem i, hbacks i⟩⟩
  intro i j hsame
  obtain ⟨first, hi, hforwarded, hagent⟩ := i.2
  obtain ⟨second, hj, hforwarded', hagent'⟩ := j.2
  obtain ⟨nonce, hnonce, hrow⟩ :=
    Option.map_eq_some_iff.mp (hbacks i first hi).nonce
  obtain ⟨nonce', hnonce', hrow'⟩ :=
    Option.map_eq_some_iff.mp (hbacks j second hj).nonce
  apply Subtype.ext
  apply index_eq_of_nonce run hstart hi hj hforwarded hforwarded' hagent
    hagent' hnonce hnonce'
  rw [hrow, hrow', hsame]

/-- What was forwarded for an agent was reserved for it. -/
theorem forwardedAmount_le_ledgerTotal
    {w₀ w : World (handle ext config) Shared}
    (run : Run (World.step proxySemantics) Allowed w₀ w)
    (hstart : w₀.events = []) (agentId : Uuid) :
    forwardedAmount (fun request => request.agent ext = some agentId) w ≤
      w.shared.db.ledgerTotal agentId := by
  have hkept := rows_kept run hstart
  have hreserved : forwardedAmount
      (fun request => request.agent ext = some agentId) w ≤
        w.total (reservedFor agentId) := by
    apply World.sum_calls_le_total
    intro call hcall
    have hnonneg : ∀ amount ∈ call.trace.map (reservedFor agentId),
        0 ≤ amount := by
      intro amount hamount
      obtain ⟨event, hevent, rfl⟩ := List.mem_map.mp hamount
      exact reservedFor_nonneg (hkept event (World.mem_events hcall hevent))
    split
    · rename_i hforwarded
      obtain ⟨row, _, hbacks, _, event, hevent, hamount⟩ :=
        row_of_forwarded run hstart hcall hforwarded.1
          (by rw [hforwarded.2]; rfl)
      have hsame : row.agentId = agentId := by
        have hagent := hbacks.agent
        rw [hforwarded.2] at hagent
        exact (Option.some.inj hagent).symm
      rw [hsame] at hamount
      rw [← hamount]
      exact List.single_le_sum hnonneg _ (List.mem_map_of_mem hevent)
    · exact List.sum_nonneg hnonneg
  have htotal := ledgerTotal_eq run hstart agentId
  have hbefore := w₀.shared.db.ledgerTotal_nonneg agentId
  omega

theorem timesSentForAgents_le_one {w₀ w : World (handle ext config) Shared}
    (run : Run (World.step proxySemantics) Allowed w₀ w)
    (hstart : w₀.events = []) (nonce : Bytes32) :
    timesSentForAgents nonce w ≤ 1 := by
  have hcounts : ∀ call : Call (handle ext config), 0 < (if
      (call.request.agent ext).isSome = true ∧
        call.request.nonce ext = some nonce then call.trace.countP sent
      else 0) →
      forwarded call = true ∧ (call.request.agent ext).isSome = true ∧
        call.request.nonce ext = some nonce := by
    intro call hpos
    split at hpos
    · rename_i hnames
      exact ⟨forwarded_iff.mpr (List.countP_pos_iff.mp hpos), hnames⟩
    · omega
  apply sum_map_le_one
  · intro call _
    split
    · exact sent_count call
    · exact Nat.zero_le 1
  · intro i j first second hi hj hfirst hsecond
    obtain ⟨hforwarded, hagent, hnonce⟩ := hcounts first hfirst
    obtain ⟨hforwarded', hagent', hnonce'⟩ := hcounts second hsecond
    exact index_eq_of_nonce run hstart hi hj hforwarded hforwarded' hagent
      hagent' hnonce hnonce' rfl

/-- However calls of any kind overlap, what was forwarded for agents is backed
by the ledger. -/
theorem ledgerBacked (s₀ : Shared) {w : World (handle ext config) Shared}
    (run : Run (World.step proxySemantics) always
      (World.start (handle ext config) s₀) w) : LedgerBacked w where
  rows := rows_backed run (World.events_start s₀)
  totals := forwardedAmount_le_ledgerTotal run (World.events_start s₀)
  once := timesSentForAgents_le_one run (World.events_start s₀)

/-- Two payments of one agent, and one of them again. -/
theorem ledgerBacked_sample : ∃ w,
    Run (World.step proxySemantics) always (Sample.world none none) w ∧
    w.calls.map forwarded = [true, true, false] ∧
    w.shared.db.ledgerTotal Sample.agentId = 120_000_000 ∧
    LedgerBacked w := by
  have hrun : ∃ w, Run (World.step proxySemantics) always
      (Sample.world none none) w ∧
      (Sample.sentFlags w.toReplay,
        w.toReplay.shared.db.ledgerTotal Sample.agentId) =
          ([true, true, false], 120_000_000) ∧
      w.calls.map Call.request =
        [.forwardRequest (Sample.request .first true false),
          .forwardRequest (Sample.request .second true false),
          .forwardRequest (Sample.request .first true false)] := by
    refine World.exists_run_of_replay (fun r => (Sample.sentFlags r,
      r.shared.db.ledgerTotal Sample.agentId))
      (fun _ _ => true) (fun _ _ _ => trivial)
      ([.arrive (.forwardRequest (Sample.request .first true false)),
        .arrive (.forwardRequest (Sample.request .second true false)),
        .arrive (.forwardRequest (Sample.request .first true false))] ++
        (Sample.advance 0 12 ++ (Sample.advance 1 14 ++
          (Sample.advance 0 2 ++ Sample.advance 2 5)))) ?_
    simp only [List.map_append, List.map_cons, List.map_nil,
      Sample.withProgram_forward, Sample.map_advance]
    decide
  obtain ⟨w, run, hseen, _⟩ := hrun
  rw [Sample.sentFlags_toReplay, Prod.mk.injEq] at hseen
  exact ⟨w, run, hseen.1, hseen.2, ledgerBacked _ run⟩

end X402Guard

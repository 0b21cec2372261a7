/-
The PostgreSQL database behind the repositories, at READ COMMITTED.  A query
runs against the latest committed rows in one step, with two exceptions: an
INSERT into the ledger first takes its snapshot and commits later, and the
writes of an explicit transaction take effect when it commits.  Row locks are
not modelled, which only adds orders in which the steps can happen.
-/
import X402Guard.KeyedTable
import X402Guard.SlidingWindow
import X402Guard.SessionKeyRules
import Mathlib.Algebra.Order.Group.Int

namespace X402Guard

inductive DbError
  | connection
  | outOfRange
  | checkViolation
  | uniqueViolation
  | foreignKeyViolation
deriving DecidableEq, Repr

def DbError.toString : DbError → String
  | .connection => "error communicating with database"
  | .outOfRange => "bigint out of range"
  | .checkViolation => "new row violates check constraint"
  | .uniqueViolation => "duplicate key value violates unique constraint"
  | .foreignKeyViolation => "insert or update violates foreign key constraint"

/-- A row of `spend_ledger`. -/
structure LedgerRow where
  agentId : Uuid
  sessionKeyId : Option Uuid
  amount : Int
  txNonce : String
  createdAt : Micros
  amount_pos : 0 < amount

/-- The database: `agents` and `session_keys` under their ids, the ledger under
the unique `tx_nonce`. -/
structure Db where
  agents : KeyedTable Agent Agent.id
  guardrailRules : KeyedTable GuardrailRow GuardrailRow.id
  sessionKeys : KeyedTable SessionKeyRow SessionKeyRow.id
  spendLedger : KeyedTable LedgerRow LedgerRow.txNonce

def Db.empty : Db := ⟨.empty, .empty, .empty, .empty⟩

/-- `interval '24 hours'`. -/
def dayMicros : Micros := 24 * 60 * 60 * microsPerSecond

/-- A value in the range of `BIGINT`, or PostgreSQL's error. -/
def bigint (n : Int) : Except DbError Int :=
  if -2 ^ 63 ≤ n ∧ n < 2 ^ 63 then .ok n else .error .outOfRange

@[simp] theorem bigint_eq_ok_iff {n m : Int} :
    bigint n = .ok m ↔ (-2 ^ 63 ≤ n ∧ n < 2 ^ 63) ∧ m = n := by
  unfold bigint
  split
  · simp_all [eq_comm]
  · simp_all

/-- The amounts of an agent dated in the 24 hours before `now`. -/
def spentLast24h (agentId : Uuid) (now : Micros) (rows : List LedgerRow) :
    Int :=
  SlidingWindow.recentSum LedgerRow.createdAt dayMicros LedgerRow.amount now
    (rows.filter fun row => decide (row.agentId = agentId))

/-- As time passes the sum can only shrink. -/
theorem spentLast24h_antitone {agentId : Uuid} {now later : Micros}
    {rows : List LedgerRow} (h : now ≤ later) :
    spentLast24h agentId later rows ≤ spentLast24h agentId now rows :=
  SlidingWindow.recentSum_antitone _ _
    (fun row _ => Int.le_of_lt row.amount_pos) h

/-- A new row adds at most its amount, to the sum of its own agent only. -/
theorem spentLast24h_snoc_le (agentId : Uuid) (now : Micros)
    (rows : List LedgerRow) (row : LedgerRow) :
    spentLast24h agentId now (rows ++ [row]) ≤
      spentLast24h agentId now rows +
        if row.agentId = agentId then row.amount else 0 := by
  unfold spentLast24h
  rw [List.filter_append]
  by_cases h : row.agentId = agentId
  · rw [List.filter_cons_of_pos (by simp [h]), List.filter_nil, if_pos h]
    exact SlidingWindow.recentSum_snoc_le _ _ (Int.le_of_lt row.amount_pos)
  · rw [List.filter_cons_of_neg (by simp [h]), List.filter_nil, if_neg h,
      List.append_nil, Int.add_zero]

/-- The values of an INSERT into `spend_ledger`. -/
structure SpendValues where
  agentId : Uuid
  sessionKeyId : Option Uuid
  amount : Int
  txNonce : String
deriving DecidableEq, Repr

/-- The row they become. -/
def SpendValues.row (values : SpendValues) (createdAt : Micros)
    (amount_pos : 0 < values.amount) : LedgerRow where
  agentId := values.agentId
  sessionKeyId := values.sessionKeyId
  amount := values.amount
  txNonce := values.txNonce
  createdAt := createdAt
  amount_pos := amount_pos

/-- What a statement sees: the ledger rows committed before it began, and its
`now()`. -/
structure Snapshot where
  rows : List LedgerRow
  now : Micros

/-- The pending writes of an open transaction. -/
structure Tx where
  revokedKeys : List Uuid
  deactivatedAgents : List Uuid
deriving DecidableEq, Repr

inductive Query
  | insertAgent (name ownerAddress : String)
  | selectAgent (id : Uuid)
  | insertRule (agentId : Uuid) (ruleType : String) (ruleParams : Value)
  | selectActiveRules (agentId : Uuid)
  | updateRule (id agentId : Uuid) (ruleType : String) (ruleParams : Value)
      (isActive : Bool)
  | deactivateRule (id agentId : Uuid)
  | insertSessionKey (agentId : Uuid) (publicKey : String) (maxSpend : Int)
      (allowedContracts : Value) (expiresAt : Int)
  | selectSessionKey (id : Uuid)
  | incrementSpent (id : Uuid) (amount : Int)
  | revokeSessionKey (id agentId : Uuid)
  | begin
  | revokeAllInTx (tx : Tx) (agentId : Uuid)
  | deactivateInTx (tx : Tx) (agentId : Uuid)
  | commit (tx : Tx)
  | sumLast24h (agentId : Uuid)
  /-- An INSERT into the ledger begins. -/
  | beginSpend
  /-- It ends: the condition, if any, is that the 24 hour sum of the snapshot
  and the new amount are within the limit. -/
  | insertSpend (snapshot : Snapshot) (values : SpendValues)
      (limit? : Option Int)

namespace Query

/-- The type of a query's result; a count is the number of rows affected. -/
@[reducible] def Answer : Query → Type
  | .insertAgent .. => Agent
  | .selectAgent _ => Option Agent
  | .insertRule .. => GuardrailRow
  | .selectActiveRules _ => List GuardrailRow
  | .updateRule .. => Option GuardrailRow
  | .deactivateRule .. => Nat
  | .insertSessionKey .. => SessionKeyRow
  | .selectSessionKey _ => Option SessionKeyRow
  | .incrementSpent .. => Nat
  | .revokeSessionKey .. => Nat
  | .begin => Tx
  | .revokeAllInTx .. => Nat × Tx
  | .deactivateInTx .. => Nat × Tx
  | .commit _ => Unit
  | .sumLast24h _ => Int
  | .beginSpend => Snapshot
  | .insertSpend .. => Nat

end Query

/-- `spent + $2`, for a key that is not revoked and stays within its limit. -/
def SessionKeyRow.charge (row : SessionKeyRow) (amount : Int) :
    Except DbError (Option SessionKeyRow) :=
  if row.isRevoked then .ok none
  else do
    let spent ← bigint (row.spent + amount)
    if hle : spent ≤ row.maxSpend then
      if hnonneg : 0 ≤ spent then
        .ok (some { row with
          spent
          spent_nonneg := hnonneg
          spent_within_limit := hle })
      else .error .checkViolation
    else .ok none

namespace Db

variable (now : Micros) (freshId : Uuid) (db : Db)

def insertAgent (name ownerAddress : String) : Except DbError (Agent × Db) :=
  let agent : Agent := ⟨freshId, name, ownerAddress, true⟩
  if hnew : ¬ db.agents.HasKey agent.id then
    if ∃ other ∈ db.agents.rows, other.ownerAddress = ownerAddress then
      .error .uniqueViolation
    else .ok (agent, { db with agents := db.agents.insert agent hnew })
  else .error .uniqueViolation

def insertRule (agentId : Uuid) (ruleType : String) (ruleParams : Value) :
    Except DbError (GuardrailRow × Db) :=
  let row : GuardrailRow := ⟨freshId, agentId, ruleType, ruleParams, true⟩
  if hnew : ¬ db.guardrailRules.HasKey row.id then
    if db.agents.HasKey agentId then
      .ok (row,
        { db with guardrailRules := db.guardrailRules.insert row hnew })
    else .error .foreignKeyViolation
  else .error .uniqueViolation

def updateRule (id agentId : Uuid) (f : GuardrailRow → GuardrailRow)
    (hkey : ∀ row, (f row).id = row.id) : Option GuardrailRow × Db :=
  let rules := db.guardrailRules.updateWhere
    (fun row => row.id = id ∧ row.agentId = agentId) f hkey
  (rules.rows.find? fun row => row.id = id ∧ row.agentId = agentId,
    { db with guardrailRules := rules })

def insertSessionKey (agentId : Uuid) (publicKey : String) (maxSpend : Int)
    (allowedContracts : Value) (expiresAt : Int) :
    Except DbError (SessionKeyRow × Db) :=
  if hpos : 0 < maxSpend then
    let row : SessionKeyRow := {
      id := freshId
      agentId, publicKey, maxSpend, allowedContracts, expiresAt
      spent := 0
      isRevoked := false
      maxSpend_pos := hpos
      spent_nonneg := Int.le_refl 0
      spent_within_limit := Int.le_of_lt hpos }
    if hnew : ¬ db.sessionKeys.HasKey row.id then
      if ∃ other ∈ db.sessionKeys.rows, other.publicKey = publicKey then
        .error .uniqueViolation
      else if db.agents.HasKey agentId then
        .ok (row, { db with sessionKeys := db.sessionKeys.insert row hnew })
      else .error .foreignKeyViolation
    else .error .uniqueViolation
  else .error .checkViolation

def incrementSpent (id : Uuid) (amount : Int) : Except DbError (Nat × Db) :=
  match db.sessionKeys.find? id with
  | none => .ok (0, db)
  | some row => do
      match ← row.charge amount with
      | none => .ok (0, db)
      | some charged =>
          .ok (1, { db with sessionKeys := db.sessionKeys.replace charged })

def revokeKeys (p : SessionKeyRow → Prop) [DecidablePred p] : Db :=
  { db with
    sessionKeys := db.sessionKeys.updateWhere p
      (fun row => { row with isRevoked := true }) fun _ => rfl }

def deactivateAgents (ids : List Uuid) : Db :=
  { db with
    agents := db.agents.updateWhere (fun agent => agent.id ∈ ids)
      (fun agent => { agent with isActive := false }) fun _ => rfl }

/-- The keys an UPDATE ... WHERE agent_id = $1 AND is_revoked = false finds. -/
def activeKeys (agentId : Uuid) : List Uuid :=
  (db.sessionKeys.selectWhere fun row =>
    row.agentId = agentId ∧ row.isRevoked = false).map (·.id)

/-- The pending writes of a transaction become visible together. -/
def commit (tx : Tx) : Db :=
  (db.revokeKeys fun row => row.id ∈ tx.revokedKeys).deactivateAgents
    tx.deactivatedAgents

/-- The WHERE clause of the reservation, over the rows of its snapshot. -/
def withinLimit (snapshot : Snapshot) (values : SpendValues) :
    Option Int → Except DbError Bool
  | none => .ok true
  | some limit => do
      let total ← bigint
        (spentLast24h values.agentId snapshot.now snapshot.rows)
      let withNew ← bigint (total + values.amount)
      return decide (withNew ≤ limit)

/-- A reservation within a limit fits under it. -/
theorem withinLimit_le {snapshot : Snapshot} {values : SpendValues}
    {limit : Int} (h : withinLimit snapshot values (some limit) = .ok true) :
    spentLast24h values.agentId snapshot.now snapshot.rows + values.amount ≤
      limit := by
  simp only [withinLimit, except_bind_eq_ok, bigint_eq_ok_iff] at h
  obtain ⟨total, ⟨_, rfl⟩, withNew, ⟨_, rfl⟩, h⟩ := h
  exact of_decide_eq_true (Except.ok.inj h)

def insertSpend (snapshot : Snapshot) (values : SpendValues)
    (limit? : Option Int) : Except DbError (Nat × Db) := do
  if ← withinLimit snapshot values limit? then
    if hpos : 0 < values.amount then
      let row := values.row snapshot.now hpos
      -- an INSERT with the same nonce that is still open is waited for;
      -- foreign keys are checked last, when the statement ends
      if hnew : ¬ db.spendLedger.HasKey row.txNonce then
        if db.agents.HasKey values.agentId ∧
            values.sessionKeyId.all fun id => db.sessionKeys.HasKey id then
          .ok (1, { db with spendLedger := db.spendLedger.insert row hnew })
        else .error .foreignKeyViolation
      else .error .uniqueViolation
    else .error .checkViolation
  else .ok (0, db)

end Db

/-- Run a query; one that fails changes nothing. -/
def Query.run (now : Micros) (freshId : Uuid) (db : Db) :
    (query : Query) → Except DbError (query.Answer × Db)
  | .insertAgent name ownerAddress => db.insertAgent freshId name ownerAddress
  | .selectAgent id => .ok (db.agents.find? id, db)
  | .insertRule agentId ruleType ruleParams =>
      db.insertRule freshId agentId ruleType ruleParams
  | .selectActiveRules agentId =>
      .ok (db.guardrailRules.selectWhere fun row =>
        row.agentId = agentId ∧ row.isActive = true, db)
  | .updateRule id agentId ruleType ruleParams isActive =>
      .ok (db.updateRule id agentId
        (fun row => { row with ruleType, ruleParams, isActive })
        fun _ => rfl)
  | .deactivateRule id agentId =>
      let (row?, db') := db.updateRule id agentId
        (fun row => { row with isActive := false }) fun _ => rfl
      .ok (row?.toList.length, db')
  | .insertSessionKey agentId publicKey maxSpend allowedContracts expiresAt =>
      db.insertSessionKey freshId agentId publicKey maxSpend
        allowedContracts expiresAt
  | .selectSessionKey id => .ok (db.sessionKeys.find? id, db)
  | .incrementSpent id amount => db.incrementSpent id amount
  | .revokeSessionKey id agentId =>
      .ok ((db.sessionKeys.selectWhere fun row =>
          row.id = id ∧ row.agentId = agentId).length,
        db.revokeKeys fun row => row.id = id ∧ row.agentId = agentId)
  | .begin => .ok (⟨[], []⟩, db)
  | .revokeAllInTx tx agentId =>
      let keys := (db.activeKeys agentId).filter (· ∉ tx.revokedKeys)
      .ok ((keys.length,
        { tx with revokedKeys := tx.revokedKeys ++ keys }), db)
  | .deactivateInTx tx agentId =>
      if db.agents.HasKey agentId then
        .ok ((1, { tx with
          deactivatedAgents := tx.deactivatedAgents ++ [agentId] }), db)
      else .ok ((0, tx), db)
  | .commit tx => .ok ((), db.commit tx)
  | .sumLast24h agentId => do
      let total ← bigint (spentLast24h agentId now db.spendLedger.rows)
      return (total, db)
  | .beginSpend => .ok (⟨db.spendLedger.rows, now⟩, db)
  | .insertSpend snapshot values limit? => db.insertSpend snapshot values limit?

end X402Guard

/-
The repositories: the queries of the handlers, with the conversions and checks
around them.  An error is the text of the `anyhow::Error`.
-/
import X402Guard.ProxyEnvironment
import X402Guard.SoloExecution

namespace X402Guard

open Interaction

abbrev RepoM := Prog Op Reply String

namespace Repo

/-- Run a query, or fail with the text of its error. -/
def query (query : Query) : RepoM query.Answer :=
  .perform (.postgres query) >>= fun (reply : Except DbError query.Answer) =>
    .lift (reply.mapError DbError.toString)

section Alone

variable {q : Query} {outcome : Outcome} {s t : Shared}

/-- A query executed alone gives the reply of one operation. -/
theorem query_solo_iff {result : Except String q.Answer} :
    (query q).Solo proxySemantics s result t ↔
      ∃ outcome,
        (perform (.postgres q) outcome s).1.mapError DbError.toString = result ∧
        t = (perform (.postgres q) outcome s).2 := by
  simp [query, Prog.solo_call_iff]

theorem query_solo_ok {answer : q.Answer}
    (h : (query q).Solo proxySemantics s (.ok answer) t) :
    ∃ freshId db', q.run s.now freshId s.db = .ok (answer, db') ∧
      t = { s with db := db' } := by
  obtain ⟨outcome, hreply, rfl⟩ := query_solo_iff.mp h
  simp only [perform] at hreply ⊢
  split at hreply
  · cases hreply
  · rename_i hfine
    rw [if_neg hfine]
    cases hrun : q.run s.now outcome.freshId s.db with
    | error error =>
        rw [hrun] at hreply
        cases hreply
    | ok result =>
        rw [hrun] at hreply
        cases hreply
        exact ⟨_, _, hrun, rfl⟩

/-- A query that only reads. -/
theorem read_solo_ok {answer answer' : q.Answer}
    (h : (query q).Solo proxySemantics s (.ok answer') t)
    (hread : ∀ freshId, q.run s.now freshId s.db = .ok (answer, s.db)) :
    answer' = answer ∧ t = s := by
  obtain ⟨freshId, db', hrun, rfl⟩ := query_solo_ok h
  rw [hread freshId] at hrun
  cases hrun
  exact ⟨rfl, rfl⟩

/-- A query that fails changes nothing. -/
theorem query_solo_error {error : String}
    (h : (query q).Solo proxySemantics s (.error error) t) : t = s := by
  obtain ⟨outcome, hreply, rfl⟩ := query_solo_iff.mp h
  rcases perform_postgres q outcome s with ⟨_, heq⟩ | ⟨_, _, heq, _⟩
  · rw [heq]
  · rw [heq] at hreply
    cases hreply

theorem query_alone_of_ok {answer : q.Answer} {db' : Db}
    (hfine : outcome.fails = false)
    (hrun : q.run s.now outcome.freshId s.db = .ok (answer, db')) :
    (query q).alone proxySemantics outcome s =
      (.ok answer, { s with db := db' }) := by
  have hreply : perform (.postgres q) outcome s =
      (.ok answer, { s with db := db' }) := by
    simp [perform, hfine, hrun]
  simp only [query, Prog.perform_bind, Prog.alone, proxySemantics_perform,
    hreply]
  rfl

end Alone

def notFoundForAgent (what : String) (id agentId : Uuid) : String :=
  s!"{what} {formatUuid id} not found for agent {formatUuid agentId}"

namespace Agents

def create (name ownerAddress : String) : RepoM Agent :=
  query (.insertAgent name ownerAddress)

def findById (id : Uuid) : RepoM (Option Agent) :=
  query (.selectAgent id)

/-- Deactivate an agent inside a transaction. -/
def deactivateTx (tx : Tx) (agentId : Uuid) : RepoM Tx := do
  let (affected, tx) ← query (.deactivateInTx tx agentId)
  if affected = 0 then .throw s!"agent {formatUuid agentId} not found"
  else return tx

end Agents

namespace Guardrails

def create (agentId : Uuid) (ruleType : RuleType) : RepoM GuardrailRule := do
  let row ← query
    (.insertRule agentId (ruleTypeName ruleType) (ruleTypeParams ruleType))
  .lift (rowToRule row)

def findActiveByAgent (agentId : Uuid) : RepoM (List GuardrailRule) := do
  let rows ← query (.selectActiveRules agentId)
  .lift (rowsToRules rows)

def update (ruleId agentId : Uuid) (ruleType : RuleType) (isActive : Bool) :
    RepoM GuardrailRule := do
  match ← query (.updateRule ruleId agentId (ruleTypeName ruleType)
      (ruleTypeParams ruleType) isActive) with
  | some row => .lift (rowToRule row)
  | none =>
      .throw (notFoundForAgent "rule" ruleId agentId)

def deactivate (ruleId agentId : Uuid) : RepoM Unit := do
  let affected ← query (.deactivateRule ruleId agentId)
  if affected = 0 then .throw (notFoundForAgent "rule" ruleId agentId)

end Guardrails

namespace SessionKeys

def create (agentId : Uuid) (publicKey : String) (maxSpend : Nat)
    (allowedContracts : List String) (expiresAt : Int) : RepoM SessionKey := do
  let contractsJson := Value.ofStrings allowedContracts
  let maxSpend ← .lift (okOr "max_spend exceeds i64::MAX"
    (i64TryFrom maxSpend))
  let row ← query
    (.insertSessionKey agentId publicKey maxSpend contractsJson expiresAt)
  .lift (rowToSessionKey row)

def findById (id : Uuid) : RepoM (Option SessionKey) := do
  match ← query (.selectSessionKey id) with
  | none => return none
  | some row => do
      let key ← .lift (rowToSessionKey row)
      return some key

def incrementSpent (id : Uuid) (amount : Nat) : RepoM Unit := do
  let amount ← .lift (okOr "amount exceeds i64::MAX" (i64TryFrom amount))
  let affected ← query (.incrementSpent id amount)
  if affected = 0 then
    .throw "session key spend limit exceeded or key revoked"

/-- Revoke requires both key id and agent id. -/
def revoke (id agentId : Uuid) : RepoM Unit := do
  let affected ← query (.revokeSessionKey id agentId)
  if affected = 0 then .throw (notFoundForAgent "session key" id agentId)

/-- Revoke all active session keys of an agent inside a transaction. -/
def revokeAllByAgentTx (tx : Tx) (agentId : Uuid) : RepoM (Nat × Tx) :=
  query (.revokeAllInTx tx agentId)

end SessionKeys

namespace SpendLedger

/-- Insert a spend record only if the rolling 24h total with this amount does
not exceed the limit; without a limit, always insert. -/
def recordSpendAtomic (agentId : Uuid) (sessionKeyId : Option Uuid)
    (amount : Nat) (txNonce : String) (dailyLimit : Option Nat) :
    RepoM Bool := do
  let amountI64 ← .lift (okOr s!"spend amount {amount} exceeds i64::MAX"
    (i64TryFrom amount))
  let values : SpendValues := ⟨agentId, sessionKeyId, amountI64, txNonce⟩
  match dailyLimit with
  | some limit => do
      let limitI64 ← .lift (okOr s!"daily limit {limit} exceeds i64::MAX"
        (i64TryFrom limit))
      let snapshot ← query .beginSpend
      let affected ← query (.insertSpend snapshot values (some limitI64))
      return decide (0 < affected)
  | none => do
      let snapshot ← query .beginSpend
      let _ ← query (.insertSpend snapshot values none)
      return true

/-- Sum all spend of an agent in the last 24 hours. -/
def sumLast24h (agentId : Uuid) : RepoM Nat := do
  let total ← query (.sumLast24h agentId)
  .lift (okOr s!"negative spend sum {total} — possible data corruption"
    (u64TryFrom total))

end SpendLedger

end Repo

end X402Guard

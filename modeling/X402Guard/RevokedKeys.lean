/-
Session keys of deactivated agents: what a sequence of calls to the management
API can make of the keys of an agent that is not active.
-/
import X402Guard.ForwardTrace
import X402Guard.SoloExecution

namespace X402Guard

open Interaction Prog

variable {ext : Externals} {config : AppConfig}

namespace Db

variable {db db' : Db} {query : Query} {answer : query.Answer}

/-- No key of the agent is unrevoked. -/
def KeysRevoked (db : Db) (agentId : Uuid) : Prop :=
  ∀ row ∈ db.sessionKeys.rows, row.agentId = agentId → row.isRevoked = true

/-- An agent that is not active has no unrevoked key. -/
def NoLiveKeys (db : Db) : Prop :=
  ∀ agentId, db.AgentInactive agentId → db.KeysRevoked agentId

theorem noLiveKeys_empty : Db.empty.NoLiveKeys := by
  intro agentId _ row hrow
  exact absurd hrow List.not_mem_nil

/-- A query that commits no transaction and creates no key for an inactive
agent leaves no live key. -/
theorem Change.keeps_noLiveKeys (h : db.Change query answer db')
    (hcommit : ∀ tx, query ≠ .commit tx)
    (hinsert : ∀ agentId publicKey maxSpend allowed expiresAt,
      query = .insertSessionKey agentId publicKey maxSpend allowed expiresAt →
      ¬ db.AgentInactive agentId)
    (hlive : db.NoLiveKeys) : db'.NoLiveKeys := by
  intro agentId hinactive row' hrow' howner
  have hold : db.AgentInactive agentId := by
    rcases h.agentInactive_origin hinactive with hold | ⟨tx, heq, _⟩
    · exact hold
    · exact absurd heq (hcommit tx)
  rcases h.key_origin hrow' with
    ⟨row, hrow, _, hevolves⟩ | ⟨publicKey, maxSpend, allowed, expiresAt, heq⟩
  · exact hevolves.revoked
      (hlive agentId hold row hrow (hevolves.agentId.symm.trans howner))
  · have hactive := hinsert _ _ _ _ _ heq
    rw [howner] at hactive
    exact absurd hold hactive

/-- A transaction that revokes all keys of the agent it deactivates leaves no
live key. -/
theorem noLiveKeys_commit {agentId : Uuid} {tx : Tx} (hlive : db.NoLiveKeys)
    (hagents : tx.deactivatedAgents = [agentId])
    (hkeys : ∀ key ∈ db.activeKeys agentId, key ∈ tx.revokedKeys) :
    (db.commit tx).NoLiveKeys := by
  intro other hinactive row' hrow' howner
  have hupdated : row' ∈ (db.revokeKeys fun row =>
      row.id ∈ tx.revokedKeys).sessionKeys.rows := hrow'
  rw [revokeKeys, KeyedTable.mem_updateWhere] at hupdated
  obtain ⟨row, hrow, rfl⟩ := hupdated
  split
  · rfl
  · rename_i hkept
    rw [if_neg hkept] at howner
    have hchange : db.Change (.commit tx) () (db.commit tx) := .committed tx
    rcases hchange.agentInactive_origin hinactive with
      hold | ⟨tx', heq, hmem⟩
    · exact hlive other hold row hrow howner
    · cases heq
      rw [hagents, List.mem_singleton] at hmem
      by_contra hactive
      apply hkept
      apply hkeys
      refine List.mem_map.mpr ⟨row, KeyedTable.mem_selectWhere.mpr
        ⟨hrow, howner.trans hmem, ?_⟩, rfl⟩
      simpa using hactive

end Db

/-- No call creates a session key for an agent that is not active. -/
def KeysForActive (s : Shared) (request : Request) : Prop :=
  ∀ agentId req, request = .createSessionKey agentId req →
    ¬ s.db.AgentInactive agentId

theorem perform_keeps_noLiveKeys {op : Op} {s : Shared}
    (hstage : op.stage ≠ 14)
    (hinsert : ∀ agentId publicKey maxSpend allowed expiresAt,
      op = .postgres (.insertSessionKey agentId publicKey maxSpend allowed
        expiresAt) → ¬ s.db.AgentInactive agentId)
    (hlive : s.db.NoLiveKeys) (outcome : Outcome) :
    (perform op outcome s).2.db.NoLiveKeys := by
  by_cases hop : ∃ query, op = .postgres query
  · obtain ⟨query, rfl⟩ := hop
    rcases perform_postgres query outcome s with
      ⟨error, heq⟩ | ⟨answer, db', heq, hchange⟩
    · rwa [heq]
    · rw [heq]
      apply hchange.keeps_noLiveKeys
      · rintro tx rfl
        exact hstage rfl
      · rintro agentId publicKey maxSpend allowed expiresAt rfl
        exact hinsert agentId publicKey maxSpend allowed expiresAt rfl
      · exact hlive
  · rw [perform_db_of_ne (fun query heq => hop ⟨query, heq⟩)]
    exact hlive

theorem perform_keeps_agentActive {op : Op} {s : Shared} {agentId : Uuid}
    (hstage : op.stage ≠ 14) (h : ¬ s.db.AgentInactive agentId)
    (outcome : Outcome) :
    ¬ (perform op outcome s).2.db.AgentInactive agentId := by
  by_cases hop : ∃ query, op = .postgres query
  · obtain ⟨query, rfl⟩ := hop
    rcases perform_postgres query outcome s with
      ⟨error, heq⟩ | ⟨answer, db', heq, hchange⟩
    · rwa [heq]
    · rw [heq]
      intro hinactive
      rcases hchange.agentInactive_origin hinactive with hold | ⟨tx, rfl, _⟩
      · exact h hold
      · exact hstage rfl
  · rw [perform_db_of_ne (fun query heq => hop ⟨query, heq⟩)]
    exact h

/-- The only key that `createSessionKey` inserts is one of its agent. -/
theorem createSessionKey_within (agentId : Uuid)
    (req : CreateSessionKeyRequest) :
    (createSessionKey ext agentId req).Within fun op => op.stage ≤ 7 ∨
      ∃ publicKey maxSpend allowed expiresAt, op = .postgres
        (.insertSessionKey agentId publicKey maxSpend allowed expiresAt) := by
  refine Within.bind (within_lift _ _) fun _ => ?_
  refine Within.bind (within_lift _ _) fun _ => ?_
  refine Within.bind ⟨Or.inl (Nat.zero_le 7), fun _ => trivial⟩ fun _ => ?_
  refine Within.bind (within_lift _ _) fun _ => ?_
  refine Within.bind (requireAgent_within (Or.inl (Nat.le_refl 7)))
    fun _ => ?_
  refine Within.bind (within_mapError.mpr (Within.bind (within_lift _ _)
    fun _ => Within.bind (Repo.query_within (Or.inr ⟨_, _, _, _, rfl⟩))
      fun _ => within_lift _ _)) fun _ => ?_
  exact Within.bind (emit_within (Or.inl (Nat.zero_le 7))) fun _ => trivial

theorem createSessionKey_ensures {agentId : Uuid}
    {req : CreateSessionKeyRequest} {s : Shared} (hlive : s.db.NoLiveKeys)
    (hactive : ¬ s.db.AgentInactive agentId) :
    (handle ext config (.createSessionKey agentId req)).Ensures proxySemantics
      (fun t => t.db.NoLiveKeys ∧ ¬ t.db.AgentInactive agentId)
      (fun _ t => t.db.NoLiveKeys ∧ ¬ t.db.AgentInactive agentId) s := by
  refine ensures_map_iff.mpr ?_
  refine ensures_of_within (createSessionKey_within agentId req)
    ⟨hlive, hactive⟩ ?_
  rintro op outcome t hop ⟨hlive, hactive⟩
  have hstage : op.stage ≠ 14 := by
    rcases hop with hle | ⟨_, _, _, _, rfl⟩
    · omega
    · simp [Op.stage]
  refine ⟨perform_keeps_noLiveKeys hstage ?_ hlive outcome,
    perform_keeps_agentActive hstage hactive outcome⟩
  rintro other publicKey maxSpend allowed expiresAt rfl
  rcases hop with hle | ⟨_, _, _, _, heq⟩
  · simp [Op.stage] at hle
  · cases heq
    exact hactive

theorem query_ensures {q : Query} {E : Shared → Prop}
    {Q : q.Answer → Shared → Prop} {s : Shared} (hE : E s)
    (hQ : ∀ freshId answer db', q.run s.now freshId s.db = .ok (answer, db') →
      Q answer { s with db := db' }) :
    (Repo.query q).Ensures proxySemantics E Q s := by
  intro outcome
  simp only [proxySemantics_perform, perform]
  split
  · exact hE
  · split
    · rename_i answer db' hrun
      exact hQ outcome.freshId answer db' hrun
    · exact hE

theorem requireAgent_ensures {agentId : Uuid} {E : Shared → Prop}
    {Q : Agent → Shared → Prop} {s : Shared} (hE : E s)
    (hQ : ∀ agent, Q agent s) :
    (requireAgent agentId).Ensures proxySemantics E Q s := by
  rw [requireAgent, ensures_bind_iff, ensures_mapError_iff,
    Repo.Agents.findById]
  apply query_ensures (q := .selectAgent agentId) hE
  intro freshId found db' hrun
  cases hrun
  exact ensures_lift hE fun agent _ => hQ agent

theorem emit_ensures {event : AuditEvent} {E : Shared → Prop}
    {Q : Unit → Shared → Prop} {s : Shared}
    (hQ : ∀ audit, Q () { s with audit := audit }) :
    (emit event).Ensures proxySemantics E Q s := by
  intro outcome
  simp only [proxySemantics_perform, perform]
  split
  · exact hQ s.audit
  · exact hQ _

/-- The transaction gathers every unrevoked key of the agent. -/
theorem revokeAllByAgentTx_ensures {tx : Tx} {agentId : Uuid}
    {E : Shared → Prop} {Q : Nat × Tx → Shared → Prop} {s : Shared} (hE : E s)
    (hQ : ∀ affected tx', tx'.deactivatedAgents = tx.deactivatedAgents →
      (∀ key ∈ s.db.activeKeys agentId, key ∈ tx'.revokedKeys) →
      Q (affected, tx') s) :
    (Repo.SessionKeys.revokeAllByAgentTx tx agentId).Ensures proxySemantics
      E Q s := by
  apply query_ensures (q := .revokeAllInTx tx agentId) hE
  intro freshId answer db' hrun
  cases hrun
  refine hQ _ _ rfl fun key hkey => List.mem_append.mpr ?_
  by_cases hold : key ∈ tx.revokedKeys
  · exact Or.inl hold
  · exact Or.inr (List.mem_filter.mpr ⟨hkey, decide_eq_true hold⟩)

theorem deactivateTx_ensures {tx : Tx} {agentId : Uuid} {E : Shared → Prop}
    {Q : Tx → Shared → Prop} {s : Shared} (hE : E s)
    (hQ : s.db.agents.HasKey agentId → Q { tx with
      deactivatedAgents := tx.deactivatedAgents ++ [agentId] } s) :
    (Repo.Agents.deactivateTx tx agentId).Ensures proxySemantics E Q s := by
  rw [Repo.Agents.deactivateTx, ensures_bind_iff]
  apply query_ensures (q := .deactivateInTx tx agentId) hE
  intro freshId answer db' hrun
  simp only [Query.run] at hrun
  split at hrun
  · rename_i hexists
    cases hrun
    exact hQ hexists
  · cases hrun
    exact hE

/-- A `revokeAll` leaves no live key; one that succeeds leaves the agent
inactive. -/
theorem revokeAll_ensures {agentId : Uuid} {req : RevokeAllRequest}
    {s : Shared} (hlive : s.db.NoLiveKeys) :
    (handle ext config (.revokeAll agentId req)).Ensures proxySemantics
      (fun t => t.db.NoLiveKeys)
      (fun _ t => t.db.NoLiveKeys ∧ t.db.AgentInactive agentId) s := by
  let E : Shared → Prop := fun t => t.db.NoLiveKeys
  have hE : E s := hlive
  refine ensures_map_iff.mpr ?_
  change (revokeAll agentId req).Ensures proxySemantics E _ s
  rw [revokeAll, ensures_bind_iff]
  apply ensures_lift hE
  intro _ _
  rw [ensures_bind_iff]
  apply requireAgent_ensures hE
  intro agent
  rw [ensures_bind_iff]
  apply ensures_lift hE
  intro _ _
  rw [ensures_bind_iff, ensures_mapError_iff]
  apply query_ensures hE
  intro _ _ _ hbegin
  cases hbegin
  rw [ensures_bind_iff, ensures_mapError_iff]
  apply revokeAllByAgentTx_ensures hE
  intro keysRevoked tx hagents hkeys
  rw [ensures_bind_iff, ensures_mapError_iff]
  apply deactivateTx_ensures hE
  intro hexists
  -- the writes become visible here
  rw [hagents, List.nil_append]
  let final : Tx := ⟨tx.revokedKeys, [agentId]⟩
  have hdone : (s.db.commit final).NoLiveKeys :=
    Db.noLiveKeys_commit hlive rfl hkeys
  have hinactive : (s.db.commit final).AgentInactive agentId :=
    Db.agentInactive_commit List.mem_cons_self hexists
  rw [ensures_bind_iff, ensures_mapError_iff]
  apply query_ensures (q := .commit final) hE
  intro _ _ _ hcommit
  cases hcommit
  rw [ensures_bind_iff]
  apply emit_ensures
  intro audit
  rw [ensures_bind_iff]
  apply emit_ensures
  intro audit'
  exact ⟨hdone, hinactive⟩

/-- Every call that creates no key for an inactive agent leaves no live key. -/
theorem handle_keeps_noLiveKeys {request : Request} {s s' : Shared}
    {result : Except AppError Response} (hlive : s.db.NoLiveKeys)
    (hallowed : KeysForActive s request)
    (solo : (handle ext config request).Solo proxySemantics s result s') :
    s'.db.NoLiveKeys := by
  have hother : (∀ op, request.Issues op → op.stage ≠ 13 ∧ op.stage ≠ 14) →
      s'.db.NoLiveKeys := by
    intro hstages
    refine Ensures.state (I := fun t => t.db.NoLiveKeys) (ensures_of_within
      (handle_issues request) hlive fun op outcome t hop hlive => ?_) solo
    refine perform_keeps_noLiveKeys (hstages op hop).2 ?_ hlive outcome
    rintro agentId publicKey maxSpend allowed expiresAt rfl
    exact absurd rfl (hstages _ hop).1
  cases request with
  | createSessionKey agentId req =>
      have hactive := hallowed agentId req rfl
      exact ((createSessionKey_ensures hlive hactive).state solo).1
  | revokeAll agentId req =>
      cases result with
      | error error => exact (revokeAll_ensures hlive).error solo
      | ok response => exact ((revokeAll_ensures hlive).value solo).1
  | _ =>
      apply hother
      intro op hop
      simp only [Request.Issues] at hop
      omega

theorem handle_keeps_agentInactive {request : Request} {s s' : Shared}
    {result : Except AppError Response} {agentId : Uuid}
    (hinactive : s.db.AgentInactive agentId)
    (solo : (handle ext config request).Solo proxySemantics s result s') :
    s'.db.AgentInactive agentId := by
  refine Ensures.state (I := fun t => t.db.AgentInactive agentId)
    (ensures_of_within (handle_issues request) hinactive
      fun op outcome t _ hinactive => ?_) solo
  exact perform_keeps_db (P := fun db => db.AgentInactive agentId)
    (fun _ _ _ hchange => hchange.keeps_agentInactive hinactive) hinactive op
    outcome

/-- While no key is created for an inactive agent, inactive agents have no live
keys. -/
theorem noLiveKeys_of_sequential {s t : Shared}
    (run : Sequential (handle ext config) proxySemantics KeysForActive s t)
    (hlive : s.db.NoLiveKeys) : t.db.NoLiveKeys := by
  refine Sequential.invariant (I := fun t => t.db.NoLiveKeys) run hlive ?_ ?_
  · intro elapsed t h
    exact h
  · intro t t' request result h hallowed solo
    exact handle_keeps_noLiveKeys h hallowed solo

theorem agentInactive_of_sequential {Allowed : Shared → Request → Prop}
    {s t : Shared} {agentId : Uuid}
    (run : Sequential (handle ext config) proxySemantics Allowed s t)
    (hinactive : s.db.AgentInactive agentId) : t.db.AgentInactive agentId := by
  refine Sequential.invariant (I := fun t => t.db.AgentInactive agentId) run
    hinactive ?_ ?_
  · intro elapsed t h
    exact h
  · intro t t' request result h _ solo
    exact handle_keeps_agentInactive h solo

/-- In a state reached from an empty database an agent that is not active has no
unrevoked key; once `revokeAll` has succeeded for an agent, its keys stay
revoked in every state reached later. -/
structure RevokedForGood (ext : Externals) (config : AppConfig)
    (Allowed : Shared → Request → Prop) (t : Shared) : Prop where
  inactive : t.db.NoLiveKeys
  revoked : ∀ agentId req response t' u,
    (handle ext config (.revokeAll agentId req)).Solo proxySemantics t
      (.ok response) t' →
    Sequential (handle ext config) proxySemantics Allowed t' u →
    u.db.KeysRevoked agentId

/-- Keys of deactivated agents stay revoked when no key is created for an agent
that is not active. -/
theorem revokedForGood_of_keysForActive (now : Micros) {t : Shared}
    (run : Sequential (handle ext config) proxySemantics KeysForActive
      (Shared.start now .empty) t) :
    RevokedForGood ext config KeysForActive t := by
  have hlive := noLiveKeys_of_sequential run Db.noLiveKeys_empty
  refine ⟨hlive, ?_⟩
  intro agentId req response t' u solo later
  obtain ⟨hlive', hinactive⟩ := (revokeAll_ensures hlive).value solo
  exact noLiveKeys_of_sequential later hlive' agentId
    (agentInactive_of_sequential later hinactive)

/-- The call is one of those that create and revoke. -/
def ManagesKeys (_ : Shared) : Request → Prop
  | .createAgent _ | .createSessionKey .. | .revokeSessionKey ..
  | .revokeAll .. => True
  | _ => False

namespace Sample

def agentRequest : CreateAgentRequest := ⟨"trader", signerText⟩

def keyRequest : CreateSessionKeyRequest :=
  ⟨"session public key", 100_000_000, [], 1_700_086_400_000_000⟩

/-- Before anything is created. -/
def emptyWorld : Shared := Shared.start 1_700_000_100_000_000 .empty

/-- The state a call leaves when all its operations come to `outcome`. -/
def after (request : Request) (outcome : Outcome) (s : Shared) : Shared :=
  ((handle externals Sample.config request).alone proxySemantics outcome s).2

/-- An outcome under which nothing fails and new rows get the given id. -/
def fineWith (freshId : Uuid) : Outcome := ⟨false, freshId, .notSent ""⟩

theorem sequential_after {Allowed : Shared → Request → Prop} {s t : Shared}
    (run : Sequential (handle externals Sample.config) proxySemantics Allowed s
      t)
    (request : Request) (outcome : Outcome) (hallowed : Allowed t request) :
    Sequential (handle externals Sample.config) proxySemantics Allowed s
      (after request outcome t) :=
  .call run hallowed (solo_alone outcome _ t)

/-- The agent is created. -/
def created : Shared :=
  after (.createAgent agentRequest) (fineWith agentId) emptyWorld

/-- It is stopped, and then a key is created for it. -/
def rearmed : Shared :=
  after (.createSessionKey agentId keyRequest) (fineWith keyId)
    (after (.revokeAll agentId ⟨signerText, none, none⟩) (fineWith 0) created)

/-- A key is created for it, and then it is stopped. -/
def stoppedWithKey : Shared :=
  after (.revokeAll agentId ⟨signerText, none, none⟩) (fineWith 0)
    (after (.createSessionKey agentId keyRequest) (fineWith keyId) created)

end Sample

/-- A key can be created for an agent after `revokeAll`, and it is live. -/
theorem not_revokedForGood : ¬ ∀ t,
    Sequential (handle Sample.externals Sample.config) proxySemantics
      ManagesKeys Sample.emptyWorld t →
    RevokedForGood Sample.externals Sample.config ManagesKeys t := by
  intro h
  have run : Sequential (handle Sample.externals Sample.config) proxySemantics
      ManagesKeys Sample.emptyWorld Sample.rearmed :=
    Sample.sequential_after (Sample.sequential_after (Sample.sequential_after
      (.refl _) _ _ trivial) _ _ trivial) _ _ trivial
  have hinactive : (Sample.rearmed.db.agents.find? Sample.agentId).map
      (·.isActive) = some false := by decide
  have hkey : Sample.rearmed.db.sessionKeys.rows.map
      (fun row => (row.agentId, row.isRevoked)) =
        [(Sample.agentId, false)] := by decide
  obtain ⟨agent, hagent, hinactive⟩ := Option.map_eq_some_iff.mp hinactive
  obtain ⟨row, _, hrows, hrow, _⟩ := List.map_eq_cons_iff.mp hkey
  rw [Prod.mk.injEq] at hrow
  have hrevoked := (h _ run).inactive Sample.agentId ⟨agent, hagent, hinactive⟩
    row (by simp [hrows]) hrow.1
  rw [hrow.2] at hrevoked
  cases hrevoked

/-- An agent with a key is stopped. -/
theorem revokedForGood_sample : ∃ t,
    Sequential (handle Sample.externals Sample.config) proxySemantics
      KeysForActive Sample.emptyWorld t ∧
    t.db.AgentInactive Sample.agentId ∧ t.db.sessionKeys.rows ≠ [] ∧
    RevokedForGood Sample.externals Sample.config KeysForActive t := by
  have run : Sequential (handle Sample.externals Sample.config) proxySemantics
      KeysForActive Sample.emptyWorld Sample.stoppedWithKey := by
    refine Sample.sequential_after (Sample.sequential_after
      (Sample.sequential_after (.refl _) _ _ ?_) _ _ ?_) _ _ ?_
    · intro agentId req heq
      cases heq
    · rintro agentId req heq ⟨agent, hagent, hinactive⟩
      cases heq
      have hactive : (Sample.created.db.agents.find? Sample.agentId).map
          (·.isActive) = some true := by decide
      have hfound : Sample.created.db.agents.find? Sample.agentId =
          some agent := hagent
      rw [hfound, Option.map_some, hinactive] at hactive
      cases hactive
    · intro agentId req heq
      cases heq
  have hinactive : (Sample.stoppedWithKey.db.agents.find?
      Sample.agentId).map (·.isActive) = some false := by decide
  have hkeys : Sample.stoppedWithKey.db.sessionKeys.rows.map
      (·.isRevoked) = [true] := by decide
  obtain ⟨agent, hagent, hinactive⟩ := Option.map_eq_some_iff.mp hinactive
  refine ⟨_, run, ⟨agent, hagent, hinactive⟩, ?_,
    revokedForGood_of_keysForActive _ run⟩
  intro hnone
  rw [hnone] at hkeys
  cases hkeys

end X402Guard

/-
What a query that succeeds can do to the database, said once, and what follows
for every query: keys and agents keep their identity, revocation and
deactivation are final, the ledger only grows, and the spent counter of a key
moves by the amounts charged to it.
-/
import X402Guard.Database

namespace X402Guard

/-- The queries that read and write nothing. -/
def Query.Reads : Query → Prop
  | .selectAgent _ | .selectActiveRules _ | .selectSessionKey _ | .begin
  | .revokeAllInTx .. | .deactivateInTx .. | .sumLast24h _ | .beginSpend => True
  | _ => False

/-- The queries that write guardrail rules. -/
def Query.WritesRules : Query → Prop
  | .insertRule .. | .updateRule .. | .deactivateRule .. => True
  | _ => False

namespace Db

/-- `Change db query answer db'`: `query` can answer `answer` on `db` and leave
`db'`. -/
inductive Change (db : Db) : (query : Query) → query.Answer → Db → Prop
  | read {query : Query} (answer : query.Answer) (hreads : query.Reads) :
      Change db query answer db
  | agentInserted {name ownerAddress : String} (agent : Agent)
      (hnew : ¬ db.agents.HasKey agent.id) (hactive : agent.isActive = true) :
      Change db (.insertAgent name ownerAddress) agent
        { db with agents := db.agents.insert agent hnew }
  | rulesWritten {query : Query} (answer : query.Answer)
      (hwrites : query.WritesRules)
      (rules : KeyedTable GuardrailRow GuardrailRow.id) :
      Change db query answer { db with guardrailRules := rules }
  | keyInserted {agentId : Uuid} {publicKey : String} {maxSpend : Int}
      {allowed : Value} {expiresAt : Int} (row : SessionKeyRow)
      (hnew : ¬ db.sessionKeys.HasKey row.id) (hspent : row.spent = 0)
      (hactive : row.isRevoked = false) (howner : row.agentId = agentId)
      (hagent : db.agents.HasKey agentId) :
      Change db
        (.insertSessionKey agentId publicKey maxSpend allowed expiresAt)
        row { db with sessionKeys := db.sessionKeys.insert row hnew }
  | notCharged (id : Uuid) (amount : Int) :
      Change db (.incrementSpent id amount) (0 : Nat) db
  | charged {id : Uuid} {amount : Int} {row charged : SessionKeyRow}
      (hfind : db.sessionKeys.find? id = some row)
      (hcharge : row.charge amount = .ok (some charged)) :
      Change db (.incrementSpent id amount) (1 : Nat)
        { db with sessionKeys := db.sessionKeys.replace charged }
  | keyRevoked (id agentId : Uuid) :
      Change db (.revokeSessionKey id agentId)
        (db.sessionKeys.selectWhere fun row =>
          row.id = id ∧ row.agentId = agentId).length
        (db.revokeKeys fun row => row.id = id ∧ row.agentId = agentId)
  | committed (tx : Tx) : Change db (.commit tx) () (db.commit tx)
  | notInserted (snapshot : Snapshot) (values : SpendValues)
      (limit? : Option Int)
      (hwithin : withinLimit snapshot values limit? = .ok false) :
      Change db (.insertSpend snapshot values limit?) (0 : Nat) db
  | inserted (snapshot : Snapshot) (values : SpendValues)
      (limit? : Option Int)
      (hwithin : withinLimit snapshot values limit? = .ok true)
      (hpos : 0 < values.amount)
      (hnew : ¬ db.spendLedger.HasKey values.txNonce) :
      Change db (.insertSpend snapshot values limit?) (1 : Nat)
        { db with spendLedger :=
            db.spendLedger.insert (values.row snapshot.now hpos) hnew }

end Db

theorem Query.run_change {now : Micros} {freshId : Uuid} {db db' : Db}
    {query : Query} {answer : query.Answer}
    (h : query.run now freshId db = .ok (answer, db')) :
    db.Change query answer db' := by
  cases query with
  | insertAgent name ownerAddress =>
      simp only [run, Db.insertAgent] at h
      split at h
      · rename_i hnew
        split at h
        · cases h
        · cases h
          exact .agentInserted _ hnew rfl
      · cases h
  | insertRule agentId ruleType ruleParams =>
      simp only [run, Db.insertRule] at h
      split at h
      · split at h
        · cases h
          exact .rulesWritten _ (by simp only [Query.WritesRules]) _
        · cases h
      · cases h
  | updateRule id agentId ruleType ruleParams isActive =>
      cases h
      exact .rulesWritten _ (by simp only [Query.WritesRules]) _
  | deactivateRule id agentId =>
      cases h
      exact .rulesWritten _ (by simp only [Query.WritesRules]) _
  | insertSessionKey agentId publicKey maxSpend allowed expiresAt =>
      simp only [run, Db.insertSessionKey] at h
      split at h
      · split at h
        · rename_i hnew
          split at h
          · cases h
          · split at h
            · rename_i hagent
              cases h
              exact .keyInserted _ hnew rfl rfl rfl hagent
            · cases h
        · cases h
      · cases h
  | incrementSpent id amount =>
      simp only [run, Db.incrementSpent] at h
      split at h
      · cases h
        exact .notCharged id amount
      · rename_i row hfind
        rw [except_bind_eq_ok] at h
        obtain ⟨charged, hcharge, h⟩ := h
        cases charged with
        | none =>
            cases h
            exact .notCharged id amount
        | some charged =>
            cases h
            exact .charged hfind hcharge
  | revokeSessionKey id agentId =>
      cases h
      exact .keyRevoked id agentId
  | commit tx =>
      cases h
      exact .committed tx
  | deactivateInTx tx agentId =>
      simp only [run] at h
      split at h <;> cases h <;> exact .read _ trivial
  | sumLast24h agentId =>
      simp only [run, except_bind_eq_ok] at h
      obtain ⟨total, _, h⟩ := h
      cases h
      exact .read _ trivial
  | insertSpend snapshot values limit? =>
      simp only [run, Db.insertSpend, except_bind_eq_ok] at h
      obtain ⟨within, hwithin, h⟩ := h
      cases within with
      | false =>
          cases h
          exact .notInserted snapshot values limit? hwithin
      | true =>
          simp only [↓reduceIte] at h
          split at h
          · rename_i hpos
            split at h
            · rename_i hnew
              split at h
              · cases h
                exact .inserted snapshot values limit? hwithin hpos hnew
              · cases h
            · cases h
          · cases h
  | selectAgent id =>
      cases h
      exact .read _ trivial
  | selectActiveRules agentId =>
      cases h
      exact .read _ trivial
  | selectSessionKey id =>
      cases h
      exact .read _ trivial
  | begin =>
      cases h
      exact .read _ trivial
  | revokeAllInTx tx agentId =>
      cases h
      exact .read _ trivial
  | beginSpend =>
      cases h
      exact .read _ trivial

theorem SessionKeyRow.charge_eq_some {row charged : SessionKeyRow}
    {amount : Int} (h : row.charge amount = .ok (some charged)) :
    row.isRevoked = false ∧ charged.id = row.id ∧
      charged.agentId = row.agentId ∧ charged.maxSpend = row.maxSpend ∧
      charged.isRevoked = false ∧ charged.spent = row.spent + amount := by
  unfold charge at h
  split at h
  · cases h
  · rename_i hrevoked
    simp only [except_bind_eq_ok, bigint_eq_ok_iff] at h
    obtain ⟨spent, ⟨_, rfl⟩, h⟩ := h
    split at h
    · split at h
      · cases h
        have hactive : row.isRevoked = false := by simpa using hrevoked
        exact ⟨hactive, rfl, rfl, rfl, hactive, rfl⟩
      · cases h
    · cases h

/-- What never changes about a key, and what cannot be undone. -/
structure SessionKeyRow.Evolves (old new : SessionKeyRow) : Prop where
  agentId : new.agentId = old.agentId
  maxSpend : new.maxSpend = old.maxSpend
  revoked : old.isRevoked = true → new.isRevoked = true

theorem SessionKeyRow.Evolves.refl (row : SessionKeyRow) : row.Evolves row :=
  ⟨rfl, rfl, fun h => h⟩

theorem SessionKeyRow.Evolves.trans {first second third : SessionKeyRow}
    (h : first.Evolves second) (h' : second.Evolves third) :
    first.Evolves third :=
  ⟨h'.agentId.trans h.agentId, h'.maxSpend.trans h.maxSpend,
    fun hrevoked => h'.revoked (h.revoked hrevoked)⟩

/-- The spent counter of a key, zero for a key that does not exist. -/
def Db.spent (db : Db) (key : Uuid) : Int :=
  match db.sessionKeys.find? key with
  | some row => row.spent
  | none => 0

/-- What an answered query charged to `key`. -/
def Query.charge (key : Uuid) : (query : Query) → query.Answer → Int
  | .incrementSpent id amount, affected =>
      if id = key then affected * amount else 0
  | _, _ => 0

namespace Db

variable {db db' : Db} {query : Query} {answer : query.Answer}

theorem find?_revokeKeys {p : SessionKeyRow → Prop} [DecidablePred p]
    {key : Uuid} :
    (db.revokeKeys p).sessionKeys.find? key =
      (db.sessionKeys.find? key).map fun row =>
        if p row then { row with isRevoked := true } else row := by
  rw [revokeKeys, KeyedTable.find?_updateWhere]

theorem revokeKeys_evolves {p : SessionKeyRow → Prop} [DecidablePred p]
    {key : Uuid} {row : SessionKeyRow}
    (hrow : db.sessionKeys.find? key = some row) :
    ∃ row', (db.revokeKeys p).sessionKeys.find? key = some row' ∧
      row.Evolves row' ∧ row'.spent = row.spent := by
  rw [find?_revokeKeys, hrow, Option.map_some]
  by_cases hp : p row
  · exact ⟨_, rfl, by simpa [hp] using ⟨rfl, rfl, fun _ => rfl⟩, by simp [hp]⟩
  · exact ⟨_, rfl, by simpa [hp] using .refl row, by simp [hp]⟩

/-- Every key of the database stays, under its agent and with its budget, and
stays revoked once it is. -/
theorem Change.key_evolves (h : db.Change query answer db') {key : Uuid}
    {row : SessionKeyRow} (hrow : db.sessionKeys.find? key = some row) :
    ∃ row', db'.sessionKeys.find? key = some row' ∧ row.Evolves row' := by
  cases h with
  | keyInserted new hnew =>
      exact ⟨row, KeyedTable.find?_insert_of_find? hnew hrow, .refl row⟩
  | @charged id amount old charged hfind hcharge =>
      obtain ⟨_, hid, hagent, hmax, _, _⟩ :=
        SessionKeyRow.charge_eq_some hcharge
      have hold := (KeyedTable.find?_eq_some_iff.mp hfind).2
      rw [KeyedTable.find?_replace]
      by_cases hkey : charged.id = key
      · have heq : old = row := by
          rw [← hkey, hid, hold, hfind] at hrow
          exact Option.some.inj hrow
        subst heq
        exact ⟨charged, by simp [hkey, hrow], hagent, hmax, fun hrevoked => by
          simp_all⟩
      · exact ⟨row, by simp [hkey, hrow], .refl row⟩
  | keyRevoked id agentId =>
      obtain ⟨row', hrow', hevolves, _⟩ := revokeKeys_evolves
        (p := fun row => row.id = id ∧ row.agentId = agentId) hrow
      exact ⟨row', hrow', hevolves⟩
  | committed tx =>
      obtain ⟨row', hrow', hevolves, _⟩ := revokeKeys_evolves
        (p := fun row => row.id ∈ tx.revokedKeys) hrow
      exact ⟨row', hrow', hevolves⟩
  | _ => exact ⟨row, hrow, .refl row⟩

theorem spent_revokeKeys {p : SessionKeyRow → Prop} [DecidablePred p]
    (key : Uuid) : (db.revokeKeys p).spent key = db.spent key := by
  simp only [spent]
  cases hrow : db.sessionKeys.find? key with
  | none => simp [find?_revokeKeys, hrow]
  | some row =>
      obtain ⟨row', hrow', _, hspent⟩ := revokeKeys_evolves (p := p) hrow
      simp [hrow', hspent]

/-- The counter of a key moves by exactly what is charged to it. -/
theorem Change.spent (h : db.Change query answer db') (key : Uuid) :
    db'.spent key = db.spent key + query.charge key answer := by
  cases h with
  | keyInserted new hnew hspent =>
      simp only [Db.spent, Query.charge, KeyedTable.find?_insert,
        Int.add_zero]
      by_cases hkey : new.id = key
      · subst hkey
        rw [KeyedTable.find?_eq_none_iff.mpr hnew]
        simp [hspent]
      · simp [hkey]
  | @charged id amount old charged hfind hcharge =>
      obtain ⟨_, hid, _, _, _, hspent⟩ := SessionKeyRow.charge_eq_some hcharge
      have hold := (KeyedTable.find?_eq_some_iff.mp hfind).2
      simp only [Db.spent, Query.charge, KeyedTable.find?_replace, hid, hold]
      by_cases hkey : id = key
      · subst hkey
        simp [hfind, hspent]
      · simp [hkey]
  | notCharged id amount => simp [Query.charge]
  | keyRevoked id agentId => simp [Query.charge, spent_revokeKeys]
  | committed tx =>
      have hspent : (db.revokeKeys fun row =>
          row.id ∈ tx.revokedKeys).spent key = db.spent key :=
        spent_revokeKeys key
      simpa [Query.charge, Db.commit, deactivateAgents, Db.spent] using hspent
  | @read query answer hreads =>
      cases query <;> simp_all [Query.charge, Query.Reads]
  | @rulesWritten query answer hwrites rules =>
      cases query <;> simp_all [Query.charge, Query.WritesRules, Db.spent]
  | _ => simp [Query.charge, Db.spent]

/-- `key` names a revoked key. -/
def KeyRevoked (db : Db) (key : Uuid) : Prop :=
  ∃ row, db.sessionKeys.find? key = some row ∧ row.isRevoked = true

theorem Change.keeps_keyRevoked (h : db.Change query answer db') {key : Uuid}
    (hrevoked : db.KeyRevoked key) : db'.KeyRevoked key := by
  obtain ⟨row, hrow, hrevoked⟩ := hrevoked
  obtain ⟨row', hrow', hevolves⟩ := h.key_evolves hrow
  exact ⟨row', hrow', hevolves.revoked hrevoked⟩

theorem keyRevoked_revokeKeys {p : SessionKeyRow → Prop} [DecidablePred p]
    {key : Uuid} {row : SessionKeyRow}
    (hrow : db.sessionKeys.find? key = some row) (hp : p row) :
    (db.revokeKeys p).KeyRevoked key :=
  ⟨{ row with isRevoked := true }, by simp [find?_revokeKeys, hrow, hp], rfl⟩

theorem keyRevoked_commit {tx : Tx} {key : Uuid}
    (hkey : key ∈ tx.revokedKeys) (hexists : db.sessionKeys.HasKey key) :
    (db.commit tx).KeyRevoked key := by
  obtain ⟨row, hmem, hid⟩ := KeyedTable.hasKey_iff.mp hexists
  exact keyRevoked_revokeKeys (p := fun row => row.id ∈ tx.revokedKeys)
    (KeyedTable.find?_eq_some_iff.mpr ⟨hmem, hid⟩) (hid ▸ hkey)

theorem Change.keeps_sessionKey (h : db.Change query answer db')
    {key : Uuid} (hkey : db.sessionKeys.HasKey key) :
    db'.sessionKeys.HasKey key := by
  obtain ⟨row, hmem, hid⟩ := KeyedTable.hasKey_iff.mp hkey
  obtain ⟨row', hrow', _⟩ :=
    h.key_evolves (KeyedTable.find?_eq_some_iff.mpr ⟨hmem, hid⟩)
  exact KeyedTable.hasKey_iff.mpr
    ⟨row', KeyedTable.find?_eq_some_iff.mp hrow'⟩

/-- A key of the new database was there before, or has just been created. -/
theorem Change.key_origin (h : db.Change query answer db')
    {row' : SessionKeyRow} (hrow' : row' ∈ db'.sessionKeys.rows) :
    (∃ row ∈ db.sessionKeys.rows, row.id = row'.id ∧ row.Evolves row') ∨
      ∃ publicKey maxSpend allowed expiresAt, query =
        .insertSessionKey row'.agentId publicKey maxSpend allowed expiresAt := by
  have hrevoke : ∀ (p : SessionKeyRow → Prop) [DecidablePred p],
      row' ∈ (db.revokeKeys p).sessionKeys.rows →
      ∃ row ∈ db.sessionKeys.rows, row.id = row'.id ∧ row.Evolves row' := by
    intro p _ hmem
    rw [revokeKeys, KeyedTable.mem_updateWhere] at hmem
    obtain ⟨row, hrow, rfl⟩ := hmem
    refine ⟨row, hrow, ?_⟩
    split
    · exact ⟨rfl, rfl, rfl, fun _ => rfl⟩
    · exact ⟨rfl, .refl row⟩
  cases h with
  | keyInserted new hnew _ _ howner =>
      rcases List.mem_append.mp hrow' with hold | hfresh
      · exact Or.inl ⟨row', hold, rfl, .refl row'⟩
      · rw [List.mem_singleton] at hfresh
        subst hfresh howner
        exact Or.inr ⟨_, _, _, _, rfl⟩
  | @charged id amount old charged hfind hcharge =>
      obtain ⟨hactive, hid, hagent, hmax, _, _⟩ :=
        SessionKeyRow.charge_eq_some hcharge
      obtain ⟨row, hrow, rfl⟩ := List.mem_map.mp hrow'
      split
      · exact Or.inl ⟨old, (KeyedTable.find?_eq_some_iff.mp hfind).1,
          hid.symm, hagent, hmax, fun hrevoked => by simp_all⟩
      · exact Or.inl ⟨row, hrow, rfl, .refl row⟩
  | keyRevoked id agentId =>
      exact Or.inl (hrevoke (fun row => row.id = id ∧ row.agentId = agentId)
        hrow')
  | committed tx =>
      exact Or.inl (hrevoke (fun row => row.id ∈ tx.revokedKeys) hrow')
  | _ => exact Or.inl ⟨row', hrow', rfl, .refl row'⟩

/-- `agentId` names an agent that is not active. -/
def AgentInactive (db : Db) (agentId : Uuid) : Prop :=
  ∃ agent, db.agents.find? agentId = some agent ∧ agent.isActive = false

theorem find?_deactivateAgents {ids : List Uuid} {agentId : Uuid} :
    (db.deactivateAgents ids).agents.find? agentId =
      (db.agents.find? agentId).map fun agent =>
        if agent.id ∈ ids then { agent with isActive := false }
        else agent := by
  rw [deactivateAgents, KeyedTable.find?_updateWhere]

theorem Change.agent_evolves (h : db.Change query answer db')
    {agentId : Uuid} {agent : Agent}
    (hagent : db.agents.find? agentId = some agent) :
    ∃ agent', db'.agents.find? agentId = some agent' ∧
      (agent.isActive = false → agent'.isActive = false) := by
  cases h with
  | agentInserted new hnew =>
      exact ⟨agent, KeyedTable.find?_insert_of_find? hnew hagent, fun h => h⟩
  | committed tx =>
      refine ⟨_, by rw [commit, find?_deactivateAgents, revokeKeys, hagent,
        Option.map_some], fun hinactive => ?_⟩
      split
      · rfl
      · exact hinactive
  | _ => exact ⟨agent, hagent, fun h => h⟩

theorem Change.keeps_agentInactive (h : db.Change query answer db')
    {agentId : Uuid} (hinactive : db.AgentInactive agentId) :
    db'.AgentInactive agentId := by
  obtain ⟨agent, hagent, hinactive⟩ := hinactive
  obtain ⟨agent', hagent', himp⟩ := h.agent_evolves hagent
  exact ⟨agent', hagent', himp hinactive⟩

theorem Change.keeps_agent (h : db.Change query answer db')
    {agentId : Uuid} (hagent : db.agents.HasKey agentId) :
    db'.agents.HasKey agentId := by
  obtain ⟨agent, hmem, hid⟩ := KeyedTable.hasKey_iff.mp hagent
  obtain ⟨agent', hagent', _⟩ :=
    h.agent_evolves (KeyedTable.find?_eq_some_iff.mpr ⟨hmem, hid⟩)
  exact KeyedTable.hasKey_iff.mpr
    ⟨agent', KeyedTable.find?_eq_some_iff.mp hagent'⟩

theorem agentInactive_commit {tx : Tx} {agentId : Uuid}
    (hmem : agentId ∈ tx.deactivatedAgents)
    (hexists : db.agents.HasKey agentId) :
    (db.commit tx).AgentInactive agentId := by
  obtain ⟨agent, hagent, rfl⟩ := KeyedTable.hasKey_iff.mp hexists
  refine ⟨{ agent with isActive := false }, ?_, rfl⟩
  rw [commit, find?_deactivateAgents, revokeKeys,
    KeyedTable.find?_eq_some_iff.mpr ⟨hagent, rfl⟩]
  simp [hmem]

/-- An agent is inactive only if it was, or has just been deactivated. -/
theorem Change.agentInactive_origin (h : db.Change query answer db')
    {agentId : Uuid} (hinactive : db'.AgentInactive agentId) :
    db.AgentInactive agentId ∨
      ∃ tx, query = .commit tx ∧ agentId ∈ tx.deactivatedAgents := by
  cases h with
  | agentInserted new hnew hactive =>
      obtain ⟨agent, hagent, hinactive⟩ := hinactive
      rw [KeyedTable.find?_insert] at hagent
      split at hagent
      · cases hagent
        rw [hactive] at hinactive
        cases hinactive
      · exact Or.inl ⟨agent, hagent, hinactive⟩
  | committed tx =>
      obtain ⟨agent, hagent, hinactive⟩ := hinactive
      rw [commit, find?_deactivateAgents, revokeKeys,
        Option.map_eq_some_iff] at hagent
      obtain ⟨old, hold, rfl⟩ := hagent
      split at hinactive
      · rename_i hmem
        have hid := (KeyedTable.find?_eq_some_iff.mp hold).2
        exact Or.inr ⟨tx, rfl, hid ▸ hmem⟩
      · exact Or.inl ⟨old, hold, hinactive⟩
  | _ => exact Or.inl hinactive

/-- Only the queries of the rules write rules. -/
theorem Change.guardrailRules (h : db.Change query answer db')
    (hquery : ¬ query.WritesRules) :
    db'.guardrailRules = db.guardrailRules := by
  cases h with
  | rulesWritten answer hwrites => exact absurd hwrites hquery
  | _ => rfl

/-- The ledger is append-only, and only a reservation appends to it. -/
theorem Change.spendLedger (h : db.Change query answer db') :
    db'.spendLedger = db.spendLedger ∨
      ∃ snapshot values limit? hpos hnew,
        query = .insertSpend snapshot values limit? ∧
        withinLimit snapshot values limit? = .ok true ∧
        db'.spendLedger =
          db.spendLedger.insert (values.row snapshot.now hpos) hnew := by
  cases h with
  | inserted snapshot values limit? hwithin hpos hnew =>
      exact Or.inr ⟨snapshot, values, limit?, hpos, hnew, rfl, hwithin, rfl⟩
  | _ => exact Or.inl rfl

theorem Change.keeps_nonce (h : db.Change query answer db')
    {nonce : String} (hnonce : db.spendLedger.HasKey nonce) :
    db'.spendLedger.HasKey nonce := by
  rcases h.spendLedger with heq | ⟨_, _, _, _, hnew, _, _, heq⟩
  · rwa [heq]
  · rw [heq, KeyedTable.hasKey_insert]
    exact Or.inl hnonce

/-- A reservation that inserts a row has found it within the limit. -/
theorem Change.inserted_within {snapshot : Snapshot} {values : SpendValues}
    {limit? : Option Int} {affected : Nat}
    (h : db.Change (.insertSpend snapshot values limit?) affected db')
    (hpos : 0 < affected) :
    withinLimit snapshot values limit? = .ok true := by
  cases h with
  | inserted _ _ _ hwithin => exact hwithin
  | notInserted => exact absurd hpos (Nat.lt_irrefl 0)
  | read _ hreads => exact hreads.elim
  | rulesWritten _ hwrites _ => exact hwrites.elim

/-- A reservation that inserts a row uses a nonce that no row had. -/
theorem Change.inserted_row {snapshot : Snapshot} {values : SpendValues}
    {limit? : Option Int}
    (h : db.Change (.insertSpend snapshot values limit?) (1 : Nat) db') :
    ¬ db.spendLedger.HasKey values.txNonce ∧
      db'.spendLedger.HasKey values.txNonce := by
  cases h with
  | inserted _ _ _ _ hpos hnew =>
      exact ⟨hnew, (KeyedTable.hasKey_insert hnew).mpr (Or.inr rfl)⟩
  | read _ hreads => exact hreads.elim
  | rulesWritten _ hwrites _ => exact hwrites.elim

end Db

end X402Guard

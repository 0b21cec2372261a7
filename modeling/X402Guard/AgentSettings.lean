/-
What management settles for an agent: the agent itself, its rules and the terms
of its session keys.  A query changes the settings of the agents that it
manages, and of no other.
-/
import X402Guard.DatabaseChanges

universe u v w

namespace KeyedTable

variable {Row : Type u} {Key : Type v} {key : Row → Key} {γ : Type w}
variable {table : KeyedTable Row key} {p : Row → Prop} [DecidablePred p]

theorem selectWhere_insert {row : Row} (hnew : ¬ table.HasKey (key row))
    (hrow : ¬ p row) :
    (table.insert row hnew).selectWhere p = table.selectWhere p := by
  simp [selectWhere, hrow]

theorem filter_map_keeps {f : Row → Row} (g : Row → γ) {rows : List Row}
    (hkeep : ∀ row ∈ rows,
      (p (f row) ↔ p row) ∧ (p row → g (f row) = g row)) :
    ((rows.map f).filter fun row => decide (p row)).map g =
      (rows.filter fun row => decide (p row)).map g := by
  induction rows with
  | nil => rfl
  | cons row rows ih =>
      rw [List.forall_mem_cons] at hkeep
      obtain ⟨⟨hsame, hseen⟩, hrows⟩ := hkeep
      rw [List.map_cons, List.filter_cons, List.filter_cons]
      by_cases hrow : p row
      · rw [if_pos (decide_eq_true (hsame.mpr hrow)),
          if_pos (decide_eq_true hrow), List.map_cons, List.map_cons, ih hrows,
          hseen hrow]
      · rw [if_neg (by simpa using fun h => hrow (hsame.mp h)),
          if_neg (by simpa using hrow), ih hrows]

/-- An update of rows outside the selection is not seen. -/
theorem map_selectWhere_updateWhere {q : Row → Prop} [DecidablePred q]
    {f : Row → Row} (hkey : ∀ row, key (f row) = key row) (g : Row → γ)
    (hother : ∀ row ∈ table.rows, q row → ¬ p row ∧ ¬ p (f row)) :
    ((table.updateWhere q f hkey).selectWhere p).map g =
      (table.selectWhere p).map g := by
  refine filter_map_keeps g fun row hrow => ?_
  split
  · rename_i hq
    obtain ⟨hbefore, hafter⟩ := hother row hrow hq
    exact ⟨iff_of_false hafter hbefore, fun h => absurd h hbefore⟩
  · exact ⟨Iff.rfl, fun _ => rfl⟩

/-- Neither is a replacement by a row that looks the same. -/
theorem map_selectWhere_replace [DecidableEq Key] {old row : Row}
    (hold : table.find? (key row) = some old) (g : Row → γ)
    (hsame : p row ↔ p old) (hseen : g row = g old) :
    ((table.replace row).selectWhere p).map g =
      (table.selectWhere p).map g := by
  refine filter_map_keeps g fun other hother => ?_
  split
  · rename_i hkey
    have heq : other = old := by
      have hfound := find?_eq_some_iff.mpr ⟨hother, hkey⟩
      exact Option.some.inj (hfound.symm.trans hold)
    rw [heq]
    exact ⟨hsame, fun _ => hseen⟩
  · exact ⟨Iff.rfl, fun _ => rfl⟩

end KeyedTable

namespace X402Guard

/-- A session key but for what has been spent of it. -/
structure KeyTerms where
  id : Uuid
  agentId : Uuid
  publicKey : String
  maxSpend : Int
  allowedContracts : Value
  expiresAt : Int
  isRevoked : Bool

def SessionKeyRow.terms (row : SessionKeyRow) : KeyTerms :=
  ⟨row.id, row.agentId, row.publicKey, row.maxSpend, row.allowedContracts,
    row.expiresAt, row.isRevoked⟩

/-- The agent, its rules and the terms of its keys. -/
structure AgentSettings where
  agent : Option Agent
  rules : List GuardrailRow
  keys : List KeyTerms

def Db.settings (db : Db) (agentId : Uuid) : AgentSettings where
  agent := db.agents.find? agentId
  rules := db.guardrailRules.selectWhere fun row => row.agentId = agentId
  keys := (db.sessionKeys.selectWhere fun row => row.agentId = agentId).map
    SessionKeyRow.terms

/-- The query can change settings of the agent: it is about the agent, or it
commits what was gathered of it. -/
def Query.Manages (db : Db) (agentId : Uuid) : Query → Prop
  | .insertRule owner .. | .updateRule _ owner .. | .deactivateRule _ owner
  | .insertSessionKey owner .. | .revokeSessionKey _ owner => owner = agentId
  | .commit tx => agentId ∈ tx.deactivatedAgents ∨
      ∃ row ∈ db.sessionKeys.rows, row.id ∈ tx.revokedKeys ∧
        row.agentId = agentId
  | _ => False

namespace Db

variable {db db' : Db} {agentId : Uuid}

theorem settings_eq (hagent : db'.agents.find? agentId =
      db.agents.find? agentId)
    (hrules : (db'.guardrailRules.selectWhere fun row =>
        row.agentId = agentId) =
      db.guardrailRules.selectWhere fun row => row.agentId = agentId)
    (hkeys : (db'.sessionKeys.selectWhere fun row =>
        row.agentId = agentId).map SessionKeyRow.terms =
      (db.sessionKeys.selectWhere fun row => row.agentId = agentId).map
        SessionKeyRow.terms) :
    db'.settings agentId = db.settings agentId := by
  rw [settings, settings, hagent, hrules, hkeys]

/-- An update of the rules of another agent. -/
theorem selectWhere_updateRule {ruleId owner : Uuid}
    {f : GuardrailRow → GuardrailRow} {hkey : ∀ row, (f row).id = row.id}
    (hagent : ∀ row, (f row).agentId = row.agentId) (hne : owner ≠ agentId) :
    ((db.updateRule ruleId owner f hkey).2.guardrailRules.selectWhere
        fun row => row.agentId = agentId) =
      db.guardrailRules.selectWhere fun row => row.agentId = agentId := by
  have hsame : ((db.updateRule ruleId owner f
        hkey).2.guardrailRules.selectWhere fun row =>
          row.agentId = agentId).map id =
      (db.guardrailRules.selectWhere fun row =>
        row.agentId = agentId).map id := by
    refine KeyedTable.map_selectWhere_updateWhere hkey id ?_
    rintro row _ ⟨_, rfl⟩
    exact ⟨hne, by rwa [hagent]⟩
  rwa [List.map_id, List.map_id] at hsame

/-- Revoking keys of other agents. -/
theorem keys_revokeKeys {q : SessionKeyRow → Prop} [DecidablePred q]
    (hother : ∀ row ∈ db.sessionKeys.rows, q row → row.agentId ≠ agentId) :
    ((db.revokeKeys q).sessionKeys.selectWhere fun row =>
        row.agentId = agentId).map SessionKeyRow.terms =
      (db.sessionKeys.selectWhere fun row => row.agentId = agentId).map
        SessionKeyRow.terms := by
  refine KeyedTable.map_selectWhere_updateWhere
    (p := fun row : SessionKeyRow => row.agentId = agentId) (q := q)
    (f := fun row => { row with isRevoked := true })
    (fun _ => rfl) _ fun row hrow hq => ?_
  exact ⟨hother row hrow hq, hother row hrow hq⟩

/-- A charge leaves the terms of the key as they are. -/
theorem terms_charge {row charged : SessionKeyRow} {amount : Int}
    (h : row.charge amount = .ok (some charged)) :
    charged.terms = row.terms := by
  simp only [SessionKeyRow.charge] at h
  split at h
  · cases h
  · rw [except_bind_eq_ok] at h
    obtain ⟨spent, _, h⟩ := h
    split at h
    · split at h
      · cases h
        rfl
      · cases h
    · cases h

end Db

/-- A query leaves the settings of an agent that it does not manage. -/
theorem Query.run_settings {now : Micros} {freshId agentId : Uuid}
    {db db' : Db} {query : Query} {answer : query.Answer}
    (h : query.run now freshId db = .ok (answer, db'))
    (hagent : db.agents.HasKey agentId) (hother : ¬ query.Manages db agentId) :
    db'.settings agentId = db.settings agentId := by
  cases query with
  | insertAgent name ownerAddress =>
      simp only [run, Db.insertAgent] at h
      split at h
      · rename_i hnew
        split at h
        · cases h
        · cases h
          refine Db.settings_eq ?_ rfl rfl
          rw [KeyedTable.find?_insert, if_neg]
          rintro rfl
          exact hnew hagent
      · cases h
  | insertRule owner ruleType ruleParams =>
      have hne : owner ≠ agentId := hother
      simp only [run, Db.insertRule] at h
      split at h
      · rename_i hnew
        split at h
        · cases h
          refine Db.settings_eq rfl ?_ rfl
          exact KeyedTable.selectWhere_insert hnew hne
        · cases h
      · cases h
  | updateRule id owner ruleType ruleParams isActive =>
      cases h
      exact Db.settings_eq rfl
        (Db.selectWhere_updateRule (fun _ => rfl) hother) rfl
  | deactivateRule id owner =>
      cases h
      exact Db.settings_eq rfl
        (Db.selectWhere_updateRule (fun _ => rfl) hother) rfl
  | insertSessionKey owner publicKey maxSpend allowed expiresAt =>
      have hne : owner ≠ agentId := hother
      simp only [run, Db.insertSessionKey] at h
      split at h
      · split at h
        · rename_i hnew
          split at h
          · cases h
          · split at h
            · cases h
              refine Db.settings_eq rfl rfl ?_
              exact congrArg (List.map SessionKeyRow.terms)
                (KeyedTable.selectWhere_insert hnew hne)
            · cases h
        · cases h
      · cases h
  | incrementSpent id amount =>
      simp only [run, Db.incrementSpent] at h
      split at h
      · cases h
        rfl
      · rename_i row hrow
        rw [except_bind_eq_ok] at h
        obtain ⟨charged?, hcharge, h⟩ := h
        cases charged? with
        | none =>
            cases h
            rfl
        | some charged =>
            cases h
            have hterms := Db.terms_charge hcharge
            have hid : charged.id = row.id := congrArg KeyTerms.id hterms
            have howner : charged.agentId = row.agentId :=
              congrArg KeyTerms.agentId hterms
            have hold := (KeyedTable.find?_eq_some_iff.mp hrow).2
            refine Db.settings_eq rfl rfl ?_
            refine KeyedTable.map_selectWhere_replace ?_ SessionKeyRow.terms
              ?_ hterms
            · rw [hid, hold, hrow]
            · rw [howner]
  | revokeSessionKey id owner =>
      cases h
      refine Db.settings_eq rfl rfl (Db.keys_revokeKeys ?_)
      rintro row _ ⟨_, rfl⟩
      exact hother
  | commit tx =>
      cases h
      obtain ⟨hactive, hkeys⟩ := not_or.mp hother
      refine Db.settings_eq ?_ rfl (Db.keys_revokeKeys ?_)
      · rw [Db.commit, Db.find?_deactivateAgents, Db.revokeKeys]
        cases hfind : db.agents.find? agentId with
        | none => rfl
        | some agent =>
            have hid := (KeyedTable.find?_eq_some_iff.mp hfind).2
            rw [Option.map_some, if_neg (by rwa [hid])]
      · intro row hrow hrevoked heq
        exact hkeys ⟨row, hrow, hrevoked, heq⟩
  | insertSpend snapshot values limit? =>
      have hchange := Query.run_change h
      cases hchange with
      | rulesWritten _ hwrites => exact hwrites.elim
      | _ => rfl
  | deactivateInTx tx owner =>
      simp only [run] at h
      split at h <;> cases h <;> rfl
  | sumLast24h owner =>
      simp only [run, except_bind_eq_ok] at h
      obtain ⟨_, _, heq⟩ := h
      cases heq
      rfl
  | _ =>
      cases h
      rfl

end X402Guard

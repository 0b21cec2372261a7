/-
Guardrail rules as rows.  A rule is stored as a name and a JSON value and read
back by matches of its own, so what is written must be what is read, and a row
that cannot be read must not go unnoticed.
-/
import Mathlib.Data.List.Forall2
import X402Guard.ExactVerdicts

namespace X402Guard

open Interaction Prog

/-- What is read is what was written. -/
theorem rowToRuleType_ruleTypeParams {ruleType : RuleType}
    (h : ruleType.InRange) :
    rowToRuleType (ruleTypeName ruleType) (ruleTypeParams ruleType) =
      .ok ruleType := by
  cases ruleType with
  | maxSpendPerTx limit => rfl
  | maxSpendPerDay limit => rfl
  | allowedContracts addresses =>
      change (do
        let addresses ← okOr _ (Value.ofStrings addresses).toStrings
        return RuleType.allowedContracts addresses) = Except.ok _
      rw [Value.toStrings_ofStrings]
      rfl
  | maxLeverage max =>
      change (do
        let max ← okOr _ (u32TryFrom max)
        return RuleType.maxLeverage max) = Except.ok _
      rw [u32TryFrom_eq_some_iff.mpr ⟨h, rfl⟩]
      rfl
  | maxSlippage bps =>
      change (do
        let bps ← okOr _ (u32TryFrom bps)
        return RuleType.maxSlippage bps) = Except.ok _
      rw [u32TryFrom_eq_some_iff.mpr ⟨h, rfl⟩]
      rfl

namespace GuardrailRow

/-- The row holds the rule: its id, agent and state, and a type that its name
and its parameters stand for. -/
structure Encodes (row : GuardrailRow) (rule : GuardrailRule) : Prop where
  id : rule.id = row.id
  agentId : rule.agentId = row.agentId
  isActive : rule.isActive = row.isActive
  ruleType : rowToRuleType row.ruleType row.ruleParams = .ok rule.ruleType

theorem encodes_iff {row : GuardrailRow} {rule : GuardrailRule} :
    rowToRule row = .ok rule ↔ row.Encodes rule := by
  rw [rowToRule, except_bind_eq_ok]
  constructor
  · rintro ⟨ruleType, htype, ⟨⟩⟩
    exact ⟨rfl, rfl, rfl, htype⟩
  · intro h
    refine ⟨rule.ruleType, h.ruleType, ?_⟩
    rw [← h.id, ← h.agentId, ← h.isActive]
    rfl

/-- A row that was written for a rule type holds it. -/
theorem encodes_written {row : GuardrailRow} {ruleType : RuleType}
    (h : ruleType.InRange) (hname : row.ruleType = ruleTypeName ruleType)
    (hparams : row.ruleParams = ruleTypeParams ruleType) :
    row.Encodes ⟨row.id, row.agentId, ruleType, row.isActive⟩ where
  id := rfl
  agentId := rfl
  isActive := rfl
  ruleType := by rw [hname, hparams, rowToRuleType_ruleTypeParams h]

end GuardrailRow

/-- All rows are read, in their order, or none. -/
theorem rowsToRules_eq_ok_iff {rows : List GuardrailRow}
    {rules : List GuardrailRule} :
    rowsToRules rows = .ok rules ↔
      List.Forall₂ GuardrailRow.Encodes rows rules := by
  induction rows generalizing rules with
  | nil =>
      rw [List.forall₂_nil_left_iff, eq_comm]
      simp [rowsToRules, pure, Except.pure]
  | cons row rows ih =>
      simp only [rowsToRules] at ih
      simp only [rowsToRules, List.mapM_cons, except_bind_eq_ok,
        GuardrailRow.encodes_iff, ih, List.forall₂_cons_left_iff]
      constructor
      · rintro ⟨rule, hrule, rest, hrest, ⟨⟩⟩
        exact ⟨rule, rest, hrule, hrest, rfl⟩
      · rintro ⟨rule, rest, hrule, hrest, rfl⟩
        exact ⟨rule, hrule, rest, hrest, rfl⟩

/-- Rows that can all be read are read. -/
theorem exists_rowsToRules {rows : List GuardrailRow}
    (h : ∀ row ∈ rows, ∃ rule, rowToRule row = .ok rule) :
    ∃ rules, rowsToRules rows = .ok rules := by
  induction rows with
  | nil => exact ⟨[], rfl⟩
  | cons row rows ih =>
      rw [List.forall_mem_cons] at h
      obtain ⟨rule, hrule⟩ := h.1
      obtain ⟨rules, hrules⟩ := ih h.2
      rw [GuardrailRow.encodes_iff] at hrule
      rw [rowsToRules_eq_ok_iff] at hrules
      exact ⟨rule :: rules, rowsToRules_eq_ok_iff.mpr (.cons hrule hrules)⟩

/-- Every rule that was read is that of a row. -/
theorem exists_row_of_mem {rows : List GuardrailRow}
    {rules : List GuardrailRule}
    (h : List.Forall₂ GuardrailRow.Encodes rows rules) :
    ∀ rule ∈ rules, ∃ row ∈ rows, row.Encodes rule := by
  induction h with
  | nil => simp
  | @cons row rule rows rules hrule _ ih =>
      rw [List.forall_mem_cons]
      refine ⟨⟨row, List.mem_cons_self, hrule⟩, fun other hother => ?_⟩
      obtain ⟨found, hfound, hencodes⟩ := ih other hother
      exact ⟨found, List.mem_cons_of_mem row hfound, hencodes⟩

namespace Db

/-- From `db` to `db'` the rule was stored and no other row of the table was
touched. -/
structure StoresRule (db db' : Db) (rule : GuardrailRule) : Prop where
  stored : ∃ row, db'.guardrailRules.find? rule.id = some row ∧
    rowToRule row = .ok rule
  others : ∀ id, id ≠ rule.id →
    db'.guardrailRules.find? id = db.guardrailRules.find? id

/-- The repository failed and left the rules as they were, or returned a rule
as expected and stored it. -/
def WritesRule (db db' : Db) (Expected : GuardrailRule → Prop) :
    Except String GuardrailRule → Prop
  | .error _ => ∀ id,
      db'.guardrailRules.find? id = db.guardrailRules.find? id
  | .ok rule => Expected rule ∧ db.StoresRule db' rule

variable {db db' : Db} {freshId ruleId agentId : Uuid}
variable {ruleType : RuleType} {row : GuardrailRow}

/-- The inserted row holds the rule, active, for the agent. -/
theorem insertRule_stores (hrange : ruleType.InRange)
    (h : db.insertRule freshId agentId (ruleTypeName ruleType)
      (ruleTypeParams ruleType) = .ok (row, db')) :
    ∃ rule, rowToRule row = .ok rule ∧ rule.agentId = agentId ∧
      rule.ruleType = ruleType ∧ rule.isActive = true ∧
      db.StoresRule db' rule := by
  rw [insertRule] at h
  split at h
  · rename_i hnew
    split at h
    · cases h
      have hrule : rowToRule ⟨freshId, agentId, ruleTypeName ruleType,
          ruleTypeParams ruleType, true⟩ =
            .ok ⟨freshId, agentId, ruleType, true⟩ :=
        GuardrailRow.encodes_iff.mpr
          (GuardrailRow.encodes_written hrange rfl rfl)
      refine ⟨_, hrule, rfl, rfl, rfl, ⟨_, ?_, hrule⟩, fun id hid => ?_⟩
      · rw [KeyedTable.find?_insert, if_pos rfl]
      · rw [KeyedTable.find?_insert, if_neg (Ne.symm hid)]
    · cases h
  · cases h

section Update

variable {f : GuardrailRow → GuardrailRow}

/-- An update that finds no row of the agent changes nothing. -/
theorem updateRule_none {hkey : ∀ row, (f row).id = row.id}
    (h : db.updateRule ruleId agentId f hkey = (none, db'))
    (hagent : ∀ row, (f row).agentId = row.agentId) (id : Uuid) :
    db'.guardrailRules.find? id = db.guardrailRules.find? id := by
  rw [updateRule, Prod.mk.injEq, List.find?_eq_none] at h
  obtain ⟨hnone, rfl⟩ := h
  rw [KeyedTable.find?_updateWhere]
  cases hfind : db.guardrailRules.find? id with
  | none => rfl
  | some old =>
      rw [Option.map_some, if_neg]
      intro hold
      have hmem := KeyedTable.mem_updateWhere (f := f)
        (p := fun row => row.id = ruleId ∧ row.agentId = agentId) hkey |>.mpr
        ⟨old, (KeyedTable.find?_eq_some_iff.mp hfind).1, if_pos hold⟩
      exact hnone _ hmem (by simpa [hkey, hagent] using hold)

/-- An update changes the row that it answers, and no other. -/
theorem updateRule_some {hkey : ∀ row, (f row).id = row.id}
    (h : db.updateRule ruleId agentId f hkey = (some row, db')) :
    row.id = ruleId ∧ row.agentId = agentId ∧ (∃ old, row = f old) ∧
      db'.guardrailRules.find? ruleId = some row ∧
      ∀ id, id ≠ ruleId →
        db'.guardrailRules.find? id = db.guardrailRules.find? id := by
  rw [updateRule, Prod.mk.injEq] at h
  obtain ⟨hfound, rfl⟩ := h
  have hmem := List.mem_of_find?_eq_some hfound
  obtain ⟨hid, howner⟩ : row.id = ruleId ∧ row.agentId = agentId := by
    simpa using List.find?_some hfound
  refine ⟨hid, howner, ?_, KeyedTable.find?_eq_some_iff.mpr ⟨hmem, hid⟩, ?_⟩
  · obtain ⟨old, _, hold⟩ := (KeyedTable.mem_updateWhere hkey).mp hmem
    split at hold
    · exact ⟨old, hold.symm⟩
    · -- a row that was not changed would have been one to change
      rename_i hother
      exact absurd (hold ▸ ⟨hid, howner⟩) hother
  · intro id hid
    rw [KeyedTable.find?_updateWhere]
    cases hfind : db.guardrailRules.find? id with
    | none => rfl
    | some old =>
        have hold := (KeyedTable.find?_eq_some_iff.mp hfind).2
        rw [Option.map_some, if_neg]
        rintro ⟨hsame, _⟩
        exact hid (hold.symm.trans hsame)

end Update

/-- The rules are those of the active rows of the agent: one for each row, in
the order of the table. -/
def ActiveRules (db : Db) (agentId : Uuid) (rules : List GuardrailRule) :
    Prop :=
  List.Forall₂ GuardrailRow.Encodes
    (db.guardrailRules.selectWhere fun row =>
      row.agentId = agentId ∧ row.isActive = true) rules

theorem ActiveRules.of_mem {rules : List GuardrailRule}
    (h : db.ActiveRules agentId rules) :
    ∀ rule ∈ rules, rule.agentId = agentId ∧ rule.isActive = true := by
  intro rule hrule
  obtain ⟨row, hrow, hencodes⟩ := exists_row_of_mem h rule hrule
  obtain ⟨_, hagent, hactive⟩ := KeyedTable.mem_selectWhere.mp hrow
  exact ⟨hencodes.agentId.trans hagent, hencodes.isActive.trans hactive⟩

end Db

section Alone

variable {s s' : Shared} {agentId ruleId : Uuid}
variable {ruleType : RuleType} {isActive : Bool}

theorem Repo.Guardrails.create_solo {result : Except String GuardrailRule}
    (hrange : ruleType.InRange)
    (h : (create agentId ruleType).Solo proxySemantics s result s') :
    s.db.WritesRule s'.db (fun rule => rule.agentId = agentId ∧
      rule.ruleType = ruleType ∧ rule.isActive = true) result := by
  rcases solo_bind_iff.mp h with ⟨error, hquery, rfl⟩ |
    ⟨row, t, hquery, hread⟩
  · rw [Repo.query_solo_error hquery]
    exact fun id => rfl
  · obtain ⟨freshId, db', hrun, rfl⟩ := Repo.query_solo_ok hquery
    obtain ⟨rfl, rfl⟩ := solo_lift_iff.mp hread
    obtain ⟨rule, hrule, hagent, htype, hactive, hstores⟩ :=
      Db.insertRule_stores hrange hrun
    rw [hrule]
    exact ⟨⟨hagent, htype, hactive⟩, hstores⟩

theorem Repo.Guardrails.update_solo {result : Except String GuardrailRule}
    (hrange : ruleType.InRange)
    (h : (update ruleId agentId ruleType isActive).Solo proxySemantics s
      result s') :
    s.db.WritesRule s'.db (· = ⟨ruleId, agentId, ruleType, isActive⟩)
      result := by
  rcases solo_bind_iff.mp h with ⟨error, hquery, rfl⟩ |
    ⟨row?, t, hquery, hread⟩
  · rw [Repo.query_solo_error hquery]
    exact fun id => rfl
  · obtain ⟨freshId, db', hrun, rfl⟩ := Repo.query_solo_ok hquery
    rw [Query.run, Except.ok.injEq] at hrun
    cases row? with
    | none =>
        obtain ⟨rfl, rfl⟩ := solo_throw_iff.mp hread
        exact Db.updateRule_none hrun fun _ => rfl
    | some row =>
        obtain ⟨rfl, rfl⟩ := solo_lift_iff.mp hread
        obtain ⟨rfl, rfl, ⟨old, hold⟩, hfind, hothers⟩ :=
          Db.updateRule_some hrun
        have hrule : rowToRule row =
            .ok ⟨row.id, row.agentId, ruleType, row.isActive⟩ :=
          GuardrailRow.encodes_iff.mpr
            (GuardrailRow.encodes_written hrange (by rw [hold]) (by rw [hold]))
        have hactive : row.isActive = isActive := by rw [hold]
        rw [hactive] at hrule
        rw [hrule]
        exact ⟨rfl, ⟨row, hfind, hrule⟩, hothers⟩

theorem Repo.Guardrails.findActiveByAgent_solo
    {result : Except String (List GuardrailRule)}
    (h : (findActiveByAgent agentId).Solo proxySemantics s result s') :
    s' = s ∧ ((∃ message, result = .error message) ∨
      ∃ rules, result = .ok rules ∧ s.db.ActiveRules agentId rules) := by
  rcases solo_bind_iff.mp h with ⟨error, hquery, rfl⟩ |
    ⟨rows, t, hquery, hread⟩
  · exact ⟨Repo.query_solo_error hquery, Or.inl ⟨error, rfl⟩⟩
  · obtain ⟨rfl, rfl⟩ := Repo.read_solo_ok hquery fun _ => rfl
    obtain ⟨hresult, rfl⟩ := solo_lift_iff.mp hread
    refine ⟨rfl, ?_⟩
    cases result with
    | error message => exact Or.inl ⟨message, rfl⟩
    | ok rules =>
        exact Or.inr ⟨rules, rfl, rowsToRules_eq_ok_iff.mp hresult⟩

/-- A query that is answered fails only for a row that cannot be read. -/
theorem Repo.Guardrails.exists_findActiveByAgent {outcome : Outcome}
    (hfine : outcome.fails = false)
    (h : ∀ row ∈ s.db.guardrailRules.rows, row.agentId = agentId →
      row.isActive = true → ∃ rule, rowToRule row = .ok rule) :
    ∃ rules, ((findActiveByAgent agentId).alone proxySemantics outcome s).1 =
      .ok rules := by
  obtain ⟨rules, hrules⟩ : ∃ rules, rowsToRules
      (s.db.guardrailRules.selectWhere fun row =>
        row.agentId = agentId ∧ row.isActive = true) = .ok rules := by
    apply exists_rowsToRules
    intro row hrow
    obtain ⟨hmem, hagent, hactive⟩ := KeyedTable.mem_selectWhere.mp hrow
    exact h row hmem hagent hactive
  refine ⟨rules, ?_⟩
  rw [findActiveByAgent, alone_bind, Repo.query_alone_of_ok hfine rfl]
  simp only [hrules]
  rfl

end Alone

open Repo.Guardrails in
/-- What is written is read back as it was, and reading the rules of an agent
fails as a whole or gives one rule for each active row of that agent. -/
theorem storedRules_exact :
    (∀ ruleType : RuleType, ruleType.InRange →
      rowToRuleType (ruleTypeName ruleType) (ruleTypeParams ruleType) =
        .ok ruleType) ∧
    (∀ agentId ruleType s result s', ruleType.InRange →
      (create agentId ruleType).Solo proxySemantics s result s' →
      s.db.WritesRule s'.db (fun rule => rule.agentId = agentId ∧
        rule.ruleType = ruleType ∧ rule.isActive = true) result) ∧
    (∀ ruleId agentId ruleType isActive s result s', ruleType.InRange →
      (update ruleId agentId ruleType isActive).Solo proxySemantics s
        result s' →
      s.db.WritesRule s'.db (· = ⟨ruleId, agentId, ruleType, isActive⟩)
        result) ∧
    (∀ agentId s result s',
      (findActiveByAgent agentId).Solo proxySemantics s result s' →
      s' = s ∧ ((∃ message, result = .error message) ∨
        ∃ rules, result = .ok rules ∧ s.db.ActiveRules agentId rules ∧
          ∀ rule ∈ rules, rule.agentId = agentId ∧ rule.isActive = true)) ∧
    ∀ agentId outcome (s : Shared), outcome.fails = false →
      (∀ row ∈ s.db.guardrailRules.rows, row.agentId = agentId →
        row.isActive = true → ∃ rule, rowToRule row = .ok rule) →
      ∃ rules, ((findActiveByAgent agentId).alone proxySemantics outcome
        s).1 = .ok rules := by
  refine ⟨fun _ => rowToRuleType_ruleTypeParams, ?_, ?_, ?_, ?_⟩
  · intro agentId ruleType s result s' hrange h
    exact create_solo hrange h
  · intro ruleId agentId ruleType isActive s result s' hrange h
    exact update_solo hrange h
  · intro agentId s result s' h
    obtain ⟨hsame, hfailed | ⟨rules, hresult, hrules⟩⟩ :=
      findActiveByAgent_solo h
    · exact ⟨hsame, Or.inl hfailed⟩
    · exact ⟨hsame, Or.inr ⟨rules, hresult, hrules, hrules.of_mem⟩⟩
  · intro agentId outcome s hfine h
    exact exists_findActiveByAgent hfine h

open Repo.Guardrails in
/-- The largest limit of leverage, written for an agent that has a daily rule,
and the rules that the agent had before. -/
theorem storedRules_exact_sample :
    let s := Shared.start 0 (Sample.db (some (.maxSpendPerDay u64Max)) none)
    let created := (create Sample.agentId (.maxLeverage (2 ^ 32 - 1))).alone
      proxySemantics Sample.fine s
    s.db.WritesRule created.2.db (fun rule =>
        rule.agentId = Sample.agentId ∧
          rule.ruleType = .maxLeverage (2 ^ 32 - 1) ∧ rule.isActive = true)
        created.1 ∧
      ∃ rules, ((findActiveByAgent Sample.agentId).alone proxySemantics
        Sample.fine s).1 = .ok rules ∧ rules.length = 1 := by
  intro s created
  obtain ⟨_, hcreate, _, hfind, hanswered⟩ := storedRules_exact
  have hrange : (RuleType.maxLeverage (2 ^ 32 - 1)).InRange := by decide
  refine ⟨hcreate _ _ _ _ _ hrange (solo_alone _ _ _), ?_⟩
  obtain ⟨rules, hrules⟩ := hanswered Sample.agentId Sample.fine s rfl <| by
    intro row hrow _ _
    obtain rfl := List.mem_singleton.mp hrow
    have hdaily : (RuleType.maxSpendPerDay u64Max).InRange := by decide
    exact ⟨_, GuardrailRow.encodes_iff.mpr
      (GuardrailRow.encodes_written hdaily rfl rfl)⟩
  refine ⟨rules, hrules, ?_⟩
  obtain ⟨_, ⟨message, hfailed⟩ | ⟨_, hresult, hactive, _⟩⟩ :=
    hfind Sample.agentId s _ _ (solo_alone Sample.fine _ s)
  · rw [hrules] at hfailed
    cases hfailed
  · rw [hrules] at hresult
    cases hresult
    have hone : (s.db.guardrailRules.selectWhere fun row =>
        row.agentId = Sample.agentId ∧ row.isActive = true).length = 1 := by
      decide
    rw [← hone]
    exact hactive.length_eq.symm

end X402Guard

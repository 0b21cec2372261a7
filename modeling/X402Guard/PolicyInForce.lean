/-
The policy of an agent, as its management made it, and the requests forwarded
under it.  The policy is a function of the management calls that were answered;
the table of rules, its names and its JSON refine it, whatever else is going on.
-/
import X402Guard.CallHistory
import X402Guard.Forwarding
import X402Guard.StoredRules

namespace X402Guard

open Interaction Prog

variable {ext : Externals} {config : AppConfig}

/-- The numbers of a rule in a request are in the ranges of their types. -/
def Request.RulesInRange : Request → Prop
  | .createRule _ ruleType => ruleType.InRange
  | .updateRule _ _ ruleType _ => ruleType.InRange
  | _ => True

/-- The rules by their ids. -/
abbrev Policy := Uuid → Option GuardrailRule

/-- The policy after an operation was performed for a request: a rule was made,
changed or switched off as the request asked for. -/
def Policy.follow (policy : Policy) (performed : Request × Event Op Reply) :
    Policy :=
  match performed.1, performed.2 with
  | .createRule agentId ruleType,
      ⟨.postgres (.insertRule ..), .ok row, _, _⟩ =>
      Function.update policy row.id
        (some ⟨row.id, agentId, ruleType, true⟩)
  | .updateRule agentId ruleId ruleType isActive,
      ⟨.postgres (.updateRule ..), .ok (some _), _, _⟩ =>
      Function.update policy ruleId
        (some ⟨ruleId, agentId, ruleType, isActive⟩)
  | .deactivateRule _ ruleId,
      ⟨.postgres (.deactivateRule ..), .ok affected, _, _⟩ =>
      if affected = 0 then policy
      else Function.update policy ruleId
        ((policy ruleId).map fun rule => { rule with isActive := false })
  | _, _ => policy

/-- The policy that a history of operations has made. -/
def Policy.made (history : List (Request × Event Op Reply)) : Policy :=
  history.foldl Policy.follow fun _ => none

/-- The rule is in force for the agent. -/
def Policy.InForce (policy : Policy) (agentId : Uuid) (rule : GuardrailRule) :
    Prop :=
  (∃ id, policy id = some rule) ∧ rule.agentId = agentId ∧
    rule.isActive = true

/-- The table holds the policy: a row for each rule, which reads as it. -/
def Db.HoldsPolicy (db : Db) (policy : Policy) : Prop :=
  ∀ id, (db.guardrailRules.find? id).map rowToRule = (policy id).map .ok

theorem Db.HoldsPolicy.empty : Db.empty.HoldsPolicy fun _ => none :=
  fun _ => rfl

/-- Every row that was read is that of a rule. -/
theorem exists_rule_of_mem {rows : List GuardrailRow}
    {rules : List GuardrailRule}
    (h : List.Forall₂ GuardrailRow.Encodes rows rules) :
    ∀ row ∈ rows, ∃ rule ∈ rules, row.Encodes rule := by
  induction h with
  | nil => simp
  | @cons row rule rows rules hrule _ ih =>
      rw [List.forall_mem_cons]
      refine ⟨⟨rule, List.mem_cons_self, hrule⟩, fun other hother => ?_⟩
      obtain ⟨found, hfound, hencodes⟩ := ih other hother
      exact ⟨found, List.mem_cons_of_mem rule hfound, hencodes⟩

/-- The rules that a table holding the policy shows for an agent are those in
force for it. -/
theorem Db.HoldsPolicy.mem_activeRules {db : Db} {policy : Policy}
    {agentId : Uuid} {rules : List GuardrailRule}
    (h : db.HoldsPolicy policy) (hrules : db.ActiveRules agentId rules)
    {rule : GuardrailRule} (hrule : policy.InForce agentId rule) :
    rule ∈ rules := by
  obtain ⟨⟨id, hid⟩, hagent, hactive⟩ := hrule
  have hrow := h id
  rw [hid, Option.map_some, Option.map_eq_some_iff] at hrow
  obtain ⟨row, hfind, hread⟩ := hrow
  have hencodes := GuardrailRow.encodes_iff.mp hread
  have hmem : row ∈ db.guardrailRules.selectWhere fun row =>
      row.agentId = agentId ∧ row.isActive = true :=
    KeyedTable.mem_selectWhere.mpr
      ⟨(KeyedTable.find?_eq_some_iff.mp hfind).1,
        hencodes.agentId.symm.trans hagent,
        hencodes.isActive.symm.trans hactive⟩
  obtain ⟨other, hother, hboth⟩ := exists_rule_of_mem hrules row hmem
  have hsame : (Except.ok other : Except String GuardrailRule) = .ok rule :=
    (GuardrailRow.encodes_iff.mpr hboth).symm.trans hread
  cases hsame
  exact hother

/-- An operation that writes rules writes what the request asks for. -/
def Request.WritesOwn (request : Request) : Op → Prop
  | .postgres (.insertRule agentId name params) =>
      ∃ ruleType, request = .createRule agentId ruleType ∧
        name = ruleTypeName ruleType ∧ params = ruleTypeParams ruleType
  | .postgres (.updateRule ruleId agentId name params isActive) =>
      ∃ ruleType, request = .updateRule agentId ruleId ruleType isActive ∧
        name = ruleTypeName ruleType ∧ params = ruleTypeParams ruleType
  | .postgres (.deactivateRule ruleId agentId) =>
      request = .deactivateRule agentId ruleId
  | _ => True

theorem Request.WritesOwn.of_stage {request : Request} {op : Op}
    (h : op.stage ≠ 12) : request.WritesOwn op := by
  unfold WritesOwn
  split
  · exact absurd rfl h
  · exact absurd rfl h
  · exact absurd rfl h
  · trivial

theorem handle_writesOwn (request : Request) :
    (handle ext config request).Within request.WritesOwn := by
  have hagent : ∀ id, request.WritesOwn (.postgres (.selectAgent id)) :=
    fun _ => trivial
  have hissues : (handle ext config request).Within request.Issues :=
    handle_issues request
  cases request with
  | forwardRequest req =>
      exact hissues.mono fun op (hop : op.stage ≤ 11) =>
        .of_stage (by omega)
  | createSessionKey agentId req =>
      exact hissues.mono fun op (hop : op.stage ≤ 7 ∨ op.stage = 13) =>
        .of_stage (by omega)
  | revokeAll agentId req =>
      exact hissues.mono fun op (hop : op.stage ≤ 7 ∨ op.stage = 14) =>
        .of_stage (by omega)
  | createAgent req =>
      refine Within.map ?_
      refine Within.bind (within_lift _ _) fun _ => ?_
      refine Within.bind (within_lift _ _) fun _ => ?_
      refine Within.bind (within_mapError.mpr
        (Repo.query_within trivial)) fun _ => ?_
      exact Within.bind (emit_within trivial) fun _ => trivial
  | getAgent id =>
      exact Within.map (Within.bind (requireAgent_within (hagent id))
        fun _ => trivial)
  | createRule agentId ruleType =>
      refine Within.map ?_
      refine Within.bind (requireAgent_within (hagent agentId)) fun _ => ?_
      exact Within.bind (within_mapError.mpr (Within.bind
        (Repo.query_within ⟨ruleType, rfl, rfl, rfl⟩)
        fun _ => within_lift _ _)) fun _ => trivial
  | updateRule agentId ruleId ruleType isActive =>
      refine Within.map (Within.bind (within_mapError.mpr (Within.bind
        (Repo.query_within ⟨ruleType, rfl, rfl, rfl⟩) fun row? => ?_))
        fun _ => trivial)
      cases row? with
      | none => trivial
      | some row => exact within_lift _ _
  | deactivateRule agentId ruleId =>
      refine Within.map (Within.bind (within_mapError.mpr (Within.bind
        (Repo.query_within rfl) fun affected => ?_)) fun _ => trivial)
      split <;> trivial
  | getSessionKey agentId keyId =>
      refine Within.map ?_
      refine Within.bind (within_mapError.mpr
        (findSessionKey_within trivial)) fun _ => ?_
      refine Within.bind (within_lift _ _) fun _ => ?_
      exact Within.bind (within_lift _ _) fun _ => trivial
  | revokeSessionKey agentId keyId =>
      refine Within.map (Within.bind (within_mapError.mpr (Within.bind
        (Repo.query_within trivial) fun affected => ?_))
        fun _ => Within.bind (emit_within trivial) fun _ => trivial)
      split <;> trivial

section Step

variable {db db' : Db} {policy : Policy} {agentId ruleId : Uuid}
variable {ruleType : RuleType} {row : GuardrailRow}

/-- The table holds a policy that changed at one id, if it changed there
alone. -/
theorem Db.HoldsPolicy.update (h : db.HoldsPolicy policy) {id : Uuid}
    {rule? : Option GuardrailRule}
    (hid : (db'.guardrailRules.find? id).map rowToRule = rule?.map .ok)
    (hothers : ∀ other, other ≠ id →
      db'.guardrailRules.find? other = db.guardrailRules.find? other) :
    db'.HoldsPolicy (Function.update policy id rule?) := by
  intro other
  by_cases hother : other = id
  · subst hother
    rw [Function.update_self, hid]
  · rw [Function.update_of_ne hother, hothers other hother, h other]

theorem Db.HoldsPolicy.congr (h : db.HoldsPolicy policy)
    (hsame : ∀ id, db'.guardrailRules.find? id =
      db.guardrailRules.find? id) : db'.HoldsPolicy policy :=
  fun id => by rw [hsame, h id]

theorem Db.HoldsPolicy.insertRule (h : db.HoldsPolicy policy)
    {freshId : Uuid} (hrange : ruleType.InRange)
    (hrun : db.insertRule freshId agentId (ruleTypeName ruleType)
      (ruleTypeParams ruleType) = .ok (row, db')) :
    db'.HoldsPolicy (Function.update policy row.id
      (some ⟨row.id, agentId, ruleType, true⟩)) := by
  obtain ⟨rule, hread, hagent, htype, hactive, ⟨stored, hfind, hstored⟩,
    hothers⟩ := Db.insertRule_stores hrange hrun
  have hid : rule.id = row.id := (GuardrailRow.encodes_iff.mp hread).id
  have hrule : rule = ⟨row.id, agentId, ruleType, true⟩ := by
    rw [← hid, ← hagent, ← htype, ← hactive]
  rw [hid] at hfind hothers
  refine h.update ?_ hothers
  rw [hfind, Option.map_some, Option.map_some, hstored, hrule]

theorem Db.HoldsPolicy.updateRule (h : db.HoldsPolicy policy)
    {isActive : Bool} {hkey : ∀ row : GuardrailRow, _ = row.id}
    (hrange : ruleType.InRange)
    (hrun : db.updateRule ruleId agentId (fun row => { row with
      ruleType := ruleTypeName ruleType
      ruleParams := ruleTypeParams ruleType
      isActive }) hkey = (some row, db')) :
    db'.HoldsPolicy (Function.update policy ruleId
      (some ⟨ruleId, agentId, ruleType, isActive⟩)) := by
  obtain ⟨rfl, rfl, ⟨old, hold⟩, hfind, hothers⟩ := Db.updateRule_some hrun
  have hencodes : row.Encodes ⟨row.id, row.agentId, ruleType, row.isActive⟩ :=
    GuardrailRow.encodes_written hrange (by rw [hold]) (by rw [hold])
  have hactive : row.isActive = isActive := by rw [hold]
  rw [hactive] at hencodes
  refine h.update ?_ hothers
  rw [hfind, Option.map_some, Option.map_some,
    GuardrailRow.encodes_iff.mpr hencodes]

/-- Switching a rule off keeps the rest of its row. -/
theorem Db.HoldsPolicy.deactivateRule (h : db.HoldsPolicy policy)
    {hkey : ∀ row : GuardrailRow, _ = row.id}
    (hrun : db.updateRule ruleId agentId
      (fun row => { row with isActive := false }) hkey = (some row, db')) :
    db'.HoldsPolicy (Function.update policy ruleId
      ((policy ruleId).map fun rule => { rule with isActive := false })) := by
  obtain ⟨hid, howner, ⟨_, hoff⟩, hfind, hothers⟩ := Db.updateRule_some hrun
  obtain ⟨_, rfl⟩ := Prod.mk.inj hrun
  refine h.update ?_ hothers
  have hstored := hfind
  rw [KeyedTable.find?_updateWhere, Option.map_eq_some_iff] at hstored
  obtain ⟨old, hold, hrow⟩ := hstored
  have hrule := h ruleId
  rw [hold, Option.map_some, eq_comm, Option.map_eq_some_iff] at hrule
  obtain ⟨rule, hpolicy, hread⟩ := hrule
  have hencodes := GuardrailRow.encodes_iff.mp hread.symm
  have hafter : row.Encodes { rule with isActive := false } := by
    split at hrow
    · rw [← hrow]
      exact ⟨hencodes.id, hencodes.agentId, rfl, hencodes.ruleType⟩
    · -- the row is the agent's, so it was one to switch off
      rename_i hother
      rw [hrow] at hother
      exact absurd ⟨hid, howner⟩ hother
  rw [hfind, hpolicy, Option.map_some, Option.map_some, Option.map_some,
    GuardrailRow.encodes_iff.mpr hafter]

end Step

/-- A query failed and changed nothing, or was run. -/
theorem perform_postgres_runs (query : Query) (outcome : Outcome)
    (s : Shared) :
    (∃ error, perform (.postgres query) outcome s = (.error error, s)) ∨
      ∃ answer db', perform (.postgres query) outcome s =
        (.ok answer, { s with db := db' }) ∧
        query.run s.now outcome.freshId s.db = .ok (answer, db') := by
  simp only [perform]
  split
  · exact Or.inl ⟨_, rfl⟩
  · split
    · rename_i answer db' hrun
      exact Or.inr ⟨answer, db', rfl, hrun⟩
    · exact Or.inl ⟨_, rfl⟩

/-- Nothing but an answered query of the rules changes the policy. -/
theorem Policy.follow_of_not_writes {policy : Policy} {request : Request}
    {event : Event Op Reply}
    (h : ∀ query, event.op = .postgres query → ¬ query.WritesRules) :
    policy.follow (request, event) = policy := by
  unfold Policy.follow
  split
  · rename_i hevent
    exact absurd trivial (h (.insertRule ..) (congrArg Event.op hevent))
  · rename_i hevent
    exact absurd trivial (h (.updateRule ..) (congrArg Event.op hevent))
  · rename_i hevent
    exact absurd trivial (h (.deactivateRule ..) (congrArg Event.op hevent))
  · rfl

theorem Policy.follow_error {policy : Policy} {request : Request}
    {query : Query} {error : DbError} {order time : Nat} :
    policy.follow (request,
      ⟨.postgres query, .error error, order, time⟩) = policy := by
  unfold Policy.follow
  split
  · rename_i hevent
    cases hevent
  · rename_i hevent
    cases hevent
  · rename_i hevent
    cases hevent
  · rfl

/-- Whatever is performed for a request, the table goes on holding the
policy. -/
theorem perform_holdsPolicy {request : Request} {op : Op} {s : Shared}
    {policy : Policy} (hown : request.WritesOwn op)
    (hrange : request.RulesInRange) (h : s.db.HoldsPolicy policy)
    (outcome : Outcome) (order time : Nat) :
    (perform op outcome s).2.db.HoldsPolicy (policy.follow
      (request, ⟨op, (perform op outcome s).1, order, time⟩)) := by
  by_cases hop : ∃ query, op = .postgres query ∧ query.WritesRules
  · obtain ⟨query, rfl, hwrites⟩ := hop
    rcases perform_postgres_runs query outcome s with
      ⟨error, heq⟩ | ⟨answer, db', heq, hrun⟩
    · rw [heq, Policy.follow_error]
      exact h
    · rw [heq]
      cases query with
      | insertRule agentId name params =>
          obtain ⟨ruleType, rfl, rfl, rfl⟩ := hown
          exact h.insertRule hrange hrun
      | updateRule ruleId agentId name params isActive =>
          obtain ⟨ruleType, rfl, rfl, rfl⟩ := hown
          cases answer with
          | none =>
              exact h.congr (Db.updateRule_none (Except.ok.inj hrun)
                fun _ => rfl)
          | some row => exact h.updateRule hrange (Except.ok.inj hrun)
      | deactivateRule ruleId agentId =>
          obtain rfl : request = .deactivateRule agentId ruleId := hown
          simp only [Query.run, Except.ok.injEq, Prod.mk.injEq] at hrun
          obtain ⟨row?, hupdate, rfl⟩ : ∃ row?, s.db.updateRule ruleId agentId
              (fun row => { row with isActive := false }) (fun _ => rfl) =
              (row?, db') ∧ answer = row?.toList.length :=
            ⟨_, Prod.ext rfl hrun.2, hrun.1.symm⟩
          cases row? with
          | none => exact h.congr (Db.updateRule_none hupdate fun _ => rfl)
          | some row => exact h.deactivateRule hupdate
      | _ => exact hwrites.elim
  · have hquery : ∀ query, op = .postgres query → ¬ query.WritesRules :=
      fun query heq hwrites => hop ⟨query, heq, hwrites⟩
    rw [Policy.follow_of_not_writes hquery]
    refine h.congr fun id => ?_
    by_cases hpostgres : ∃ query, op = .postgres query
    · obtain ⟨query, rfl⟩ := hpostgres
      rcases perform_postgres query outcome s with
        ⟨error, heq⟩ | ⟨answer, db', heq, hchange⟩
      · rw [heq]
      · rw [heq, hchange.guardrailRules (hquery query rfl)]
    · rw [perform_db_of_ne fun query heq => hpostgres ⟨query, heq⟩]

/-- Every rule of the policy has numbers in the ranges of their types. -/
def Policy.InRange (policy : Policy) : Prop :=
  ∀ id rule, policy id = some rule → rule.ruleType.InRange

theorem Policy.InRange.update {policy : Policy} (h : policy.InRange)
    {id : Uuid} {rule? : Option GuardrailRule}
    (hrule : ∀ rule, rule? = some rule → rule.ruleType.InRange) :
    Policy.InRange (Function.update policy id rule?) := by
  intro other rule hother
  rw [Function.update_apply] at hother
  split at hother
  · exact hrule rule hother
  · exact h other rule hother

theorem Policy.InRange.follow {policy : Policy} (h : policy.InRange)
    {request : Request} {event : Event Op Reply}
    (hrange : request.RulesInRange) :
    Policy.InRange (policy.follow (request, event)) := by
  unfold Policy.follow
  split
  · rename_i hrequest _
    obtain rfl := hrequest
    refine h.update fun rule hrule => ?_
    cases hrule
    exact hrange
  · rename_i hrequest _
    obtain rfl := hrequest
    refine h.update fun rule hrule => ?_
    cases hrule
    exact hrange
  · split
    · exact h
    · refine h.update fun rule hrule => ?_
      obtain ⟨old, hold, rfl⟩ := Option.map_eq_some_iff.mp hrule
      exact h _ old hold
  · exact h

section Run

variable {w : World (handle ext config) Shared} {now : Micros}
variable {steps : List (Taken (World (handle ext config) Shared)
  (Action Request Micros Outcome))}

/-- At every moment the table holds the policy made so far. -/
theorem holdsPolicy_made
    (trail : Trail (World.step proxySemantics)
      (World.start (handle ext config) (Shared.start now .empty)) steps w)
    (hrange : ∀ call ∈ w.calls, call.request.RulesInRange) :
    w.shared.db.HoldsPolicy
        (Policy.made (World.history proxySemantics steps)) ∧
      (Policy.made (World.history proxySemantics steps)).InRange := by
  refine World.refines
    (R := fun s policy => s.db.HoldsPolicy policy ∧ policy.InRange)
    (P := Request.RulesInRange) Policy.follow trail
    ⟨Db.HoldsPolicy.empty, fun _ _ hrule => by cases hrule⟩ hrange ?_ ?_
  · intro time s policy h
    exact h
  intro s call op next outcome policy order hrest hrequest h
  have hown : call.request.WritesOwn op := by
    have hwithin := (handle_writesOwn call.request).rest call.reached
    rw [hrest] at hwithin
    exact hwithin.1
  exact ⟨perform_holdsPolicy hown hrequest h.1 outcome order _,
    h.2.follow hrequest⟩

/-- The call at `index` is in flight for `request` before the step, and has
not sent it. -/
def Unsent (index : Nat) (request : Request)
    (taken : Taken (World (handle ext config) Shared)
      (Action Request Micros Outcome)) : Prop :=
  ∃ call, taken.before.calls[index]? = some call ∧ call.request = request ∧
    forwarded call = false

/-- A query that a call ran before it sent its request was run at a step of the
run, on the database as it then was. -/
theorem exists_query_step
    (trail : Trail (World.step proxySemantics)
      (World.start (handle ext config) (Shared.start now .empty)) steps w)
    {index : Nat} {call : Call (handle ext config)}
    (hcall : w.calls[index]? = some call)
    {first second : List (Event Op Reply)} {query : Query}
    {answer : query.Answer} {order time : Nat}
    (htrace : call.trace =
      first ++ ⟨.postgres query, .ok answer, order, time⟩ :: second)
    (hunsent : ∀ event ∈ first, sent event = false) :
    ∃ earlier taken later, steps = earlier ++ taken :: later ∧
      Unsent index call.request taken ∧
      ∃ freshId db', query.run taken.before.shared.now freshId
        taken.before.shared.db = .ok (answer, db') := by
  obtain ⟨earlier, taken, later, before, hsteps, hperforms, hrequest,
    hbefore⟩ := World.exists_performsAt trail rfl hcall htrace
  refine ⟨earlier, taken, later, hsteps,
    ⟨before, hperforms.called, hrequest, ?_⟩, ?_⟩
  · rw [forwarded, hbefore, List.any_eq_false]
    intro event hevent
    rw [hunsent event hevent]
    exact Bool.false_ne_true
  · obtain ⟨outcome, _, hevent⟩ := hperforms.done
    have hreply : (perform (.postgres query) outcome
        taken.before.shared).1 = .ok answer := by
      simp only [World.stamp, Event.mk.injEq, heq_eq_eq, true_and] at hevent
      exact hevent.1.symm
    exact ⟨outcome.freshId, perform_postgres_run hreply⟩

/-- The sum that the ledger shows is one of 64 bits. -/
theorem sumLast24h_run {agentId : Uuid} {now : Micros} (freshId : Uuid)
    {db db' : Db} {total : ℤ}
    (h : (Query.sumLast24h agentId).run now freshId db = .ok (total, db')) :
    spentLast24h agentId now db.spendLedger.rows = total ∧
      total < 2 ^ 63 := by
  simp only [Query.run, except_bind_eq_ok, bigint_eq_ok_iff] at h
  obtain ⟨_, ⟨hrange, rfl⟩, heq⟩ := h
  cases heq
  exact ⟨rfl, hrange.2⟩

/-- The amount of a request is what its payment transfers. -/
theorem Received.Valid.paid {req : ProxyRequest} {received : Received}
    (h : received.Valid ext req) : received.verified.value.toNat ≤ u64Max ∧
      received.paymentAmount = received.verified.value.toNat := by
  obtain ⟨payment, nowSecs, _, hverify⟩ := h.verified
  simp only [verifyRequest, except_bind_eq_ok, okOr_eq_ok_iff,
    u64OfU256_eq_some_iff, pure, Except.pure, Except.ok.injEq] at hverify
  obtain ⟨verified, _, _, _, _, _, amount, ⟨hrange, rfl⟩, heq⟩ := hverify
  rw [← heq]
  exact ⟨hrange, rfl⟩

/-- The step of the guardrails, where it passes: the agent, its rules and its
sum are read, in this order, and the rules accept the payment. -/
theorem checkGuardrails_reads {req : ProxyRequest} {received : Received}
    {agentId : Uuid} {agentRules : Option (List GuardrailRule)}
    {trace : List (Event Op Reply)} (hagent : received.agentId = some agentId)
    (h : (checkGuardrails ext req received).Reaches trace (.ret agentRules)) :
    ∃ agentRead rows order₁ time₁ order₂ time₂ rules, ∃ dailySpent : ℕ,
      trace = [agentRead,
        ⟨.postgres (.selectActiveRules agentId), .ok rows, order₁, time₁⟩,
        ⟨.postgres (.sumLast24h agentId), .ok (dailySpent : ℤ),
          order₂, time₂⟩] ∧
      agentRead.op.stage = 7 ∧ rowsToRules rows = .ok rules ∧
      evaluate ext rules received.verified received.requirements dailySpent =
        .ok () := by
  simp only [checkGuardrails, hagent, reaches_bind_ret_iff,
    reaches_mapError_ret_iff, reaches_lift_ret_iff, rejectIf_eq_ok_iff,
    Repo.Agents.findById, Repo.Guardrails.findActiveByAgent,
    Repo.SpendLedger.sumLast24h, okOr_eq_ok_iff, u64TryFrom_eq_some_iff] at h
  obtain ⟨_, _, found, rfl, hagentQuery, _, _, agent, rfl, ⟨rfl, rfl⟩,
    _, _, _, rfl, ⟨rfl, hactive⟩, _, _, rules, rfl,
    ⟨_, _, rows, rfl, hrulesQuery, rfl, hrules⟩, _, _, dailySpent, rfl,
    ⟨_, _, total, rfl, hsumQuery, rfl, rfl⟩, hrest⟩ := h
  obtain ⟨order, time, rfl⟩ := Repo.query_reaches_ret_iff.mp hagentQuery
  obtain ⟨order₁, time₁, rfl⟩ := Repo.query_reaches_ret_iff.mp hrulesQuery
  obtain ⟨order₂, time₂, rfl⟩ := Repo.query_reaches_ret_iff.mp hsumQuery
  split at hrest
  · rename_i heval
    rw [pure_eq_ret, reaches_ret_iff] at hrest
    obtain ⟨rfl, _⟩ := hrest
    exact ⟨_, rows, order₁, time₁, order₂, time₂, rules, dailySpent, rfl, rfl,
      hrules, heval⟩
  · rw [reaches_bind_ret_iff] at hrest
    obtain ⟨_, _, _, _, _, hthrow⟩ := hrest
    rw [reaches_throw_iff] at hthrow
    cases hthrow.2

/-- A call that has sent its request has passed the guardrails before. -/
theorem forwardRequest_guarded {req : ProxyRequest}
    {trace : List (Event Op Reply)} {rest : Handler ProxyResponse}
    {event : Event Op Reply}
    (h : (forwardRequest ext config req).Reaches trace rest)
    (hevent : event ∈ trace) (hstage : 7 < event.op.stage) :
    ∃ received agentRules before checked after,
      trace = before ++ (checked ++ after) ∧ received.Valid ext req ∧
      (∀ event ∈ before, event.op.stage ≤ 6) ∧
      (checkGuardrails ext req received).Reaches checked (.ret agentRules) := by
  obtain ⟨received, t₁, _, rfl, h₁, h, hevent⟩ :=
    reaches_bind_of_mem h (receivePayment_within req) hevent
      (by unfold UpTo; omega)
  obtain ⟨_, t₂, _, rfl, h₂, h, hevent⟩ :=
    reaches_bind_of_mem h (checkSessionKey_within received) hevent
      (by unfold UpTo; omega)
  obtain ⟨agentRules, t₃, after, rfl, h₃, h, hevent⟩ :=
    reaches_bind_of_mem h (checkGuardrails_within req received) hevent
      (by unfold UpTo; omega)
  refine ⟨received, agentRules, t₁ ++ t₂, t₃, after, by simp,
    receivePayment_valid h₁, ?_, h₃⟩
  rw [List.forall_mem_append]
  exact ⟨fun e he => Nat.le_trans ((receivePayment_within req).of_mem h₁ e he)
    (Nat.zero_le 6), (checkSessionKey_within received).of_mem h₂⟩

/-- Whatever management calls are interleaved with it, a request that was
forwarded for an agent had, at one moment while it was in flight, every rule
satisfied that management had put in force for the agent by then: over whole
numbers, with what the ledger showed as spent at another such moment. -/
theorem forwarded_under_policy
    (trail : Trail (World.step proxySemantics)
      (World.start (handle ext config) (Shared.start now .empty)) steps w)
    (hrange : ∀ call ∈ w.calls, call.request.RulesInRange)
    {index : Nat} {call : Call (handle ext config)} {agentId : Uuid}
    (hcall : w.calls[index]? = some call)
    (hagent : call.request.agent ext = some agentId)
    (hforwarded : forwarded call = true) :
    ∃ req requirements, ∃ dailySpent : ℕ, call.request = .forwardRequest req ∧
      ext.decodeRequirements req.x402Requirements = .ok requirements ∧
      (∃ summed ∈ steps, Unsent index call.request summed ∧
        spentLast24h agentId summed.before.shared.now
          summed.before.shared.db.spendLedger.rows = dailySpent) ∧
      ∃ earlier checked later, steps = earlier ++ checked :: later ∧
        Unsent index call.request checked ∧
        ∀ rule, (Policy.made (World.history proxySemantics earlier)).InForce
          agentId rule → rule.ruleType.Satisfied ext requirements
            (call.request.amount ext) dailySpent := by
  obtain ⟨event, hevent, hsent⟩ := forwarded_iff.mp hforwarded
  have hstage := stage_of_sent hsent
  obtain ⟨req, rest, hreq, hreaches⟩ := forwards_of_spends hevent (by
    unfold Op.Spends
    omega)
  obtain ⟨received, agentRules, before, checked, after, htrace, hvalid,
    hearly, hchecked⟩ := forwardRequest_guarded hreaches hevent (by omega)
  obtain ⟨hnames, _, hamount, _⟩ := hvalid.names
  have hreceived : received.agentId = some agentId := by
    rw [hnames, ← hagent, hreq]
    rfl
  obtain ⟨agentRead, rows, order₁, time₁, order₂, time₂, rules, dailySpent,
    rfl, hread, hrules, heval⟩ := checkGuardrails_reads hreceived hchecked
  have hquiet : ∀ event ∈ before ++ [agentRead], sent event = false := by
    intro e he
    refine sent_eq_false ?_
    rcases List.mem_append.mp he with he | he
    · have := hearly e he
      omega
    · obtain rfl := List.mem_singleton.mp he
      omega
  let rulesRead : Event Op Reply :=
    ⟨.postgres (.selectActiveRules agentId), .ok rows, order₁, time₁⟩
  have hatRules : call.trace = (before ++ [agentRead]) ++ rulesRead ::
      ⟨.postgres (.sumLast24h agentId), .ok (dailySpent : ℤ), order₂,
        time₂⟩ :: after := by
    simp [htrace, rulesRead]
  have hatSum : call.trace = ((before ++ [agentRead]) ++ [rulesRead]) ++
      ⟨.postgres (.sumLast24h agentId), .ok (dailySpent : ℤ), order₂,
        time₂⟩ :: after := by
    simp [htrace, rulesRead]
  obtain ⟨earlier, checked, later, hsteps, hunsent, _, _, hrows⟩ :=
    exists_query_step trail hcall hatRules hquiet
  obtain ⟨_, summed, _, hsummed, hunsent', freshId, _, htotal⟩ :=
    exists_query_step trail hcall hatSum (by
      rw [List.forall_mem_append, List.forall_mem_singleton]
      exact ⟨hquiet, rfl⟩)
  obtain ⟨hsum, hbigint⟩ := sumLast24h_run freshId htotal
  have hpolicy := holdsPolicy_made (hsteps ▸ trail).cut.1 <|
    World.forall_requests_before trail hrange checked (by simp [hsteps])
  have hactive : checked.before.shared.db.ActiveRules agentId rules := by
    rw [Db.ActiveRules, ← rowsToRules_eq_ok_iff, ← hrules]
    cases hrows
    rfl
  obtain ⟨hvalue, hpaid⟩ := hvalid.paid
  refine ⟨req, received.requirements, dailySpent, hreq, hvalid.requirements,
    ⟨summed, by simp [hsummed], hunsent', hsum⟩,
    earlier, checked, later, hsteps, hunsent, ?_⟩
  intro rule hrule
  have hmem := hpolicy.1.mem_activeRules hactive hrule
  obtain ⟨⟨id, hid⟩, _, hon⟩ := hrule
  have hamountOf : call.request.amount ext =
      received.verified.value.toNat := by
    rw [← hpaid, hamount, hreq]
    rfl
  rw [hamountOf]
  exact (evaluateSingle_eq_ok_iff ext (hpolicy.2 id rule hid) hvalue
    (by rw [u64Max]; omega)).mp
      ((evaluate_eq_ok_iff ext).mp heval rule hmem hon)

end Run

/-! ### A sample run -/

namespace Sample

def dailySixty : GuardrailRule :=
  ⟨ruleId, agentId, .maxSpendPerDay 60_000_000, true⟩

/-- The sample rule is stored when more than two calls have come. -/
def RuleThere (count : ℕ) (s : Shared) : Prop :=
  2 < count →
    (s.db.guardrailRules.find? ruleId).map rowToRule = some (.ok dailySixty)

instance (count : ℕ) (s : Shared) : Decidable (RuleThere count s) :=
  inferInstanceAs (Decidable (_ → _))

end Sample

/-- The agent is created, and a rule for it; its first payment is of just the
amount of the rule, which is in force before the payment is checked. -/
theorem forwarded_under_policy_sample : ∃ steps w earlier checked later,
    Trail (World.step proxySemantics)
      (World.start (handle Sample.externals Sample.config)
        (Shared.start 1_700_000_100_000_000 .empty)) steps w ∧
    steps = earlier ++ checked :: later ∧
    Unsent 2 (.forwardRequest (Sample.request .first true false)) checked ∧
    (Policy.made (World.history proxySemantics earlier)).InForce
      Sample.agentId Sample.dailySixty ∧
    ∃ dailySpent : ℕ, Sample.dailySixty.ruleType.Satisfied Sample.externals
      Sample.requirements 60_000_000 dailySpent := by
  have hrun : ∃ w, Run (World.step proxySemantics)
      (fun w _ => Sample.RuleThere w.calls.length w.shared)
      (World.start (handle Sample.externals Sample.config)
        (Shared.start 1_700_000_100_000_000 .empty)) w ∧
      Sample.sentFlags w.toReplay = [false, false, true] ∧
      w.calls.map Call.request =
        [.createAgent ⟨"trader", Sample.signerText⟩,
          .createRule Sample.agentId (.maxSpendPerDay 60_000_000),
          .forwardRequest (Sample.request .first true false)] := by
    refine World.exists_run_of_replay Sample.sentFlags
      (fun r _ => decide (Sample.RuleThere r.threads.length r.shared))
      (fun w action h => ?_)
      ([.arrive (.createAgent ⟨"trader", Sample.signerText⟩),
        .advance 0 ⟨false, Sample.agentId, .notSent ""⟩,
        .arrive (.createRule Sample.agentId (.maxSpendPerDay 60_000_000))] ++
        (Sample.advance 1 1 ++
          (.advance 1 ⟨false, Sample.ruleId, .notSent ""⟩ ::
            .arrive (.forwardRequest (Sample.request .first true false)) ::
            Sample.advance 2 14))) ?_
    · have hthere := of_decide_eq_true h
      simpa [World.toReplay] using hthere
    · simp only [List.map_append, List.map_cons, List.map_nil,
        Sample.withProgram_forward, Sample.map_advance]
      decide
  obtain ⟨w, run, hseen, hrequests⟩ := hrun
  obtain ⟨steps, trail, hthere⟩ := run.exists_trail
  rw [Sample.sentFlags_toReplay] at hseen
  have hrange : ∀ call ∈ w.calls, call.request.RulesInRange := by
    have hall : ∀ request ∈ w.calls.map Call.request,
        request.RulesInRange := by
      rw [hrequests]
      simp [Request.RulesInRange, RuleType.InRange, u64Max]
    simpa using hall
  obtain ⟨call, hindex, hcall⟩ : ∃ call, w.calls[2]? = some call ∧
      call.request = .forwardRequest (Sample.request .first true false) := by
    have hget := congrArg (·[2]?) hrequests
    simpa [Option.map_eq_some_iff] using hget
  have hsent : forwarded call = true := by
    have hget := congrArg (·[2]?) hseen
    simpa [hindex] using hget
  obtain ⟨req, requirements, dailySpent, hreq, hdecode, _, earlier, checked,
    later, hsteps, hunsent, hrules⟩ :=
    forwarded_under_policy trail hrange hindex
      (by rw [hcall]; exact Sample.agent_request _ _ _) hsent
  have hforce : (Policy.made (World.history proxySemantics earlier)).InForce
      Sample.agentId Sample.dailySixty := by
    obtain ⟨call', hindex', _⟩ := hunsent
    have hcount := (List.getElem?_eq_some_iff.mp hindex').1
    have hrow := hthere checked (by simp [hsteps]) hcount
    have hholds := (holdsPolicy_made (hsteps ▸ trail).cut.1 <|
      World.forall_requests_before trail hrange checked
        (by simp [hsteps])).1 Sample.ruleId
    rw [hrow, eq_comm, Option.map_eq_some_iff] at hholds
    obtain ⟨rule, hrule, heq⟩ := hholds
    cases heq
    exact ⟨⟨Sample.ruleId, hrule⟩, rfl, rfl⟩
  refine ⟨steps, w, earlier, checked, later, trail, hsteps, hcall ▸ hunsent,
    hforce, dailySpent, ?_⟩
  have hsatisfied := hrules _ hforce
  rw [hreq] at hcall
  cases hcall
  have hdecoded := (Sample.received_valid .first true false).requirements
  rw [hdecode] at hdecoded
  cases hdecoded
  rwa [hreq, Sample.amount_request] at hsatisfied

end X402Guard

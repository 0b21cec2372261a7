/-
The agents that a request manages.  Every operation that can change settings is
issued for an agent the request may manage, and a transaction writes only what
it gathered for its agent: agents and session keys never change hands, so what
the replies have shown of them still holds when the writes are made.
-/
import X402Guard.AgentSettings
import X402Guard.PolicyInForce
import X402Guard.ReplyFacts
import X402Guard.RevokedKeys
import X402Guard.TraceLogic

namespace X402Guard

open Interaction Prog

variable {ext : Externals} {config : AppConfig}

/-- The request is one to change settings of the agent, and where it names an
owner, it names that one. -/
def Request.ManagesFor (agentId : Uuid) (owner : String) : Request → Prop
  | .createRule id _ | .updateRule id .. | .deactivateRule id _
  | .createSessionKey id _ | .revokeSessionKey id _ => id = agentId
  | .revokeAll id req =>
      id = agentId ∧ eqIgnoreAsciiCase owner req.ownerAddress = true
  | _ => False

/-- The transaction is what was gathered for the agent. -/
def GatheredFor (trace : List (Event Op Reply)) (agentId : Uuid) (tx : Tx) :
    Prop :=
  ∃ tx₀ keys tx₁ affected,
    Performed trace (.postgres .begin) (.ok tx₀) ∧
    Performed trace (.postgres (.revokeAllInTx tx₀ agentId))
      (.ok (keys, tx₁)) ∧
    Performed trace (.postgres (.deactivateInTx tx₁ agentId))
      (.ok (affected, tx)) ∧ affected ≠ 0

/-- An operation that can change settings does so for an agent that it may
manage. -/
def Op.Permitted (may : Uuid → Prop) (trace : List (Event Op Reply)) :
    Op → Prop
  | .postgres (.insertRule agentId ..)
  | .postgres (.updateRule _ agentId ..)
  | .postgres (.deactivateRule _ agentId)
  | .postgres (.insertSessionKey agentId ..)
  | .postgres (.revokeSessionKey _ agentId) => may agentId
  | .postgres (.commit tx) => ∃ agentId, may agentId ∧
      GatheredFor trace agentId tx
  | _ => True

theorem GatheredFor.mono {first second : List (Event Op Reply)}
    {agentId : Uuid} {tx : Tx} (h : GatheredFor first agentId tx)
    (hsub : first ⊆ second) : GatheredFor second agentId tx := by
  obtain ⟨tx₀, keys, tx₁, affected, hbegin, hcollect, hdone, hne⟩ := h
  exact ⟨tx₀, keys, tx₁, affected, hbegin.mono hsub, hcollect.mono hsub,
    hdone.mono hsub, hne⟩

theorem Op.Permitted.mono {may may' : Uuid → Prop}
    {first second : List (Event Op Reply)} {op : Op}
    (h : op.Permitted may first) (hmay : ∀ agentId, may agentId → may' agentId)
    (hsub : first ⊆ second) : op.Permitted may' second := by
  unfold Op.Permitted at h ⊢
  split at h
  case h_6 =>
    obtain ⟨agentId, hagent, hgathered⟩ := h
    exact ⟨agentId, hmay _ hagent, hgathered.mono hsub⟩
  case h_7 => trivial
  all_goals exact hmay _ h

theorem Op.Permitted.of_stage {may : Uuid → Prop}
    {trace : List (Event Op Reply)} {op : Op} (h : op.stage ≤ 11) :
    op.Permitted may trace := by
  unfold Op.Permitted
  split
  case h_7 => trivial
  all_goals simp [stage] at h

section Handlers

variable {agentId : Uuid} {S : List (Event Op Reply) → Op → Prop}
variable {α : Type} {trace : List (Event Op Reply)}

theorem createRule_permitted (ruleType : RuleType) :
    (createRule agentId ruleType).Within
      (Op.Permitted (· = agentId) []) := by
  refine Within.bind (requireAgent_within trivial) fun _ => ?_
  exact Within.bind (within_mapError.mpr (Within.bind
    (Repo.query_within rfl) fun _ => within_lift _ _)) fun _ => trivial

theorem updateRule_permitted (ruleId : Uuid) (ruleType : RuleType)
    (isActive : Bool) :
    (updateRuleWithBody agentId ruleId ruleType isActive).Within
      (Op.Permitted (· = agentId) []) := by
  refine Within.bind (within_mapError.mpr (Within.bind
    (Repo.query_within rfl) fun row? => ?_)) fun _ => trivial
  cases row? with
  | none => trivial
  | some row => exact within_lift _ _

theorem deactivateRule_permitted (ruleId : Uuid) :
    (deactivateRule agentId ruleId).Within
      (Op.Permitted (· = agentId) []) := by
  refine Within.bind (within_mapError.mpr (Within.bind
    (Repo.query_within rfl) fun affected => ?_)) fun _ => trivial
  split <;> trivial

theorem createSessionKey_permitted (req : CreateSessionKeyRequest) :
    (createSessionKey ext agentId req).Within
      (Op.Permitted (· = agentId) []) := by
  refine (createSessionKey_within agentId req).mono fun op hop => ?_
  rcases hop with hstage | ⟨_, _, _, _, rfl⟩
  · exact .of_stage (by omega)
  · exact rfl

theorem revokeSessionKey_permitted (keyId : Uuid) :
    (revokeSessionKey agentId keyId).Within
      (Op.Permitted (· = agentId) []) := by
  refine Within.bind (within_mapError.mpr (Within.bind
    (Repo.query_within rfl) fun affected => ?_))
    fun _ => Within.bind (emit_within trivial) fun _ => trivial
  split <;> trivial

/-- A query of a handler, and what comes after its answer. -/
theorem query_bind_obeys {query : Query} {f : query.Answer → Handler α}
    (hquery : S trace (.postgres query))
    (hf : ∀ answer order time, (f answer).Obeys S (fun _ _ => True)
      (trace ++ [⟨.postgres query, .ok answer, order, time⟩])) :
    ((Repo.query query).mapError .internal >>= f).Obeys S
      (fun _ _ => True) trace := by
  refine ⟨hquery, fun reply order time => ?_⟩
  cases reply with
  | error error => trivial
  | ok answer => exact hf answer order time

/-- An agent that was looked up was seen. -/
theorem requireAgent_obeys {agentId : Uuid}
    (hselect : S trace (.postgres (.selectAgent agentId))) :
    (requireAgent agentId).Obeys S (fun t result => ∀ agent,
      result = .ok agent → Performed t (.postgres (.selectAgent agentId))
        (.ok (some agent))) trace := by
  refine ⟨hselect, fun reply order time => ?_⟩
  cases reply with
  | error error => exact fun _ heq => by cases heq
  | ok found =>
      cases found with
      | none => exact fun _ heq => by cases heq
      | some agent =>
          intro _ heq
          cases heq
          exact ⟨order, time, by simp⟩

theorem deactivateTx_obeys {agentId : Uuid} {tx : Tx}
    (hquery : S trace (.postgres (.deactivateInTx tx agentId))) :
    (Repo.Agents.deactivateTx tx agentId).Obeys S (fun t result => ∀ tx',
      result = .ok tx' → ∃ affected order time, affected ≠ 0 ∧ t = trace ++
        [⟨.postgres (.deactivateInTx tx agentId), .ok (affected, tx'), order,
          time⟩]) trace := by
  refine ⟨hquery, fun reply order time => ?_⟩
  cases reply with
  | error error => exact fun _ heq => by cases heq
  | ok answer =>
      change Obeys _ _ _ (if answer.1 = 0 then _ else _)
      split
      · exact fun _ heq => by cases heq
      · rename_i hne
        intro _ heq
        cases heq
        exact ⟨answer.1, order, time, hne, rfl⟩

/-- What `revokeAll` may manage: its agent, once the owner was seen to be the
one that the request names. -/
def RevokesFor (agentId : Uuid) (req : RevokeAllRequest)
    (trace : List (Event Op Reply)) (id : Uuid) : Prop :=
  id = agentId ∧ ∃ agent,
    Performed trace (.postgres (.selectAgent agentId)) (.ok (some agent)) ∧
    eqIgnoreAsciiCase agent.ownerAddress req.ownerAddress = true

theorem RevokesFor.snoc {agentId : Uuid} {req : RevokeAllRequest}
    {event : Event Op Reply} {id : Uuid}
    (h : RevokesFor agentId req trace id) :
    RevokesFor agentId req (trace ++ [event]) id := by
  obtain ⟨hid, agent, hseen, howner⟩ := h
  exact ⟨hid, agent, hseen.append_right, howner⟩

/-- The transaction of `revokeAll` is gathered for its agent. -/
theorem revokeAll_obeys (req : RevokeAllRequest) :
    (revokeAll agentId req).Obeys (fun trace op =>
      op.Permitted (RevokesFor agentId req trace) trace)
      (fun _ _ => True) trace := by
  refine obeys_lift_bind (fun _ _ => ?_) fun _ _ => trivial
  refine (requireAgent_obeys trivial).bind (fun t agent hagent => ?_)
    fun _ _ _ => trivial
  refine obeys_lift_bind (fun _ howner => ?_) fun _ _ => trivial
  rw [rejectIf_eq_ok_iff, not_not] at howner
  have hmay : RevokesFor agentId req t agentId :=
    ⟨rfl, agent, hagent agent rfl, howner⟩
  -- what is left gathers and commits, and goes on knowing the owner
  refine Obeys.keeping (S := fun t op => op.Permitted (· = agentId) t)
    (K := fun t => RevokesFor agentId req t agentId) ?_
    (fun _ _ => RevokesFor.snoc) hmay
    (fun t op hmay hop => hop.mono (fun id heq => heq ▸ hmay)
      (List.Subset.refl t)) fun _ _ _ h => h
  refine query_bind_obeys trivial fun tx₀ order₀ time₀ => ?_
  refine query_bind_obeys trivial fun (keys, tx₁) order₁ time₁ => ?_
  refine (obeys_mapError (R := fun t result => ∀ tx, result = .ok tx →
      GatheredFor t agentId tx) ?_).bind (fun t' tx htx => ?_)
    fun _ _ _ => trivial
  · refine (deactivateTx_obeys trivial).mono (fun _ _ h => h) ?_
    intro t' result hdone tx heq
    cases result with
    | error error => cases heq
    | ok tx' =>
        cases heq
        obtain ⟨affected, order₂, time₂, hne, rfl⟩ := hdone tx rfl
        exact ⟨tx₀, keys, tx₁, affected, ⟨order₀, time₀, by simp⟩,
          ⟨order₁, time₁, by simp⟩, ⟨order₂, time₂, by simp⟩, hne⟩
  · refine query_bind_obeys ⟨agentId, rfl, htx tx rfl⟩ fun _ _ _ => ?_
    refine obeys_perform_bind trivial fun _ _ _ => ?_
    exact obeys_perform_bind trivial fun _ _ _ => trivial

/-- What the trace has shown of the owner of the agent. -/
def ShowsOwner (trace : List (Event Op Reply)) (agentId : Uuid)
    (owner : String) : Prop :=
  ∀ agent, Performed trace (.postgres (.selectAgent agentId))
    (.ok (some agent)) → agent.ownerAddress = owner

/-- A handler that looks at no owner. -/
theorem obeys_of_within {may : Uuid → Prop}
    {may' : List (Event Op Reply) → Uuid → Prop} {p : Handler α}
    (hp : p.Within (Op.Permitted may []))
    (hmay : ∀ t agentId, may agentId → may' t agentId) :
    p.Obeys (fun t op => op.Permitted (may' t) t) (fun _ _ => True) trace :=
  Within.obeys (hp.mono fun _ hop t =>
    hop.mono (hmay t) (List.nil_subset t))

/-- A handler that manages nothing. -/
theorem obeys_of_within_none {may : List (Event Op Reply) → Uuid → Prop}
    {p : Handler α} (hp : p.Within (Op.Permitted (fun _ => False) [])) :
    p.Obeys (fun t op => op.Permitted (may t) t) (fun _ _ => True) trace :=
  obeys_of_within hp fun _ _ => False.elim

/-- A request manages no agent but the one it names, and that one only if its
owner is the one it names. -/
theorem handle_obeys (request : Request) :
    (handle ext config request).Obeys (fun t op => op.Permitted
      (fun agentId => ∀ owner, ShowsOwner t agentId owner →
        request.ManagesFor agentId owner) t) (fun _ _ => True) trace := by
  cases request with
  | forwardRequest req =>
      exact obeys_of_within_none
        ((handle_issues (.forwardRequest req)).mono fun _ => .of_stage)
  | createAgent req =>
      refine obeys_of_within_none ?_
      refine Within.map (Within.bind (within_lift _ _) fun _ => ?_)
      refine Within.bind (within_lift _ _) fun _ => ?_
      refine Within.bind (within_mapError.mpr
        (Repo.query_within trivial)) fun _ => ?_
      exact Within.bind (emit_within trivial) fun _ => trivial
  | getAgent id =>
      exact obeys_of_within_none (Within.map (Within.bind
        (requireAgent_within trivial) fun _ => trivial))
  | getSessionKey agentId keyId =>
      refine obeys_of_within_none ?_
      refine Within.map (Within.bind (within_mapError.mpr
        (findSessionKey_within trivial)) fun _ => ?_)
      refine Within.bind (within_lift _ _) fun _ => ?_
      exact Within.bind (within_lift _ _) fun _ => trivial
  | createRule agentId ruleType =>
      exact obeys_of_within (createRule_permitted ruleType).map
        fun _ _ heq _ _ => heq.symm
  | updateRule agentId ruleId ruleType isActive =>
      exact obeys_of_within
        (updateRule_permitted ruleId ruleType isActive).map
        fun _ _ heq _ _ => heq.symm
  | deactivateRule agentId ruleId =>
      exact obeys_of_within (deactivateRule_permitted ruleId).map
        fun _ _ heq _ _ => heq.symm
  | createSessionKey agentId req =>
      exact obeys_of_within (createSessionKey_permitted req).map
        fun _ _ heq _ _ => heq.symm
  | revokeSessionKey agentId keyId =>
      exact obeys_of_within (revokeSessionKey_permitted keyId).map
        fun _ _ heq _ _ => heq.symm
  | revokeAll agentId req =>
      refine (revokeAll_obeys req).map.mono (fun t op hop => ?_)
        fun _ _ _ => trivial
      refine hop.mono (fun id hmay owner hshows => ?_) (List.Subset.refl t)
      obtain ⟨rfl, agent, hseen, howner⟩ := hmay
      exact ⟨rfl, hshows agent hseen ▸ howner⟩

end Handlers

namespace Db

/-- The owner of an agent. -/
def ownerOf (db : Db) (agentId : Uuid) : Option String :=
  (db.agents.find? agentId).map Agent.ownerAddress

/-- The agent of a session key. -/
def agentOf (db : Db) (key : Uuid) : Option Uuid :=
  (db.sessionKeys.find? key).map SessionKeyRow.agentId

variable {db db' : Db} {query : Query} {answer : query.Answer}

/-- An agent never changes hands. -/
theorem Change.keeps_owner (h : db.Change query answer db') {agentId : Uuid}
    {owner : String} (howner : db.ownerOf agentId = some owner) :
    db'.ownerOf agentId = some owner := by
  obtain ⟨agent, hagent, rfl⟩ := Option.map_eq_some_iff.mp howner
  cases h with
  | agentInserted new hnew =>
      rw [ownerOf, KeyedTable.find?_insert_of_find? hnew hagent,
        Option.map_some]
  | committed tx =>
      rw [ownerOf, commit, find?_deactivateAgents, revokeKeys, hagent,
        Option.map_some, Option.map_some]
      split <;> rfl
  | _ => exact howner

/-- Nor does a session key. -/
theorem Change.keeps_agentOf (h : db.Change query answer db')
    {key agentId : Uuid} (hkey : db.agentOf key = some agentId) :
    db'.agentOf key = some agentId := by
  obtain ⟨row, hrow, rfl⟩ := Option.map_eq_some_iff.mp hkey
  obtain ⟨row', hrow', hevolves⟩ := h.key_evolves hrow
  rw [agentOf, hrow', Option.map_some, hevolves.agentId]

end Db

/-- What a reply says about who owns what, besides what every reply says. -/
def OwnerFact : (op : Op) → Reply op → Db → Prop
  | .postgres (.selectAgent id), .ok (some agent), db =>
      db.ownerOf id = some agent.ownerAddress
  | .postgres (.revokeAllInTx tx agentId), .ok (_, tx'), db =>
      ∀ key ∈ tx'.revokedKeys,
        key ∈ tx.revokedKeys ∨ db.agentOf key = some agentId
  | _, _, _ => True

theorem OwnerFact.change {op : Op} {reply : Reply op} {db db' : Db}
    {query : Query} {answer : query.Answer} (h : OwnerFact op reply db)
    (hchange : db.Change query answer db') : OwnerFact op reply db' := by
  unfold OwnerFact at h ⊢
  split at h
  · exact hchange.keeps_owner h
  · exact fun key hkey => (h key hkey).imp_right hchange.keeps_agentOf
  · trivial

theorem Query.run_ownerFact {now : Micros} {freshId : Uuid} {db db' : Db}
    {query : Query} {answer : query.Answer}
    (h : query.run now freshId db = .ok (answer, db')) :
    OwnerFact (.postgres query) (.ok answer) db' := by
  cases query with
  | selectAgent id =>
      cases h
      cases hfound : db.agents.find? id with
      | none => trivial
      | some agent => exact congrArg (Option.map Agent.ownerAddress) hfound
  | revokeAllInTx tx agentId =>
      cases h
      intro key hkey
      refine (List.mem_append.mp hkey).imp_right fun hfresh => ?_
      obtain ⟨row, hrow, rfl⟩ :=
        List.mem_map.mp (List.mem_of_mem_filter hfresh)
      obtain ⟨hmem, hagent, _⟩ := KeyedTable.mem_selectWhere.mp hrow
      rw [Db.agentOf, KeyedTable.find?_eq_some_iff.mpr ⟨hmem, rfl⟩,
        Option.map_some, hagent]
  | _ => trivial

/-- What a reply has said stays true. -/
def LastingFact (op : Op) (reply : Reply op) (db : Db) : Prop :=
  ReplyFact op reply db ∧ OwnerFact op reply db

theorem LastingFact.change {op : Op} {reply : Reply op} {db db' : Db}
    {query : Query} {answer : query.Answer} (h : LastingFact op reply db)
    (hchange : db.Change query answer db') : LastingFact op reply db' :=
  ⟨h.1.change hchange, h.2.change hchange⟩

theorem perform_lastingFact (op : Op) (outcome : Outcome) (s : Shared) :
    LastingFact op (perform op outcome s).1 (perform op outcome s).2.db := by
  refine ⟨perform_replyFact op outcome s, ?_⟩
  cases op with
  | postgres query =>
      rcases perform_postgres_runs query outcome s with
        ⟨error, heq⟩ | ⟨answer, db', heq, hrun⟩
      · rw [heq]
        cases query <;> trivial
      · rw [heq]
        exact Query.run_ownerFact hrun
  | _ => trivial

/-- A transaction gathered for an agent is about that agent and its keys. -/
theorem GatheredFor.only {trace : List (Event Op Reply)} {agentId : Uuid}
    {tx : Tx} {db : Db} (h : GatheredFor trace agentId tx)
    (hfacts : ∀ op reply, Performed trace op reply → LastingFact op reply db) :
    tx.deactivatedAgents = [agentId] ∧
      ∀ key ∈ tx.revokedKeys, db.agentOf key = some agentId := by
  obtain ⟨tx₀, keys, tx₁, affected, hbegin, hcollect, hdone, hne⟩ := h
  have hempty : tx₀ = ⟨[], []⟩ := (hfacts _ _ hbegin).1
  obtain ⟨⟨hagents, _⟩, hkeys⟩ := hfacts _ _ hcollect
  obtain ⟨⟨hsame, hdeactivated⟩, _⟩ := hfacts _ _ hdone
  subst hempty
  refine ⟨by rw [(hdeactivated hne).2, hagents]; rfl, fun key hkey => ?_⟩
  rw [hsame] at hkey
  exact (hkeys key hkey).resolve_left List.not_mem_nil

/-- An operation that changes settings of an agent was permitted for it. -/
theorem Op.Permitted.of_changed {may : Uuid → Prop}
    {trace : List (Event Op Reply)} {op : Op} {outcome : Outcome}
    {s : Shared} {agentId : Uuid} (h : op.Permitted may trace)
    (hfacts : ∀ op reply, Performed trace op reply →
      LastingFact op reply s.db)
    (hagent : s.db.agents.HasKey agentId)
    (hchanged : (perform op outcome s).2.db.settings agentId ≠
      s.db.settings agentId) : may agentId := by
  by_cases hop : ∃ query, op = .postgres query
  · obtain ⟨query, rfl⟩ := hop
    rcases perform_postgres_runs query outcome s with
      ⟨error, heq⟩ | ⟨answer, db', heq, hrun⟩
    · rw [heq] at hchanged
      exact absurd rfl hchanged
    · rw [heq] at hchanged
      have hmanages : query.Manages s.db agentId := by
        by_contra hother
        exact hchanged (Query.run_settings hrun hagent hother)
      cases query with
      | commit tx =>
          obtain ⟨id, hmay, hgathered⟩ := h
          obtain ⟨hagents, hkeys⟩ := hgathered.only hfacts
          have hid : agentId = id := by
            rcases hmanages with hdeactivated | ⟨row, hrow, hrevoked, rfl⟩
            · rwa [hagents, List.mem_singleton] at hdeactivated
            · have hkey := hkeys row.id hrevoked
              rw [Db.agentOf, KeyedTable.find?_eq_some_iff.mpr ⟨hrow, rfl⟩,
                Option.map_some] at hkey
              exact Option.some.inj hkey
          exact hid ▸ hmay
      | insertRule | updateRule | deactivateRule | insertSessionKey
      | revokeSessionKey =>
          have hsame : _ = agentId := hmanages
          exact hsame ▸ h
      | _ => exact hmanages.elim
  · rw [perform_db_of_ne fun query heq => hop ⟨query, heq⟩] at hchanged
    exact absurd rfl hchanged

end X402Guard

/-
What a reply says about the database for good: the replies a call has seen are
facts about every later state of the run.
-/
import X402Guard.ForwardTrace

namespace X402Guard

open Interaction

/-- What a reply to an operation proves about a database. -/
def ReplyFact : (op : Op) → Reply op → Db → Prop
  | .postgres (.selectAgent id), .ok (some _), db => db.agents.HasKey id
  | .postgres (.selectSessionKey id), .ok (some row), db =>
      ∃ row', db.sessionKeys.find? id = some row' ∧ row.Evolves row'
  | .postgres (.incrementSpent ..), .ok affected, _ => affected ≤ 1
  | .postgres .begin, .ok tx, _ => tx = ⟨[], []⟩
  | .postgres (.revokeAllInTx tx _), .ok (_, tx'), db =>
      tx'.deactivatedAgents = tx.deactivatedAgents ∧
        ∀ key ∈ tx'.revokedKeys,
          key ∈ tx.revokedKeys ∨ db.sessionKeys.HasKey key
  | .postgres (.deactivateInTx tx agentId), .ok (affected, tx'), db =>
      tx'.revokedKeys = tx.revokedKeys ∧
        (affected ≠ 0 → db.agents.HasKey agentId ∧
          tx'.deactivatedAgents = tx.deactivatedAgents ++ [agentId])
  | .postgres (.insertSpend _ values limit?), .ok affected, db =>
      affected ≤ 1 ∧ (limit? = none → affected = 1) ∧
        (affected = 1 → db.spendLedger.HasKey values.txNonce)
  | _, _, _ => True

/-- A reply stays true while the database changes. -/
theorem ReplyFact.change {op : Op} {reply : Reply op} {db db' : Db}
    {query : Query} {answer : query.Answer}
    (h : ReplyFact op reply db) (hchange : db.Change query answer db') :
    ReplyFact op reply db' := by
  unfold ReplyFact at h ⊢
  split at h
  · exact hchange.keeps_agent h
  · obtain ⟨row', hrow', hevolves⟩ := h
    obtain ⟨row'', hrow'', hevolves'⟩ := hchange.key_evolves hrow'
    exact ⟨row'', hrow'', hevolves.trans hevolves'⟩
  · exact h
  · exact h
  · exact ⟨h.1, fun key hkey => (h.2 key hkey).imp_right
      hchange.keeps_sessionKey⟩
  · exact ⟨h.1, fun hne => ⟨hchange.keeps_agent (h.2 hne).1, (h.2 hne).2⟩⟩
  · exact ⟨h.1, h.2.1, fun hone => hchange.keeps_nonce (h.2.2 hone)⟩
  · trivial

theorem mem_activeKeys {db : Db} {agentId key : Uuid}
    (h : key ∈ db.activeKeys agentId) : db.sessionKeys.HasKey key := by
  obtain ⟨row, hrow, rfl⟩ := List.mem_map.mp h
  exact KeyedTable.hasKey_iff.mpr
    ⟨row, (KeyedTable.mem_selectWhere.mp hrow).1, rfl⟩

/-- A query's answer is true of the database it leaves. -/
theorem Query.run_replyFact {now : Micros} {freshId : Uuid} {db db' : Db}
    {query : Query} {answer : query.Answer}
    (h : query.run now freshId db = .ok (answer, db')) :
    ReplyFact (.postgres query) (.ok answer) db' := by
  have hchange := Query.run_change h
  cases query with
  | selectAgent id =>
      cases h
      cases hfound : db.agents.find? id with
      | none => trivial
      | some agent =>
          exact KeyedTable.hasKey_iff.mpr
            ⟨agent, KeyedTable.find?_eq_some_iff.mp hfound⟩
  | selectSessionKey id =>
      cases h
      cases hfound : db.sessionKeys.find? id with
      | none => trivial
      | some row => exact ⟨row, hfound, .refl row⟩
  | incrementSpent id amount =>
      cases hchange with
      | notCharged => exact Nat.zero_le 1
      | charged => exact Nat.le_refl 1
      | read _ hreads => exact hreads.elim
      | rulesWritten _ hwrites _ => exact hwrites.elim
  | begin =>
      cases h
      rfl
  | revokeAllInTx tx agentId =>
      cases h
      refine ⟨rfl, fun key hkey => ?_⟩
      rcases List.mem_append.mp hkey with hold | hfresh
      · exact Or.inl hold
      · exact Or.inr (mem_activeKeys (List.mem_of_mem_filter hfresh))
  | deactivateInTx tx agentId =>
      simp only [run] at h
      split at h
      · rename_i hagent
        cases h
        exact ⟨rfl, fun _ => ⟨hagent, rfl⟩⟩
      · cases h
        exact ⟨rfl, fun hne => absurd rfl hne⟩
  | insertSpend snapshot values limit? =>
      cases hchange with
      | inserted _ _ _ _ hpos hnew =>
          exact ⟨Nat.le_refl 1, fun _ => rfl,
            fun _ => (KeyedTable.hasKey_insert hnew).mpr (Or.inr rfl)⟩
      | notInserted _ _ _ hwithin =>
          refine ⟨Nat.zero_le 1, fun hnone => ?_, fun hone => by cases hone⟩
          subst hnone
          cases hwithin
      | read _ hreads => exact hreads.elim
      | rulesWritten _ hwrites _ => exact hwrites.elim
  | _ => trivial

theorem perform_replyFact (op : Op) (outcome : Outcome) (s : Shared) :
    ReplyFact op (perform op outcome s).1 (perform op outcome s).2.db := by
  cases op with
  | postgres query =>
      simp only [perform]
      split
      · cases query <;> trivial
      · split
        · rename_i answer db' hrun
          exact Query.run_replyFact hrun
        · cases query <;> trivial
  | _ => trivial

/-- In every run, every reply seen so far is true of the database. -/
theorem replies_sound {ext : Externals} {config : AppConfig}
    {Allowed : World (handle ext config) Shared →
      Action Request Micros Outcome → Prop}
    {w₀ w : World (handle ext config) Shared}
    (run : Run (World.step proxySemantics) Allowed w₀ w)
    (hstart : w₀.events = []) :
    ∀ event ∈ w.events, ReplyFact event.op event.reply w.shared.db := by
  refine World.settled (P := fun (event : Event Op Reply) (s : Shared) =>
    ReplyFact event.op event.reply s.db) run ?_ ?_ ?_ ?_
  · simp [hstart]
  · intro event elapsed s h
    exact h
  · intro event op outcome s h
    exact perform_keeps_db (P := ReplyFact event.op event.reply)
      (fun _ _ _ hchange => h.change hchange) h op outcome
  · intro w index call op next outcome _ _ _
    exact perform_replyFact op outcome w.shared

/-- A transaction about to be committed deactivates the agent of its
`revokeAll` and revokes keys that exist. -/
theorem commit_gathered {ext : Externals} {config : AppConfig}
    {call : Call (handle ext config)} {db : Db} {tx : Tx}
    {next : Reply (.postgres (.commit tx)) → Handler Response}
    (hrest : call.rest = .call (.postgres (.commit tx)) next)
    (hreplies : ∀ event ∈ call.trace, ReplyFact event.op event.reply db) :
    ∃ agentId req, call.request = .revokeAll agentId req ∧
      tx.deactivatedAgents = [agentId] ∧ db.agents.HasKey agentId ∧
      ∀ key ∈ tx.revokedKeys, db.sessionKeys.HasKey key := by
  let event : Event Op Reply := ⟨.postgres (.commit tx), .ok (), 0, 0⟩
  let resumed := call.resume hrest (.ok ()) 0 0
  have hevent : event ∈ resumed.trace := by simp [resumed, event]
  obtain ⟨agentId, req, rest, hreq, h⟩ := revokes_of_commit hevent rfl
  obtain ⟨tx₀, keys, tx₁, affected, hbegin, hcollect, hdeactivate, hne⟩ :=
    revokeAll_commits h hevent rfl
  have hfact : ∀ {op : Op} {reply : Reply op}, op ≠ .postgres (.commit tx) →
      Performed resumed.trace op reply → ReplyFact op reply db := by
    intro op reply hop hperformed
    obtain ⟨order, time, hmem⟩ := hperformed.of_snoc hop
    exact hreplies _ hmem
  have htx₀ : tx₀ = ⟨[], []⟩ := hfact (fun heq => by cases heq) hbegin
  obtain ⟨hagents, hkeys⟩ := hfact (fun heq => by cases heq) hcollect
  obtain ⟨hsame, hexists⟩ := hfact (fun heq => by cases heq) hdeactivate
  obtain ⟨hagent, hdeactivated⟩ := hexists hne
  subst htx₀
  refine ⟨agentId, req, hreq, by rw [hdeactivated, hagents]; rfl, hagent, ?_⟩
  intro key hkey
  rw [hsame] at hkey
  exact (hkeys key hkey).resolve_left List.not_mem_nil

end X402Guard

/-
The budget of a session key: what is charged to it, what its forwarded requests
have paid, and what its revocation stops.
-/
import X402Guard.Forwarding

namespace X402Guard

open Interaction Prog

variable {ext : Externals} {config : AppConfig}
variable {Allowed : World (handle ext config) Shared →
  Action Request Micros Outcome → Prop}

/-- A revocation of the key has committed. -/
def Revokes (key : Uuid) : Event Op Reply → Prop
  | ⟨.postgres (.revokeSessionKey id _), .ok affected, _, _⟩ =>
      id = key ∧ affected ≠ 0
  | ⟨.postgres (.commit tx), .ok _, _, _⟩ => key ∈ tx.revokedKeys
  | _ => False

/-- The key has been charged. -/
def Charges (key : Uuid) : Event Op Reply → Prop
  | ⟨.postgres (.incrementSpent id _), .ok affected, _, _⟩ =>
      id = key ∧ affected ≠ 0
  | _ => False

/-- After a revocation the key is revoked. -/
theorem keyRevoked_of_revokes {w₀ w : World (handle ext config) Shared}
    (run : Run (World.step proxySemantics) Allowed w₀ w)
    (hstart : w₀.events = []) {index : Nat} {call : Call (handle ext config)}
    {op : Op} {next : Reply op → Handler Response} {outcome : Outcome}
    {key : Uuid} (hrest : call.rest = .call op next)
    (hcall : w.calls[index]? = some call)
    (h : Revokes key (w.stamp proxySemantics op outcome)) :
    (perform op outcome w.shared).2.db.KeyRevoked key := by
  cases op with
  | postgres query =>
      rcases perform_postgres query outcome w.shared with
        ⟨error, heq⟩ | ⟨answer, db', heq, hchange⟩
      · simp [World.stamp, heq, Revokes] at h
      · simp only [World.stamp, proxySemantics_perform, heq] at h ⊢
        cases query with
        | revokeSessionKey id agentId =>
            obtain ⟨rfl, hne⟩ := h
            cases hchange with
            | keyRevoked =>
                obtain ⟨row, hrow⟩ := List.exists_mem_of_length_pos
                  (Nat.pos_of_ne_zero hne)
                obtain ⟨hmem, hid, howner⟩ := KeyedTable.mem_selectWhere.mp hrow
                exact Db.keyRevoked_revokeKeys
                  (KeyedTable.find?_eq_some_iff.mpr ⟨hmem, hid⟩) ⟨hid, howner⟩
            | read _ hreads => exact hreads.elim
            | rulesWritten _ hwrites _ => exact hwrites.elim
        | commit tx =>
            cases hchange with
            | committed =>
                obtain ⟨_, _, _, _, _, hkeys⟩ := commit_gathered hrest
                  fun event hevent => replies_sound run hstart event
                    (World.mem_events (List.mem_of_getElem? hcall) hevent)
                exact Db.keyRevoked_commit h (hkeys key h)
            | read _ hreads => exact hreads.elim
            | rulesWritten _ hwrites _ => exact hwrites.elim
        | _ => exact h.elim
  | _ => exact h.elim

/-- A revoked key is not charged. -/
theorem not_keyRevoked_of_charges {key : Uuid} {op : Op} {outcome : Outcome}
    {s : Shared} {order : Nat}
    (h : Charges key ⟨op, (perform op outcome s).1, order, s.now⟩) :
    ¬ s.db.KeyRevoked key := by
  rintro ⟨row, hrow, hrevoked⟩
  cases op with
  | postgres query =>
      rcases perform_postgres query outcome s with
        ⟨error, heq⟩ | ⟨answer, db', heq, hchange⟩
      · simp [heq, Charges] at h
      · rw [heq] at h
        cases query with
        | incrementSpent id amount =>
            obtain ⟨rfl, hne⟩ := h
            cases hchange with
            | notCharged => exact hne rfl
            | charged hfind hcharge =>
                have hactive := (SessionKeyRow.charge_eq_some hcharge).1
                rw [hfind] at hrow
                cases hrow
                rw [hactive] at hrevoked
                cases hrevoked
            | read _ hreads => exact hreads.elim
            | rulesWritten _ hwrites _ => exact hwrites.elim
        | _ => exact h.elim
  | _ => exact h.elim

/-- Every charge of a key comes before every revocation of it. -/
theorem charges_before_revocation {w₀ w : World (handle ext config) Shared}
    (run : Run (World.step proxySemantics) Allowed w₀ w)
    (hstart : w₀.events = []) {key : Uuid} :
    ∀ revocation ∈ w.events, Revokes key revocation →
      ∀ event ∈ w.events, Charges key event →
        event = revocation ∨ event.order < revocation.order := by
  refine World.before_barrier
    (F := fun s : Shared => s.db.KeyRevoked key) run hstart ?_ ?_ ?_ ?_
  · intro elapsed s h
    exact h
  · intro op outcome s h
    exact perform_keeps_db (P := fun db => db.KeyRevoked key)
      (fun _ _ _ hchange => hchange.keeps_keyRevoked h) h op outcome
  · intro w index call op next outcome hrest hcall hrun hrevokes
    exact keyRevoked_of_revokes hrun hstart hrest hcall hrevokes
  · intro op outcome s order hcharges
    exact not_keyRevoked_of_charges hcharges

/-- In a call that was forwarded for an agent, whatever tried to charge the
named key did charge it. -/
theorem charges_of_forwarded {call : Call (handle ext config)}
    {agentId key : Uuid} {amount : Int} {event : Event Op Reply}
    (hagent : call.request.agent ext = some agentId)
    (hkey : call.request.sessionKey ext = some key)
    (hforwarded : forwarded call = true) (hevent : event ∈ call.trace)
    (hop : event.op = .postgres (.incrementSpent key amount)) :
    Charges key event := by
  have hstage : event.op.stage = 10 := by rw [hop]; rfl
  obtain ⟨out, hout, hsent⟩ := forwarded_iff.mp hforwarded
  obtain ⟨req, received, agentRules, before, reserve, after, rest, htrace,
    hadmitted, hreserve, hforward, _, hagent', hkey', _⟩ :=
    sent_parts hout hsent
  rw [hagent] at hagent'
  rw [hkey] at hkey'
  have hreserved := reserveSpend_reaches_ret hagent'.symm hreserve
  obtain ⟨snapshot, affected, order₁, time₁, order₂, time₂, tail, _, rfl,
    _, htail⟩ := hreserved.ledger
  obtain ⟨charged, order, time, hne, rfl⟩ := htail key hkey'.symm
  rw [htrace] at hevent
  rcases List.mem_append.mp hevent with hbefore | hevent
  · have := hadmitted.stages event hbefore
    omega
  rcases List.mem_append.mp hevent with hin | hafter
  · -- of the three calls of the reservation only the last charges
    simp only [List.mem_cons, List.not_mem_nil, or_false] at hin
    rcases hin with rfl | rfl | rfl
    · cases hop
    · cases hop
    · exact ⟨rfl, hne⟩
  · have := (forwardToTarget_within req received).of_mem hforward event hafter
    omega

/-! ### Keys that are used with their agent -/

/-- The request names both an agent and the key. -/
def NamesWithAgent (ext : Externals) (key : Uuid) (request : Request) : Prop :=
  request.sessionKey ext = some key ∧ (request.agent ext).isSome = true

instance (key : Uuid) : DecidablePred (NamesWithAgent ext key) :=
  fun _ => inferInstanceAs (Decidable (_ ∧ _))

/-- The request names the key. -/
def Names (ext : Externals) (key : Uuid) (request : Request) : Prop :=
  request.sessionKey ext = some key

instance (key : Uuid) : DecidablePred (Names ext key) :=
  fun _ => inferInstanceAs (Decidable (_ = _))

/-- The counter of the key is the sum of its charges and stays within its
limit, so do the payments of the requests forwarded under it for an agent, and
no such request is forwarded that charged the key after a revocation. -/
structure KeyBudgetKept (s₀ : Shared) (w : World (handle ext config) Shared)
    (key : Uuid) : Prop where
  counter : w.shared.db.spent key = s₀.db.spent key + w.total (chargeTo key)
  within : ∀ row, w.shared.db.sessionKeys.find? key = some row →
    row.spent ≤ row.maxSpend ∧
      s₀.db.spent key + forwardedAmount (NamesWithAgent ext key) w ≤
        row.maxSpend
  revoked : ∀ revocation ∈ w.events, Revokes key revocation →
    ∀ call ∈ w.calls, NamesWithAgent ext key call.request →
      (∃ event ∈ call.trace, ∃ amount,
        event.op = .postgres (.incrementSpent key amount) ∧
          revocation.order < event.order) →
      forwarded call = false

/-- However calls of any kind overlap, the budget of every key is kept. -/
theorem keyBudgetKept (s₀ : Shared) {w : World (handle ext config) Shared}
    (run : Run (World.step proxySemantics) always
      (World.start (handle ext config) s₀) w) (key : Uuid) :
    KeyBudgetKept s₀ w key := by
  have hspent := spent_eq_charges run (World.events_start s₀) key
  refine ⟨hspent, ?_, ?_⟩
  · intro row hrow
    have hle : forwardedAmount (NamesWithAgent ext key) w ≤
        w.total (chargeTo key) :=
      forwardedAmount_le_charges (replies_sound run (World.events_start s₀))
        fun call _ hnames =>
          ⟨hnames.1, Option.isSome_iff_exists.mp hnames.2⟩
    have hcounter : w.shared.db.spent key = row.spent := by
      simp [Db.spent, hrow]
    have hwithin := row.spent_within_limit
    have hsame : (World.start (handle ext config) s₀).shared = s₀ := rfl
    rw [hsame] at hspent
    exact ⟨hwithin, by omega⟩
  · rintro revocation hrevocation hrevokes call hcall ⟨hkey, hagent⟩
      ⟨event, hevent, amount, hop, hlt⟩
    obtain ⟨agentId, hagent⟩ := Option.isSome_iff_exists.mp hagent
    cases hforwarded : forwarded call with
    | false => rfl
    | true =>
        have hcharges :=
          charges_of_forwarded hagent hkey hforwarded hevent hop
        rcases charges_before_revocation run (World.events_start s₀)
          revocation hrevocation hrevokes event (World.mem_events hcall hevent)
          hcharges with rfl | hbefore
        · omega
        · omega

namespace Sample

theorem usdc100_pos : (0 : Int) < 100_000_000 := by decide

/-- Keys of the agent with limits of 100 and 200 USDC. -/
def keyOf100 : SessionKeyRow := key agentId 100_000_000 usdc100_pos
def keyOf200 : SessionKeyRow := key agentId 200_000_000 (by decide)

end Sample

/-- A request is forwarded under a key, and a second one is not: the key is
revoked between its reservation and its charge. -/
theorem keyBudgetKept_sample : ∃ w,
    Run (World.step proxySemantics) always
      (Sample.world none (some Sample.keyOf200)) w ∧
    w.calls.map forwarded = [true, false, false] ∧
    w.shared.db.KeyRevoked Sample.keyId ∧
    KeyBudgetKept (Sample.world none (some Sample.keyOf200)).shared w
      Sample.keyId := by
  have hrun : ∃ w, Run (World.step proxySemantics) always
      (Sample.world none (some Sample.keyOf200)) w ∧
      (Sample.sentFlags w.toReplay,
        (w.toReplay.shared.db.sessionKeys.find? Sample.keyId).map
          (·.isRevoked)) = ([true, false, false], some true) ∧
      w.calls.map Call.request =
        [.forwardRequest (Sample.request .first true true),
          .forwardRequest (Sample.request .second true true),
          .revokeSessionKey Sample.agentId Sample.keyId] := by
    refine World.exists_run_of_replay (fun r => (Sample.sentFlags r,
      (r.shared.db.sessionKeys.find? Sample.keyId).map (·.isRevoked)))
      (fun _ _ => true) (fun _ _ _ => trivial)
      ([.arrive (.forwardRequest (Sample.request .first true true)),
        .arrive (.forwardRequest (Sample.request .second true true)),
        .arrive (.revokeSessionKey Sample.agentId Sample.keyId)] ++
        (Sample.advance 0 17 ++ (Sample.advance 1 15 ++
          (Sample.advance 2 1 ++ Sample.advance 1 1)))) ?_
    simp only [List.map_append, List.map_cons, List.map_nil,
      Sample.withProgram_forward, Sample.map_advance]
    decide
  obtain ⟨w, run, hseen, _⟩ := hrun
  rw [Sample.sentFlags_toReplay, Prod.mk.injEq] at hseen
  obtain ⟨row, hrow, hrevoked⟩ := Option.map_eq_some_iff.mp hseen.2
  exact ⟨w, run, hseen.1, ⟨row, hrow, hrevoked⟩,
    keyBudgetKept _ run Sample.keyId⟩

/-! ### Keys that are used without one -/

/-- Every arriving request that names a session key names an agent too. -/
def KeyWithAgent (ext : Externals) (config : AppConfig) :
    World (handle ext config) Shared → Action Request Micros Outcome → Prop
  | _, .arrive request => (request.sessionKey ext).isSome = true →
      (request.agent ext).isSome = true
  | _, _ => True

/-- Every forwarded request that names a key charged it exactly its amount
before it went out, and what was paid under a key is within its limit. -/
structure KeysCharged (s₀ : Shared) (w : World (handle ext config) Shared) :
    Prop where
  counter : ∀ key,
    w.shared.db.spent key = s₀.db.spent key + w.total (chargeTo key)
  charged : ∀ call ∈ w.calls, ∀ key, Names ext key call.request →
    forwarded call = true →
    ChargedBeforeSent key (call.request.amount ext) call.trace
  within : ∀ key row, w.shared.db.sessionKeys.find? key = some row →
    s₀.db.spent key + forwardedAmount (Names ext key) w ≤ row.maxSpend

/-- Keys that are only used together with an agent are charged. -/
theorem keysCharged_of_keyWithAgent (s₀ : Shared)
    {w : World (handle ext config) Shared}
    (run : Run (World.step proxySemantics) (KeyWithAgent ext config)
      (World.start (handle ext config) s₀) w) : KeysCharged s₀ w := by
  have hnames : ∀ call ∈ w.calls, ∀ key, Names ext key call.request →
      ∃ agentId, call.request.agent ext = some agentId := by
    intro call hcall key hkey
    have hboth := World.requests (P := fun request : Request =>
      (request.sessionKey ext).isSome = true →
        (request.agent ext).isSome = true) run (by simp [World.start])
      (fun t request (hallowed : KeyWithAgent ext config t
        (.arrive request)) => hallowed) call hcall
    exact Option.isSome_iff_exists.mp
      (hboth (Option.isSome_iff_exists.mpr ⟨key, hkey⟩))
  have hreplies := replies_sound run (World.events_start s₀)
  refine ⟨spent_eq_charges run (World.events_start s₀), ?_, ?_⟩
  · intro call hcall key hkey hforwarded
    obtain ⟨agentId, hagent⟩ := hnames call hcall key hkey
    exact forwarded_charged hagent hkey
      (fun event hevent => hreplies event (World.mem_events hcall hevent))
      hforwarded
  · intro key row hrow
    have hle : forwardedAmount (Names ext key) w ≤ w.total (chargeTo key) :=
      forwardedAmount_le_charges hreplies fun call hcall hkey =>
        ⟨hkey, hnames call hcall key hkey⟩
    have hcounter : w.shared.db.spent key = row.spent := by
      simp [Db.spent, hrow]
    have hspent := spent_eq_charges run (World.events_start s₀) key
    have hwithin := row.spent_within_limit
    have hsame : (World.start (handle ext config) s₀).shared = s₀ := rfl
    rw [hsame] at hspent
    omega

/-- A request that names an agent and a key is forwarded. -/
theorem keysCharged_sample : ∃ w,
    Run (World.step proxySemantics)
      (KeyWithAgent Sample.externals Sample.config)
      (Sample.world none (some Sample.keyOf100)) w ∧
    w.calls.map forwarded = [true] ∧
    KeysCharged (Sample.world none (some Sample.keyOf100)).shared w := by
  have hrun : ∃ w, Run (World.step proxySemantics)
      (KeyWithAgent Sample.externals Sample.config)
      (Sample.world none (some Sample.keyOf100)) w ∧
      Sample.sentFlags w.toReplay = [true] ∧
      w.calls.map Call.request =
        [.forwardRequest (Sample.request .first true true)] := by
    refine World.exists_run_of_replay Sample.sentFlags
      (fun _ => Sample.arriving fun request =>
        (request.agent Sample.externals).isSome) ?_
      (.arrive (.forwardRequest (Sample.request .first true true)) ::
        Sample.advance 0 17) ?_
    · intro w action hok
      cases action with
      | arrive request => exact fun _ => hok
      | _ => trivial
    · simp only [List.map_cons, Sample.withProgram_forward,
        Sample.map_advance]
      decide
  obtain ⟨w, run, hseen, _⟩ := hrun
  rw [Sample.sentFlags_toReplay] at hseen
  exact ⟨w, run, hseen, keysCharged_of_keyWithAgent _ run⟩

/-- Two requests that name a key with a limit of 100 USDC but no agent each pay
60 USDC, and the key is charged nothing. -/
theorem not_keysCharged : ¬ ∀ w,
    Run (World.step proxySemantics) always
      (Sample.world none (some Sample.keyOf100)) w →
    KeysCharged (Sample.world none (some Sample.keyOf100)).shared w := by
  intro h
  have hrun : ∃ w, Run (World.step proxySemantics) always
      (Sample.world none (some Sample.keyOf100)) w ∧
      (Sample.sentFlags w.toReplay,
        w.toReplay.shared.db.spent Sample.keyId,
        (w.toReplay.shared.db.sessionKeys.find? Sample.keyId).map
          (·.maxSpend)) = ([true, true], 0, some 100_000_000) ∧
      w.calls.map Call.request =
        [.forwardRequest (Sample.request .first false true),
          .forwardRequest (Sample.request .second false true)] := by
    refine World.exists_run_of_replay (fun r => (Sample.sentFlags r,
      r.shared.db.spent Sample.keyId,
      (r.shared.db.sessionKeys.find? Sample.keyId).map (·.maxSpend)))
      (fun _ _ => true) (fun _ _ _ => trivial)
      ([.arrive (.forwardRequest (Sample.request .first false true)),
        .arrive (.forwardRequest (Sample.request .second false true))] ++
        (Sample.advance 0 11 ++ Sample.advance 1 11)) ?_
    simp only [List.map_append, List.map_cons, List.map_nil,
      Sample.withProgram_forward, Sample.map_advance]
    decide
  obtain ⟨w, run, hseen, hrequests⟩ := hrun
  rw [Sample.sentFlags_toReplay] at hseen
  obtain ⟨first, second, hcalls, hfirst, hsecond⟩ :=
    World.calls_eq_pair hrequests
  simp only [hcalls, List.map_cons, List.map_nil, Prod.mk.injEq,
    List.cons.injEq, and_true] at hseen
  obtain ⟨⟨hsent, hsent'⟩, hspent, hmax⟩ := hseen
  obtain ⟨row, hrow, hmax⟩ := Option.map_eq_some_iff.mp hmax
  have hwithin := (h w run).within Sample.keyId row hrow
  have hpaid : forwardedAmount (Names Sample.externals Sample.keyId) w =
      120_000_000 := by
    simp [forwardedAmount, hcalls, hfirst, hsecond, hsent, hsent', Names]
  have hstart : (Sample.world none (some Sample.keyOf100)).shared.db.spent
      Sample.keyId = 0 := by decide
  rw [hpaid, hstart, hmax] at hwithin
  omega

end X402Guard

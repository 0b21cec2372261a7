/-
Whose session key a forwarded request spends under: the key and the agent of a
request are looked up apart from each other, one by the key's own checks and
one by the agent's rules.
-/
import X402Guard.Forwarding

namespace X402Guard

open Interaction Prog

variable {ext : Externals} {config : AppConfig}
variable {Allowed : World (handle ext config) Shared →
  Action Request Micros Outcome → Prop}

/-- Would the row pass the checks of a session key for the request now? -/
def Request.KeyPasses (ext : Externals) (request : Request) (now : Micros)
    (row : SessionKeyRow) : Prop :=
  ∃ (req : ProxyRequest) (received : Received) (key : SessionKey),
    request = .forwardRequest req ∧ received.Valid ext req ∧
    rowToSessionKey row = .ok key ∧
    verifySessionKey ext now key received.verified
      (targetContract received.requirements) = .ok ()

/-- A request that names an agent looks up a session key of that agent, or one
that its own checks refuse. -/
def OwnKeyRead (ext : Externals) (config : AppConfig) :
    World (handle ext config) Shared → Action Request Micros Outcome → Prop
  | w, .advance index outcome => ∀ call agentId keyId row,
      outcome.fails = false → w.calls[index]? = some call →
      call.request.agent ext = some agentId →
      call.rest.op? = some (.postgres (.selectSessionKey keyId)) →
      w.shared.db.sessionKeys.find? keyId = some row →
      call.request.KeyPasses ext w.shared.now row → row.agentId = agentId
  | _, _ => True

/-- The key that a forwarded request names is one of the agent it names. -/
def KeysOwned (w : World (handle ext config) Shared) : Prop :=
  ∀ call ∈ w.calls, ∀ agentId key,
    call.request.agent ext = some agentId →
    call.request.sessionKey ext = some key → forwarded call = true →
    ∃ row, w.shared.db.sessionKeys.find? key = some row ∧
      row.agentId = agentId

/-- What the guard says of a lookup once it is done. -/
def OwnKeyFound (ext : Externals) (request : Request) :
    Event Op Reply → Prop
  | ⟨.postgres (.selectSessionKey _), .ok (some row), _, time⟩ =>
      ∀ agentId, request.agent ext = some agentId →
        request.KeyPasses ext time row → row.agentId = agentId
  | _ => True

/-- A clock reading shows the time it was taken at. -/
def ShowsTime : Event Op Reply → Prop
  | ⟨.clock, now, _, time⟩ => now = time
  | _ => True

/-- A key that passes its checks would have passed them earlier. -/
theorem verifySessionKey_earlier {earlier now : Micros} {key : SessionKey}
    {payment : VerifiedPayment} {target : Option String}
    (hle : earlier ≤ now)
    (h : verifySessionKey ext now key payment target = .ok ()) :
    verifySessionKey ext earlier key payment target = .ok () := by
  rw [verifySessionKey_eq_ok_iff] at h ⊢
  obtain ⟨hactive, hexpires, hrest⟩ := h
  exact ⟨hactive, Int.lt_of_le_of_lt (Int.ofNat_le.mpr hle) hexpires, hrest⟩

/-- Under the guard every lookup finds an agent's own key. -/
theorem ownKeyFound {w₀ w : World (handle ext config) Shared}
    (run : Run (World.step proxySemantics) (OwnKeyRead ext config) w₀ w)
    (hstart : w₀.events = []) :
    ∀ call ∈ w.calls, ∀ event ∈ call.trace,
      OwnKeyFound ext call.request event := by
  refine World.each_event (P := OwnKeyFound ext) run hstart ?_
  intro w index call op next outcome hrest hcall hallowed
  by_cases hop : ∃ keyId, op = .postgres (.selectSessionKey keyId)
  · obtain ⟨keyId, rfl⟩ := hop
    rw [World.stamp]
    cases hreply : (proxySemantics.perform
        (.postgres (.selectSessionKey keyId)) outcome w.shared).1 with
    | error error => trivial
    | ok row? =>
        have hfound := perform_selectSessionKey hreply
        cases row? with
        | none => trivial
        | some row =>
            intro agentId hagent hpasses
            exact hallowed call agentId keyId row (fine_of_postgres_ok hreply)
              hcall hagent (by rw [hrest]; rfl) hfound hpasses
  · unfold OwnKeyFound
    split
    · rename_i keyId row order time heq
      have hsame : op = .postgres (.selectSessionKey keyId) :=
        congrArg Event.op heq
      exact absurd ⟨keyId, hsame⟩ hop
    · trivial

theorem showsTime {w₀ w : World (handle ext config) Shared}
    (run : Run (World.step proxySemantics) Allowed w₀ w)
    (hstart : w₀.events = []) :
    ∀ call ∈ w.calls, ∀ event ∈ call.trace, ShowsTime event := by
  refine World.each_event (P := fun _ event => ShowsTime event) run hstart ?_
  intro w index call op next outcome _ _ _
  cases op <;> trivial

/-- If requests that name an agent only find keys of that agent, or keys that
they cannot use, then no request is forwarded under another agent's key. -/
theorem keysOwned_of_ownKeyRead (s₀ : Shared)
    {w : World (handle ext config) Shared}
    (run : Run (World.step proxySemantics) (OwnKeyRead ext config)
      (World.start (handle ext config) s₀) w) : KeysOwned w := by
  intro call hcall agentId keyId hagent hkey hforwarded
  obtain ⟨event, hevent, hsent⟩ := forwarded_iff.mp hforwarded
  obtain ⟨req, received, agentRules, before, reserve, after, rest, htrace,
    hadmitted, _, _, _, _, hkey', _, _, hreq⟩ := sent_parts hevent hsent
  rw [hkey] at hkey'
  obtain ⟨row, key, now, first, second, rfl, ⟨order, time, hread⟩,
    ⟨order', time', hclock⟩, hrow, hverify⟩ :=
    hadmitted.sessionKey keyId hkey'.symm
  have hmem : ∀ {e}, e ∈ first ++ second → e ∈ call.trace := fun he => by
    rw [htrace]
    exact List.mem_append_left _ he
  have hread' := hmem (List.mem_append_left second hread)
  have hclock' := hmem (List.mem_append_right first hclock)
  -- the clock of the check is read after the key
  have hle : time ≤ now := by
    have hsorted := (World.stamped run proxySemantics_clockMonotone
      (World.stamped_start s₀)).sorted call hcall
    have hnow : now = time' :=
      showsTime run (World.events_start s₀) call hcall _ hclock'
    rw [htrace, List.append_assoc, List.pairwise_append] at hsorted
    rw [hnow]
    exact (hsorted.2.2 _ hread _ (List.mem_append_left _ hclock)).2
  have hpasses : call.request.KeyPasses ext time row :=
    ⟨req, received, key, hreq, hadmitted.valid, hrow,
      verifySessionKey_earlier hle hverify⟩
  have howner := ownKeyFound run (World.events_start s₀) call hcall _ hread'
    agentId hagent hpasses
  obtain ⟨row', hrow', hevolves⟩ := replies_sound run (World.events_start s₀)
    _ (World.mem_events hcall hread')
  exact ⟨row', hrow', hevolves.agentId.trans howner⟩

namespace Sample

def otherAgent : Agent :=
  ⟨0xdddddddddddd4ddd8ddddddddddddddd, "other trader", serviceText, true⟩

/-- Two agents, and a key of the other one. -/
def twoAgents : Db :=
  { db none (some (key otherAgent.id 100_000_000 (by decide))) with
    agents := ⟨[agent, otherAgent], by decide⟩ }

end Sample

/-- A request for one agent is forwarded under a key of another one. -/
theorem not_keysOwned : ¬ ∀ w,
    Run (World.step proxySemantics) always
      (World.start (handle Sample.externals Sample.config)
        (Shared.start 1_700_000_100_000_000 Sample.twoAgents)) w →
    KeysOwned w := by
  intro h
  have hrun : ∃ w, Run (World.step proxySemantics) always
      (World.start (handle Sample.externals Sample.config)
        (Shared.start 1_700_000_100_000_000 Sample.twoAgents)) w ∧
      (Sample.sentFlags w.toReplay,
        (w.toReplay.shared.db.sessionKeys.find? Sample.keyId).map
          (·.agentId)) = ([true], some Sample.otherAgent.id) ∧
      w.calls.map Call.request =
        [.forwardRequest (Sample.request .first true true)] := by
    refine World.exists_run_of_replay (fun r => (Sample.sentFlags r,
      (r.shared.db.sessionKeys.find? Sample.keyId).map (·.agentId)))
      (fun _ _ => true) (fun _ _ _ => trivial)
      (.arrive (.forwardRequest (Sample.request .first true true)) ::
        Sample.advance 0 17) ?_
    simp only [List.map_cons, Sample.withProgram_forward, Sample.map_advance]
    decide
  obtain ⟨w, run, hseen, hrequests⟩ := hrun
  rw [Sample.sentFlags_toReplay] at hseen
  obtain ⟨call, hcalls, hrequest⟩ := List.map_eq_singleton_iff.mp hrequests
  simp only [hcalls, List.map_cons, List.map_nil, Prod.mk.injEq,
    List.cons.injEq, and_true] at hseen
  obtain ⟨row, hrow, howner⟩ := h w run call (by simp [hcalls])
    Sample.agentId Sample.keyId (by simp [hrequest]) (by simp [hrequest])
    hseen.1
  have howner' : row.agentId = Sample.otherAgent.id := by
    have hsame : (w.shared.db.sessionKeys.find? Sample.keyId).map
        (·.agentId) = some Sample.otherAgent.id := hseen.2
    rw [hrow] at hsame
    exact Option.some.inj hsame
  rw [howner'] at howner
  exact absurd howner (by decide)

/-- A request is forwarded under a key of its own agent. -/
theorem keysOwned_sample : ∃ w,
    Run (World.step proxySemantics)
      (OwnKeyRead Sample.externals Sample.config)
      (Sample.world none (some (Sample.key Sample.agentId 100_000_000
        (by decide)))) w ∧
    w.calls.map forwarded = [true] ∧ KeysOwned w := by
  have hrun : ∃ w, Run (World.step proxySemantics)
      (OwnKeyRead Sample.externals Sample.config)
      (Sample.world none (some (Sample.key Sample.agentId 100_000_000
        (by decide)))) w ∧
      Sample.sentFlags w.toReplay = [true] ∧
      w.calls.map Call.request =
        [.forwardRequest (Sample.request .first true true)] := by
    refine World.exists_run_of_replay Sample.sentFlags
      (fun r _ => r.threads.all (fun thread => thread.request.agent
        Sample.externals = some Sample.agentId) &&
        r.shared.db.sessionKeys.rows.all (·.agentId = Sample.agentId)) ?_
      (.arrive (.forwardRequest (Sample.request .first true true)) ::
        Sample.advance 0 17) ?_
    · intro w action hok
      rw [Bool.and_eq_true, List.all_eq_true, List.all_eq_true] at hok
      cases action with
      | advance index outcome =>
          intro call agentId keyId row _ hcall hagent _ hrow _
          have hnamed := of_decide_eq_true (hok.1 call.toThread
            (List.mem_map_of_mem (List.mem_of_getElem? hcall)))
          have howner := of_decide_eq_true (hok.2 row
            (KeyedTable.find?_eq_some_iff.mp hrow).1)
          rw [howner]
          exact Option.some.inj (hnamed.symm.trans hagent)
      | _ => trivial
    · simp only [List.map_cons, Sample.withProgram_forward,
        Sample.map_advance]
      decide
  obtain ⟨w, run, hsent, _⟩ := hrun
  rw [Sample.sentFlags_toReplay] at hsent
  exact ⟨w, run, hsent, keysOwned_of_ownKeyRead _ run⟩

end X402Guard

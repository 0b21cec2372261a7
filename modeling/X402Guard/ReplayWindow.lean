/-
Replay protection: how often one EIP-3009 authorization is sent to a target
before a given instant, such as the end of its validity window.
-/
import X402Guard.Forwarding

namespace X402Guard

open Interaction Prog

variable {ext : Externals} {config : AppConfig}
variable {Allowed : World (handle ext config) Shared →
  Action Request Micros Outcome → Prop}

/-- The Redis key of a 32-byte nonce. -/
def redisKey (nonce : Bytes32) : String := nonceKey (hexEncode nonce.bytes)

/-- The nonce has been stored. -/
def Stores (nonce : Bytes32) : Event Op Reply → Prop
  | ⟨.redis (.setNxEx key _), .ok wasSet, _, _⟩ =>
      key = redisKey nonce ∧ wasSet = true
  | _ => False

/-- A ledger row with the nonce has been inserted. -/
def inserts (nonce : Bytes32) : Event Op Reply → Bool
  | ⟨.postgres (.insertSpend _ values _), .ok affected, _, _⟩ =>
      values.txNonce = hexEncode nonce.bytes && affected = 1
  | _ => false

/-- How often requests with the authorization have been sent before the
instant. -/
def timesSent (auth : Address × Bytes32) (instant : Micros)
    (w : World (handle ext config) Shared) : Nat :=
  (w.calls.map fun call =>
    if call.request.authorization ext = some auth then
      call.trace.countP fun event => sent event && event.time < instant
    else 0).sum

/-- Before the instant, the nonce of the authorization is not stored for a
request that carries it when it already was for another one, unless both name
an agent.  (The key of the first one must have expired in between.) -/
def StoredOnce (ext : Externals) (config : AppConfig)
    (auth : Address × Bytes32) (instant : Micros) :
    World (handle ext config) Shared → Action Request Micros Outcome → Prop
  | w, .advance index outcome => ∀ call ttlSecs, outcome.fails = false →
      w.calls[index]? = some call →
      call.request.authorization ext = some auth →
      call.rest.op? = some (.redis (.setNxEx (redisKey auth.2) ttlSecs)) →
      w.shared.now < instant →
      ¬ w.shared.redis.Live w.shared.now (redisKey auth.2) →
      ∀ index' other, index' ≠ index → w.calls[index']? = some other →
        other.request.authorization ext = some auth →
        (∃ event ∈ other.trace, Stores auth.2 event) →
        (call.request.agent ext).isSome = true ∧
          (other.request.agent ext).isSome = true
  | _, _ => True

/-- What a request that was sent has done before: stored its nonce and, if it
names an agent, inserted it into the ledger. -/
theorem stored_of_sent {call : Call (handle ext config)}
    {auth : Address × Bytes32} {event : Event Op Reply} {db : Db}
    (hauth : call.request.authorization ext = some auth)
    (hreplies : ∀ event ∈ call.trace, ReplyFact event.op event.reply db)
    (hsorted : call.trace.Pairwise fun first second =>
      first.order < second.order ∧ first.time ≤ second.time)
    (hevent : event ∈ call.trace) (hsent : sent event = true) :
    (∃ stored ∈ call.trace, Stores auth.2 stored ∧
      stored.time ≤ event.time) ∧
    ((call.request.agent ext).isSome = true →
      ∃ inserted ∈ call.trace, inserts auth.2 inserted = true) := by
  constructor
  · obtain ⟨req, received, agentRules, before, reserve, after, rest, htrace,
      hadmitted, _, _, hafter, _, _, _, hauth', _⟩ := sent_parts hevent hsent
    rw [hauth, Option.some.injEq] at hauth'
    subst hauth'
    obtain ⟨order, time, hstored⟩ := hadmitted.nonce
    let stored : Event Op Reply := ⟨.redis (.setNxEx
      (nonceKey (nonceHex received.verified)) (nonceTtl received.requirements)),
      .ok true, order, time⟩
    have hstores : Stores received.verified.nonce stored := ⟨rfl, rfl⟩
    refine ⟨stored, ?_, hstores, ?_⟩
    · rw [htrace]
      exact List.mem_append_left _ hstored
    · rw [htrace, List.pairwise_append] at hsorted
      exact (hsorted.2.2 _ hstored event
        (List.mem_append_right _ hafter)).2
  · intro hnamed
    obtain ⟨agentId, hagent⟩ := Option.isSome_iff_exists.mp hnamed
    obtain ⟨auth', snapshot, limit?, order, time, hauth', hinserted⟩ :=
      inserted_of_forwarded hagent hreplies
        (forwarded_iff.mpr ⟨event, hevent, hsent⟩)
    rw [hauth, Option.some.injEq] at hauth'
    subst hauth'
    exact ⟨_, hinserted, by simp [inserts]⟩

/-- At most one row of the ledger is inserted with a nonce. -/
theorem inserts_count {w₀ w : World (handle ext config) Shared}
    (run : Run (World.step proxySemantics) Allowed w₀ w)
    (hstart : w₀.events = []) (nonce : Bytes32) :
    w.events.countP (inserts nonce) ≤ 1 := by
  refine World.count_le_one (F := fun s : Shared =>
    s.db.spendLedger.HasKey (hexEncode nonce.bytes)) run hstart ?_ ?_ ?_
  · intro elapsed s h
    exact h
  · intro op outcome s h
    exact perform_keeps_db
      (P := fun db => db.spendLedger.HasKey (hexEncode nonce.bytes))
      (fun _ _ _ hchange => hchange.keeps_nonce h) h op outcome
  · intro w index call op next outcome _ _ _ hinserts
    cases op with
    | postgres query =>
        rcases perform_postgres query outcome w.shared with
          ⟨error, heq⟩ | ⟨answer, db', heq, hchange⟩
        · simp [World.stamp, heq, inserts] at hinserts
        · simp only [World.stamp, proxySemantics_perform, heq]
            at hinserts ⊢
          cases query with
          | insertSpend snapshot values limit? =>
              simp only [inserts, Bool.and_eq_true, decide_eq_true_eq]
                at hinserts
              obtain ⟨hnonce, rfl⟩ := hinserts
              rw [← hnonce]
              exact hchange.inserted_row
          | _ => cases hinserts
    | _ => cases hinserts

/-- A nonce that was stored was not taken before. -/
theorem not_live_of_stores {nonce : Bytes32} {op : Op} {outcome : Outcome}
    {s : Shared} {order : Nat}
    (h : Stores nonce ⟨op, (perform op outcome s).1, order, s.now⟩) :
    (∃ ttlSecs, op = .redis (.setNxEx (redisKey nonce) ttlSecs)) ∧
      outcome.fails = false ∧ ¬ s.redis.Live s.now (redisKey nonce) := by
  cases op with
  | redis command =>
      cases command with
      | setNxEx key ttlSecs =>
          have hreply : key = redisKey nonce ∧
              (perform (.redis (.setNxEx key ttlSecs)) outcome s).1 =
                .ok true := by
            simp only [Stores] at h
            split at h
            · rename_i heq
              simp only [Event.mk.injEq, Op.redis.injEq, Command.setNxEx.injEq]
                at heq
              obtain ⟨⟨rfl, rfl⟩, hsame, _⟩ := heq
              exact ⟨h.1, by rw [eq_of_heq hsame, h.2]⟩
            · exact h.elim
          obtain ⟨rfl, hreply⟩ := hreply
          refine ⟨⟨ttlSecs, rfl⟩, fine_of_redis_ok hreply, ?_⟩
          rintro ⟨entry, hentry, hkey, hlt⟩
          have hle := (perform_setNxEx hreply).1 entry.expiresAt
            ⟨entry, hentry, hkey, Nat.le_refl _⟩
          exact Nat.not_lt.mpr hle hlt
      | _ => exact h.elim
  | postgres query => cases query <;> exact h.elim
  | _ => exact h.elim

/-- Two requests with the authorization that stored its nonce before the
instant both name an agent. -/
theorem agents_of_stored {auth : Address × Bytes32} {instant : Micros}
    {w₀ w : World (handle ext config) Shared}
    (run : Run (World.step proxySemantics)
      (StoredOnce ext config auth instant) w₀ w) (hstart : w₀.events = []) :
    ∀ (i j : Nat) (first second : Call (handle ext config)), i ≠ j →
      w.calls[i]? = some first → w.calls[j]? = some second →
      (∃ event ∈ first.trace, first.request.authorization ext = some auth ∧
        Stores auth.2 event ∧ event.time < instant) →
      (∃ event ∈ second.trace, second.request.authorization ext = some auth ∧
        Stores auth.2 event ∧ event.time < instant) →
      (first.request.agent ext).isSome = true ∧
        (second.request.agent ext).isSome = true := by
  refine World.pairwise (K := fun (request : Request) event =>
      request.authorization ext = some auth ∧ Stores auth.2 event ∧
        event.time < instant)
    (R := fun first second => (first.agent ext).isSome = true ∧
      (second.agent ext).isSome = true) (fun a b h => ⟨h.2, h.1⟩) run hstart ?_
  rintro w index call op next outcome hrest hcall hallowed
    ⟨hauth, hstores, hbefore⟩ index' other hne hother
    ⟨event, hevent, hauth', hstores', _⟩
  obtain ⟨⟨ttlSecs, rfl⟩, hfine, hfree⟩ := not_live_of_stores hstores
  exact hallowed call ttlSecs hfine hcall hauth (by rw [hrest]; rfl) hbefore
    hfree index' other hne hother hauth' ⟨event, hevent, hstores'⟩

/-- An authorization whose nonce is stored once before the instant is sent at
most once before it. -/
theorem timesSent_le_one (s₀ : Shared) (auth : Address × Bytes32)
    (instant : Micros) {w : World (handle ext config) Shared}
    (run : Run (World.step proxySemantics)
      (StoredOnce ext config auth instant)
      (World.start (handle ext config) s₀) w) :
    timesSent auth instant w ≤ 1 := by
  have hstamped := World.stamped run proxySemantics_clockMonotone
    (World.stamped_start s₀)
  have hreplies := replies_sound run (World.events_start s₀)
  -- a call that counts has sent its request before the instant
  have hcounts : ∀ call ∈ w.calls, 0 < (if
      call.request.authorization ext = some auth then
        call.trace.countP fun event => sent event && event.time < instant
      else 0) →
      call.request.authorization ext = some auth ∧
        (∃ event ∈ call.trace, call.request.authorization ext = some auth ∧
          Stores auth.2 event ∧ event.time < instant) ∧
        ((call.request.agent ext).isSome = true →
          ∃ inserted ∈ call.trace, inserts auth.2 inserted = true) := by
    intro call hcall hpos
    split at hpos
    · rename_i hauth
      obtain ⟨event, hevent, hsent⟩ := List.countP_pos_iff.mp hpos
      rw [Bool.and_eq_true, decide_eq_true_eq] at hsent
      obtain ⟨⟨stored, hstored, hstores, hle⟩, hinserted⟩ :=
        stored_of_sent hauth
          (fun event hevent => hreplies event (World.mem_events hcall hevent))
          (hstamped.sorted call hcall) hevent hsent.1
      exact ⟨hauth, ⟨stored, hstored, hauth, hstores, by omega⟩, hinserted⟩
    · omega
  refine sum_map_le_one _ ?_ ?_
  · intro call _
    split
    · have himp : call.trace.countP
          (fun event => sent event && event.time < instant) ≤
            call.trace.countP sent :=
        List.countP_mono_left fun event _ hboth =>
          (Bool.and_eq_true _ _ ▸ hboth).1
      exact Nat.le_trans himp (sent_count call)
    · exact Nat.zero_le 1
  · intro i j first second hi hj hfirst hsecond
    by_contra hne
    obtain ⟨_, hstored, hinserted⟩ :=
      hcounts first (List.mem_of_getElem? hi) hfirst
    obtain ⟨_, hstored', hinserted'⟩ :=
      hcounts second (List.mem_of_getElem? hj) hsecond
    obtain ⟨hagent, hagent'⟩ := agents_of_stored run (World.events_start s₀)
      i j first second hne hi hj hstored hstored'
    exact hne (World.index_eq_of_count_le_one
      (inserts_count run (World.events_start s₀) auth.2) hi hj
      (hinserted hagent) (hinserted' hagent'))

namespace Sample

/-- The end of the validity window of the authorizations. -/
def validBefore : Micros := 1_700_086_400 * microsPerSecond

/-- Let 61 seconds pass: one more than the time to live of a nonce. -/
def waitOutNonce : Action Request Micros Outcome := .external 61_000_000

/-- A nonce is stored while it is live, or when no other call has arrived. -/
def storesAlone (r : Replayed) : Op → Bool
  | .redis (.setNxEx key _) =>
      decide (r.shared.redis.Live r.shared.now key) ||
        decide (r.threads.length = 1)
  | _ => true

end Sample

/-- A request without an agent is sent, and sent again 61 seconds later, a day
before its authorization ends. -/
theorem timesSent_replayed : ¬ ∀ w,
    Run (World.step proxySemantics) always (Sample.world none none) w →
    timesSent (Sample.signer, Sample.nonce .first) Sample.validBefore w ≤
      1 := by
  intro h
  have hrun : ∃ w, Run (World.step proxySemantics) always
      (Sample.world none none) w ∧
      Sample.sentBefore Sample.validBefore w.toReplay = [1, 1] ∧
      w.calls.map Call.request =
        [.forwardRequest (Sample.request .first false false),
          .forwardRequest (Sample.request .first false false)] := by
    refine World.exists_run_of_replay (Sample.sentBefore Sample.validBefore)
      (fun _ _ => true) (fun _ _ _ => trivial)
      (.arrive (.forwardRequest (Sample.request .first false false)) ::
        (Sample.advance 0 9 ++ (Sample.waitOutNonce ::
          .arrive (.forwardRequest (Sample.request .first false false)) ::
          Sample.advance 1 9))) ?_
    simp only [List.map_append, List.map_cons, Sample.withProgram_forward,
      Sample.map_advance]
    decide
  obtain ⟨w, run, hsent, hrequests⟩ := hrun
  rw [Sample.sentBefore_toReplay] at hsent
  obtain ⟨first, second, hcalls, hfirst, hsecond⟩ :=
    World.calls_eq_pair hrequests
  simp only [hcalls, List.map_cons, List.map_nil, List.cons.injEq,
    and_true] at hsent
  have hle := h w run
  simp [timesSent, hcalls, hfirst, hsecond, hsent.1, hsent.2] at hle

/-- A request that is repeated while its nonce is stored is sent once. -/
theorem timesSent_sample : ∃ w,
    Run (World.step proxySemantics)
      (StoredOnce Sample.externals Sample.config
        (Sample.signer, Sample.nonce .first) Sample.validBefore)
      (Sample.world none none) w ∧
    w.calls.map forwarded = [true, false] ∧
    timesSent (Sample.signer, Sample.nonce .first) Sample.validBefore w ≤
      1 := by
  have hrun : ∃ w, Run (World.step proxySemantics)
      (StoredOnce Sample.externals Sample.config
        (Sample.signer, Sample.nonce .first) Sample.validBefore)
      (Sample.world none none) w ∧
      Sample.sentFlags w.toReplay = [true, false] ∧
      w.calls.map Call.request =
        [.forwardRequest (Sample.request .first false false),
          .forwardRequest (Sample.request .first false false)] := by
    refine World.exists_run_of_replay Sample.sentFlags
      (Sample.performing Sample.storesAlone) ?_
      (.arrive (.forwardRequest (Sample.request .first false false)) ::
        (Sample.advance 0 9 ++
          .arrive (.forwardRequest (Sample.request .first false false)) ::
          Sample.advance 1 4)) ?_
    · intro w action hok
      cases action with
      | advance index outcome =>
          intro call ttlSecs _ hcall _ hop _ hfree index' other hne hother
          have halone := Sample.allowed_of_performing hok hcall hop
          simp only [Sample.storesAlone, Bool.or_eq_true,
            decide_eq_true_eq] at halone
          rcases halone with hlive | hone
          · exact absurd hlive hfree
          · have hone' : w.calls.length = 1 := by
              simpa [World.toReplay] using hone
            have hlt := (List.getElem?_eq_some_iff.mp hcall).1
            have hlt' := (List.getElem?_eq_some_iff.mp hother).1
            omega
      | _ => trivial
    · simp only [List.map_append, List.map_cons, Sample.withProgram_forward,
        Sample.map_advance]
      decide
  obtain ⟨w, run, hsent, _⟩ := hrun
  rw [Sample.sentFlags_toReplay] at hsent
  exact ⟨w, run, hsent, timesSent_le_one _ _ _ run⟩

end X402Guard

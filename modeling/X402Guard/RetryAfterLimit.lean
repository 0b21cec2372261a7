/-
A request that is sent again after it was answered 429.  Its nonce was stored
before the rate limit was checked, so until the nonce expires the second
attempt is rejected as a replay, unless an earlier check rejects it.
-/
import X402Guard.RetryOutcome

namespace X402Guard

open Interaction Prog

variable {ext : Externals} {config : AppConfig}
variable {Allowed : World (handle ext config) Shared →
  Action Request Micros Outcome → Prop}

instance (s : Shared) : Decidable (WindowEmptied s) :=
  inferInstanceAs (Decidable (∀ entry ∈ s.redis.members s.now _, _))

/-- A request is answered 429 after its nonce has been stored. -/
theorem stores_of_rateLimited {req : ProxyRequest}
    {trace : List (Event Op Reply)}
    (h : (forwardRequest ext config req).Reaches trace
      (.throw .rateLimited)) :
    ∃ received : Received, received.Valid ext req ∧
      Performed trace (.redis (.setNxEx (redisKey received.verified.nonce)
        (nonceTtl received.requirements))) (.ok true) := by
  rw [← lift_error] at h
  rcases forwardRequest_ends h with ⟨error, hrefused, heq⟩ |
    ⟨received, agentRules, before, after, _, _, hafter⟩
  · cases heq
    -- of the steps that refuse, only the rate limit fails with this error
    cases hrefused with
    | receive hfails =>
        exact absurd rfl ((receivePayment_fails (P := fun error =>
          error ≠ .rateLimited) (fun _ heq => by cases heq)
          (fun _ heq => by cases heq) req).of_reaches hfails)
    | sessionKey _ hfails =>
        exact absurd rfl ((checkSessionKey_fails (P := fun error =>
          error ≠ .rateLimited) (fun _ heq => by cases heq)
          (fun _ heq => by cases heq) (fun _ heq => by cases heq)
          (fun _ heq => by cases heq) _).of_reaches hfails)
    | guardrails _ _ hfails =>
        exact absurd rfl ((checkGuardrails_fails (P := fun error =>
          error ≠ .rateLimited) (fun _ heq => by cases heq)
          (fun _ heq => by cases heq) (fun _ heq => by cases heq)
          (fun _ heq => by cases heq) _ _).of_reaches hfails)
    | nonce _ _ _ hfails =>
        exact absurd rfl ((checkNonce_fails (P := fun error =>
          error ≠ .rateLimited) (fun _ heq => by cases heq)
          (fun _ heq => by cases heq) _).of_reaches hfails)
    | rateLimit hreceive _ _ hnonce _ =>
        refine ⟨_, receivePayment_valid hreceive, ?_⟩
        have hstored := checkNonce_reaches_ret hnonce
        exact hstored.append_right.append_left.append_left.append_left
  · have hfails : (reserveSpend received agentRules >>= fun _ =>
        forwardToTarget ext req received).Fails fun error =>
          error ≠ .rateLimited :=
      (reserveSpend_fails (fun _ heq => by cases heq)
        (fun _ heq => by cases heq) _ _).bind fun _ =>
          forwardToTarget_fails (fun _ heq => by cases heq) _ _
    rw [lift_error] at hafter
    exact absurd rfl (hfails.of_reaches hafter)

/-- A call that was answered 429 has stored the nonce of its request. -/
theorem stores_of_limited {call : Call (handle ext config)}
    {req : ProxyRequest} {nonce : Bytes32}
    (hreq : call.request = .forwardRequest req)
    (hlimited : call.rest = .throw .rateLimited)
    (hnonce : (Request.forwardRequest req).nonce ext = some nonce) :
    ∃ event ∈ call.trace, Stores nonce event := by
  have hended : call.rest.result? = some (.error .rateLimited) := by
    rw [hlimited]
    rfl
  obtain ⟨result, hreached, hsame⟩ := forwardRequest_of_ended hreq hended
  rw [errorOf_eq_some_iff.mp hsame, lift_error] at hreached
  obtain ⟨received, hvalid, order, time, hstored⟩ :=
    stores_of_rateLimited hreached
  obtain ⟨_, _, _, hauth⟩ := hvalid.names
  have hown : (Request.forwardRequest req).nonce ext =
      some received.verified.nonce := congrArg (Option.map Prod.snd) hauth
  have heq : received.verified.nonce = nonce :=
    Option.some.inj (hown.symm.trans hnonce)
  exact ⟨_, hstored, congrArg redisKey heq, rfl⟩

/-- Where the nonce has been stored since, what held its key before has run
out. -/
theorem expired_of_stores {nonce : Bytes32} {instant : Micros}
    {w₀ w : World (handle ext config) Shared}
    (run : Run (World.step proxySemantics) Allowed w₀ w)
    (hstart : w₀.events = [])
    (hreserved : w₀.shared.redis.ReservedUntil (redisKey nonce) instant) :
    ∀ event ∈ w.events, Stores nonce event → instant ≤ w.shared.now := by
  refine World.settled (P := fun event s =>
    Stores nonce event → instant ≤ s.now) run ?_ ?_ ?_ ?_
  · rw [hstart]
    intro event hevent
    cases hevent
  · intro event elapsed s h hstores
    exact Nat.le_trans (h hstores) (Nat.le_add_right _ _)
  · intro event op outcome s h hstores
    rw [proxySemantics_perform, perform_now]
    exact h hstores
  · intro w index call op next outcome _ _ run hstores
    have hheld : w.shared.redis.ReservedUntil (redisKey nonce) instant :=
      World.shared_invariant (I := fun s =>
        s.redis.ReservedUntil (redisKey nonce) instant) run hreserved
        (fun _ _ h => h) fun op outcome _ h =>
          perform_keeps_reserved h op outcome
    obtain ⟨_, _, hfree⟩ := not_live_of_stores hstores
    rw [proxySemantics_perform, perform_now]
    by_contra hlater
    obtain ⟨entry, hentry, hkey, hle⟩ := hheld
    exact hfree ⟨entry, hentry, hkey,
      Nat.lt_of_lt_of_le (Nat.not_le.mp hlater) hle⟩

/-- The nonce of a request that was answered 429 is free where no request with
that nonce has been made. -/
theorem free_of_never {s₀ : Shared} {nonce : Bytes32}
    {w w' : World (handle ext config) Shared}
    (run : Run (World.step proxySemantics) Allowed
      (World.start (handle ext config) s₀) w)
    (run' : Run (World.step proxySemantics) Allowed
      (World.start (handle ext config) s₀) w')
    (hstored : ∃ event ∈ w.events, Stores nonce event)
    (hnever : ∀ other ∈ w'.calls, other.request.nonce ext ≠ some nonce)
    (hnow : w'.shared.now = w.shared.now) :
    ¬ w'.shared.redis.Live w'.shared.now (redisKey nonce) := by
  rw [RedisDb.live_iff, hnow, reservedUntil_iff run' (World.events_start s₀)
    (World.doneBefore_steps run' (World.events_start s₀))]
  rintro (hheld | ⟨_, ⟨done, hdone, hsame, _⟩, _⟩)
  · obtain ⟨event, hevent, hstores⟩ := hstored
    have hle := expired_of_stores run (World.events_start s₀) hheld event
      hevent hstores
    exact Nat.not_succ_le_self _ hle
  · obtain ⟨other, hother, hrequest, _⟩ := World.mem_done_iff.mp hdone.1
    exact hnever other hother (by rw [hrequest, hsame])

/-- A request that was answered 429 is made again, in a state that shows the
same time and database as one in which it was never made, with both rate
windows emptied.  It gets the same outcome as there if and only if its nonce
has expired or it does not come to the nonce check. -/
theorem sameOutcome_iff_of_limited (s₀ : Shared) {req : ProxyRequest}
    {nonce : Bytes32} {w w' : World (handle ext config) Shared}
    {call : Call (handle ext config)}
    (run : Run (World.step proxySemantics) always
      (World.start (handle ext config) s₀) w)
    (run' : Run (World.step proxySemantics) always
      (World.start (handle ext config) s₀) w')
    (hcall : call ∈ w.calls) (hreq : call.request = .forwardRequest req)
    (hlimited : call.rest = .throw .rateLimited)
    (hnonce : (Request.forwardRequest req).nonce ext = some nonce)
    (hnever : ∀ other ∈ w'.calls, other.request.nonce ext ≠ some nonce)
    (hsame : SameDb w.shared w'.shared)
    (hwindow : WindowEmptied w.shared)
    (hwindow' : WindowEmptied w'.shared) :
    (forwardRequest ext config req).SameOutcome proxySemantics w.shared
        w'.shared ↔
      ¬ w.shared.redis.Live w.shared.now (redisKey nonce) ∨
        ∀ received, ¬ Admissible ext req w.shared received := by
  obtain ⟨event, hevent, hstores⟩ := stores_of_limited hreq hlimited hnonce
  have hfree := free_of_never run run'
    ⟨event, World.mem_events hcall hevent, hstores⟩ hnever hsame.now
  constructor
  · intro houtcome
    by_contra hneither
    rw [not_or, not_not, not_forall] at hneither
    obtain ⟨hlive, received, hadmissible⟩ := hneither
    rw [not_not] at hadmissible
    rw [← hadmissible.nonce hnonce] at hlive hfree
    exact not_sameOutcome_of_live hsame hadmissible hlive hfree houtcome
  · rintro (hexpired | hnot)
    · refine sameOutcome_of_alike hnonce ⟨hsame, ?_, hwindow, hwindow'⟩
      exact ⟨fun hlive => absurd hlive hexpired,
        fun hlive => absurd hlive hfree⟩
    · exact sameOutcome_of_not_admissible hsame hnot

/-- Before the reservation nothing is written, nor by sending the request. -/
theorem perform_db_of_stage {op : Op} (hop : op.stage ≤ 9 ∨ op.stage = 11)
    (outcome : Outcome) (s : Shared) : (perform op outcome s).2.db = s.db := by
  by_cases hquery : ∃ query, op = .postgres query
  · obtain ⟨query, rfl⟩ := hquery
    rcases perform_postgres query outcome s with
      ⟨error, heq⟩ | ⟨answer, db', heq, hchange⟩
    · rw [heq]
    · rw [heq]
      cases hchange with
      | read => rfl
      | rulesWritten _ hwrites =>
          cases query <;> first | exact hwrites.elim | simp [Op.stage] at hop
      | _ => simp [Op.stage] at hop
  · exact perform_db_of_ne (fun query heq => hquery ⟨query, heq⟩) _ _

/-- Where all that was done is of these steps, the database is as it was. -/
theorem db_unchanged {w₀ w : World (handle ext config) Shared}
    (run : Run (World.step proxySemantics) Allowed w₀ w)
    (hstages : ∀ event ∈ w.events,
      event.op.stage ≤ 9 ∨ event.op.stage = 11) :
    w.shared.db = w₀.shared.db := by
  refine World.invariant (I := fun w => (∀ event ∈ w.events,
    event.op.stage ≤ 9 ∨ event.op.stage = 11) →
      w.shared.db = w₀.shared.db) run (fun _ => rfl) ?_ ?_ ?_ hstages
  · intro w request h _ hstages
    rw [World.events_arrive] at hstages
    exact h hstages
  · intro w elapsed h _ hstages
    exact h hstages
  · intro w index call op next outcome hrest hcall h _ hstages
    have hall : ∀ event, event = w.stamp proxySemantics op outcome ∨
        event ∈ w.events → event.op.stage ≤ 9 ∨ event.op.stage = 11 :=
      fun event hevent => hstages event
        ((World.mem_events_perform hrest hcall).mpr hevent)
    have hop := hall _ (Or.inl rfl)
    exact (perform_db_of_stage hop outcome w.shared).trans
      (h fun event hevent => hall event (Or.inr hevent))

namespace Sample

/-- One request a second. -/
def tight : AppConfig := ⟨1⟩

/-- A request without an agent under this limit, without the parsing. -/
def forwardTight (which : Which) : Handler ProxyResponse := do
  let received ← receive which false false
  checkSessionKey externals received
  let agentRules ← checkGuardrails externals (request which false false)
    received
  checkNonce received
  checkRateLimit tight
  reserveSpend received agentRules
  forwardToTarget externals (request which false false) received

theorem withProgram_tight (which : Which) :
    (Action.arrive (.forwardRequest (request which false false)) :
        Action Request Micros Outcome).withProgram (handle externals tight) =
      .arrive (.forwardRequest (request which false false),
        .forwarded <$> forwardTight which) := by
  rw [Action.withProgram, handle, forwardRequest, receivePayment_sample]
  rfl

/-- The world 100 seconds into the validity window. -/
def tightWorld : World (handle externals tight) Shared :=
  World.start _ (Shared.start 1_700_000_100_000_000 (db none none))

/-- While the authorization is valid, a request without an agent passes all
checks that come before the nonce check. -/
theorem admissible_sample (which : Which) {s : Shared}
    (hafter : 1_700_000_000 ≤ s.now / microsPerSecond)
    (hbefore : s.now / microsPerSecond < 1_700_086_400) :
    Admissible externals (request which false false) s
      (received which false false) where
  url := validateTargetUrl_sample
  payment := ⟨requirements, payment which, parsePaymentRequirements_sample,
    parsePaymentPayload_sample which, validateResourceMatch_sample,
    validateAssetMatch_sample which,
    verifyRequest_sample which false false hafter hbefore⟩
  sessionKey := by
    intro keyId hkey
    cases hkey
  agent := by
    intro agentId hagent
    cases hagent

/-- What is seen of a run in which the first nonce may have been stored. -/
def tightView (r : Replayed) :
    Micros × List (Option (Option AppError)) × Bool × Bool × Bool :=
  (r.shared.now, endings r, decide (WindowEmptied r.shared),
    r.threads.all fun thread => thread.trace.all fun event =>
      event.op.stage ≤ 9 || event.op.stage = 11,
    decide (r.shared.redis.Live r.shared.now (redisKey (nonce .first))))

/-- Another request takes the only place in the window, the first one is
answered 429, and some time passes. -/
def limitedActions (pause : Micros) : List (Action Request Micros Outcome) :=
  .arrive (.forwardRequest (request .second false false)) ::
    (advance 0 10 ++ (.arrive (.forwardRequest (request .first false false)) ::
      (advance 1 9 ++ [.external pause])))

/-- The same without the first request. -/
def neverActions (pause : Micros) : List (Action Request Micros Outcome) :=
  .arrive (.forwardRequest (request .second false false)) ::
    (advance 0 10 ++ [.external pause])

theorem db_of_stages {w : World (handle externals tight) Shared}
    (run : Run (World.step proxySemantics) always tightWorld w)
    (hstages : (w.toReplay.threads.all fun thread =>
      thread.trace.all fun event =>
        event.op.stage ≤ 9 || event.op.stage = 11) = true) :
    w.shared.db = db none none := by
  refine db_unchanged run ?_
  intro event hevent
  obtain ⟨call, hcall, htrace⟩ := List.mem_flatMap.mp hevent
  have hthread := List.all_eq_true.mp hstages call.toThread
    (List.mem_map_of_mem hcall)
  have hop := List.all_eq_true.mp hthread event htrace
  rwa [Bool.or_eq_true, decide_eq_true_eq, decide_eq_true_eq] at hop

theorem exists_limited {pause : Micros} {live : Bool}
    (hpause : (pause = 2_000_000 ∧ live = true) ∨
      (pause = 61_000_000 ∧ live = false)) :
    ∃ w, Run (World.step proxySemantics) always tightWorld w ∧
      tightView w.toReplay = (1_700_000_100_000_000 + pause,
        [some none, some (some .rateLimited)], true, true, live) ∧
      w.calls.map Call.request =
        [.forwardRequest (request .second false false),
          .forwardRequest (request .first false false)] := by
  refine World.exists_run_of_replay tightView (fun _ _ => true)
    (fun _ _ _ => trivial) (limitedActions pause) ?_
  simp only [limitedActions, List.map_append, List.map_cons, List.map_nil,
    withProgram_tight, map_advance]
  rcases hpause with ⟨rfl, rfl⟩ | ⟨rfl, rfl⟩
  · decide
  · decide

theorem exists_never {pause : Micros}
    (hpause : pause = 2_000_000 ∨ pause = 61_000_000) :
    ∃ w, Run (World.step proxySemantics) always tightWorld w ∧
      tightView w.toReplay = (1_700_000_100_000_000 + pause, [some none],
        true, true, false) ∧
      w.calls.map Call.request =
        [.forwardRequest (request .second false false)] := by
  refine World.exists_run_of_replay tightView (fun _ _ => true)
    (fun _ _ _ => trivial) (neverActions pause) ?_
  simp only [neverActions, List.map_append, List.map_cons, List.map_nil,
    withProgram_tight, map_advance]
  rcases hpause with rfl | rfl
  · decide
  · decide

/-- Two runs that end at the same time: in `w` the first request was answered
429, in `w'` it was never made. -/
structure Retried (w w' : World (handle externals tight) Shared)
    (call : Call (handle externals tight)) : Prop where
  run : Run (World.step proxySemantics) always tightWorld w
  run' : Run (World.step proxySemantics) always tightWorld w'
  nonces : w.calls.map (fun call => call.request.nonce externals) =
    [some (nonce .second), some (nonce .first)]
  nonces' : w'.calls.map (fun call => call.request.nonce externals) =
    [some (nonce .second)]
  call_mem : call ∈ w.calls
  request : call.request = .forwardRequest (request .first false false)
  limited : call.rest = .throw .rateLimited
  sameDb : SameDb w.shared w'.shared
  window : WindowEmptied w.shared
  window' : WindowEmptied w'.shared

theorem nonce_request (which : Which) :
    (Request.forwardRequest (Sample.request which false false)).nonce
      externals = some (nonce which) := by
  rw [Request.nonce, authorization_request]
  rfl

theorem Retried.never {w w' : World (handle externals tight) Shared}
    {call : Call (handle externals tight)} (h : Retried w w' call) :
    ∀ other ∈ w'.calls,
      other.request.nonce externals ≠ some (nonce .first) := by
  have hne := nonce_ne
  intro other hother hsame
  have hmem := List.mem_map_of_mem
    (f := fun call : Call (handle externals tight) =>
      call.request.nonce externals) hother
  rw [h.nonces', List.mem_singleton, hsame] at hmem
  exact hne (Option.some.inj hmem).symm

theorem exists_retried {pause : Micros} {live : Bool}
    (hpause : (pause = 2_000_000 ∧ live = true) ∨
      (pause = 61_000_000 ∧ live = false)) :
    ∃ w w' call, Retried w w' call ∧
      w.shared.now = 1_700_000_100_000_000 + pause ∧
      decide (w.shared.redis.Live w.shared.now (redisKey (nonce .first))) =
        live := by
  obtain ⟨w, run, hview, hrequests⟩ := exists_limited hpause
  obtain ⟨w', run', hview', hrequests'⟩ :=
    exists_never (hpause.imp And.left And.left)
  simp only [tightView, endings_toReplay, Prod.mk.injEq] at hview hview'
  obtain ⟨hnow, hendings, hwindow, hstages, hlive⟩ := hview
  obtain ⟨hnow', _, hwindow', hstages', _⟩ := hview'
  obtain ⟨first, call, hcalls, _, hreq⟩ := World.calls_eq_pair hrequests
  have hended : call.rest.result?.map errorOf =
      some (some .rateLimited) := by
    rw [hcalls, List.map_cons, List.map_cons] at hendings
    exact (List.cons.inj (List.cons.inj hendings).2).1
  obtain ⟨result, hresult, herror⟩ := Option.map_eq_some_iff.mp hended
  rw [errorOf_eq_some_iff.mp herror] at hresult
  refine ⟨w, w', call, ?_, hnow, hlive⟩
  exact {
    run := run
    run' := run'
    nonces := by
      rw [World.map_request (Request.nonce externals) hrequests]
      simp only [List.map_cons, List.map_nil, nonce_request]
    nonces' := by
      rw [World.map_request (Request.nonce externals) hrequests']
      simp only [List.map_cons, List.map_nil, nonce_request]
    call_mem := by
      rw [hcalls]
      exact List.mem_cons_of_mem _ List.mem_cons_self
    request := hreq
    limited := result?_eq_some_iff.mp hresult
    sameDb := ⟨hnow'.trans hnow.symm,
      (db_of_stages run' hstages').trans (db_of_stages run hstages).symm⟩
    window := of_decide_eq_true hwindow
    window' := of_decide_eq_true hwindow' }

end Sample

/-- Two seconds after a request was answered 429 it is rejected as a replay,
though its authorization is valid for a day and no other request has its
nonce. -/
theorem replay_of_limited : ∃ w w' call, Sample.Retried w w' call ∧
    w.shared.now = 1_700_000_102_000_000 ∧
    ((forwardRequest Sample.externals Sample.tight
      (Sample.request .first false false)).alone proxySemantics Sample.fine
        w.shared).1 = .error Sample.replayError ∧
    ¬ (forwardRequest Sample.externals Sample.tight
      (Sample.request .first false false)).SameOutcome proxySemantics w.shared
        w'.shared := by
  obtain ⟨w, w', call, h, hnow, hlive⟩ := Sample.exists_retried
    (Or.inl ⟨rfl, rfl⟩)
  have hlive := of_decide_eq_true hlive
  have hadmissible := Sample.admissible_sample .first (s := w.shared)
    (by rw [hnow]; decide) (by rw [hnow]; decide)
  obtain ⟨event, hevent, hstores⟩ :=
    stores_of_limited h.request h.limited (Sample.nonce_request .first)
  have hfree := free_of_never h.run h.run'
    ⟨event, World.mem_events h.call_mem hevent, hstores⟩ h.never h.sameDb.now
  have hhex : nonceHex (Sample.received .first false false).verified =
      "0101010101010101010101010101010101010101010101010101010101010101" := by
    decide
  refine ⟨w, w', call, h, hnow, ?_, ?_⟩
  · rw [replayed_of_live rfl hadmissible hlive, hhex]
    rfl
  · exact not_sameOutcome_of_live h.sameDb hadmissible hlive hfree

/-- After 61 seconds the nonce has expired, and the request gets the outcome it
would have got. -/
theorem sameOutcome_sample : ∃ w w' call, Sample.Retried w w' call ∧
    w.shared.now = 1_700_000_161_000_000 ∧
    (forwardRequest Sample.externals Sample.tight
      (Sample.request .first false false)).SameOutcome proxySemantics w.shared
        w'.shared := by
  obtain ⟨w, w', call, h, hnow, hexpired⟩ := Sample.exists_retried
    (Or.inr ⟨rfl, rfl⟩)
  refine ⟨w, w', call, h, hnow, ?_⟩
  apply (sameOutcome_iff_of_limited _ h.run h.run' h.call_mem h.request
    h.limited (Sample.nonce_request .first) h.never h.sameDb h.window
    h.window').mpr
  exact Or.inl (of_decide_eq_false hexpired)

end X402Guard

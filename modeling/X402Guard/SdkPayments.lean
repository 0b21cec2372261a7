/-
Payments of the clients.  A client sends a payment again when it got no answer,
and it cannot know whether the target was paid; the ledger of the proxy keeps a
payment for an agent from reaching the target twice, and a client that is
answered knows that it did.
-/
import X402Guard.ForwardEnding
import X402Guard.LedgerBacking
import X402Guard.SdkDeployment

namespace X402Guard.Sdk

open Interaction Prog

/-- The nonce of the authorization in a payment header. -/
def paymentNonce (ext : Externals) (x402Payment : String) : Option Bytes32 :=
  (ProxyRequest.authorization ext ⟨"", x402Payment, "", none, none⟩).map
    Prod.snd

/-- A payment with the nonce left for a target. -/
def pays (ext : Externals) (nonce : Bytes32) : Event Op Reply → Bool
  | ⟨.httpGet _ payment, reply, _, _⟩ =>
      reply.sent && paymentNonce ext payment = some nonce
  | _ => false

section Payments

variable {ext : Externals} {config : AppConfig} {nonce : Bytes32}

theorem pays_unordered (event : Event Op Reply) :
    pays ext nonce event.unordered = pays ext nonce event := by
  obtain ⟨op, reply, order, time⟩ := event
  cases op <;> rfl

/-- The payment that a call has sent is the one in its request. -/
theorem names_of_pays {call : Call (handle ext config)}
    {event : Event Op Reply} (hevent : event ∈ call.trace)
    (hpays : pays ext nonce event = true) :
    sent event = true ∧ call.request.nonce ext = some nonce := by
  obtain ⟨op, reply, order, time⟩ := event
  cases op with
  | httpGet url payment =>
      rw [pays, Bool.and_eq_true, decide_eq_true_eq] at hpays
      obtain ⟨hsent, hnonce⟩ := hpays
      refine ⟨hsent, ?_⟩
      obtain ⟨req, received, _, _, _, after, _, _, _, _, hforward, hafter, _,
        _, _, _, hreq⟩ := sent_parts hevent hsent
      have hwithin : (forwardToTarget ext req received).Within fun op =>
          op = .httpGet req.targetUrl req.x402Payment ∨ op.stage = 0 := by
        refine Within.bind (within_lift _ _) fun _ => ?_
        refine Within.bind ⟨Or.inl rfl, fun _ => trivial⟩ fun reply => ?_
        exact concludeForward_within req received reply fun _ => Or.inr rfl
      rcases hwithin.of_mem hforward _ hafter with heq | hstage
      · cases heq
        rw [hreq]
        exact hnonce
      · cases hstage
  | _ => cases hpays

/-- Where every request with the nonce names an agent, one payment leaves. -/
theorem countP_pays_le_one {s₀ : Shared}
    {Allowed : World (handle ext config) Shared →
      Action Request Micros Outcome → Prop}
    {w : World (handle ext config) Shared}
    (run : Run (World.step proxySemantics) Allowed
      (World.start (handle ext config) s₀) w)
    (hagents : ∀ call ∈ w.calls, call.request.nonce ext = some nonce →
      (call.request.agent ext).isSome = true) :
    w.events.countP (pays ext nonce) ≤ 1 := by
  refine Nat.le_trans ?_
    (timesSentForAgents_le_one run (World.events_start s₀) nonce)
  rw [World.events, List.countP_flatMap, timesSentForAgents]
  refine List.sum_le_sum fun call hcall => ?_
  by_cases hany : ∃ event ∈ call.trace, pays ext nonce event = true
  · obtain ⟨event, hevent, hpays⟩ := hany
    have hnonce := (names_of_pays hevent hpays).2
    rw [if_pos ⟨hagents call hcall hnonce, hnonce⟩]
    exact List.countP_mono_left fun event hevent hpays =>
      (names_of_pays hevent hpays).1
  · have hzero : call.trace.countP (pays ext nonce) = 0 :=
      List.countP_eq_zero.mpr fun event hevent hpays =>
        hany ⟨event, hevent, hpays⟩
    simp [hzero]

/-- A request that was answered has sent its payment. -/
theorem pays_of_answered {req : ProxyRequest} {trace : List (Event Op Reply)}
    {response : ProxyResponse}
    (hnonce : (Request.forwardRequest req).nonce ext = some nonce)
    (h : (forwardRequest ext config req).Reaches trace (lift (.ok response))) :
    ∃ event ∈ trace, pays ext nonce event = true := by
  rcases forwardRequest_ends h with ⟨error, _, heq⟩ |
    ⟨received, agentRules, before, after, rfl, _, hafter⟩
  · cases heq
  · rcases reaches_bind_lift_iff.mp hafter with
      ⟨error, _, heq⟩ | ⟨_, reserve, forward, rfl, _, hforward⟩
    · cases heq
    · generalize hresult : Except.ok response = result at hforward
      cases forwardToTarget_ends hforward with
      | notBuilt => cases hresult
      | unanswered => cases hresult
      | answered =>
          refine ⟨_, List.mem_append_right _ (List.mem_append_right _
            List.mem_cons_self), ?_⟩
          rw [pays, Bool.and_eq_true, decide_eq_true_eq]
          exact ⟨rfl, hnonce⟩

theorem handle_obeys_answered {req : ProxyRequest}
    (hnonce : (Request.forwardRequest req).nonce ext = some nonce)
    (trace : List (Event Op Reply)) :
    (handle ext config (.forwardRequest req)).Obeys (fun _ _ => True)
      (fun t result => ∀ answer, result = .ok answer →
        ∃ event ∈ t, pays ext nonce event = true) trace := by
  have hobeys : (forwardRequest ext config req).Obeys (fun _ _ => True)
      (fun t result => ∀ response, result = .ok response →
        ∃ event ∈ t, pays ext nonce event = true) trace := by
    refine obeys_of_reaches fun later result hreach response heq => ?_
    subst heq
    obtain ⟨event, hevent, hpays⟩ := pays_of_answered hnonce hreach
    exact ⟨event, List.mem_append_right _ hevent, hpays⟩
  refine hobeys.bind (fun t response hpaid _ _ => ?_)
    fun _ _ _ _ heq => by cases heq
  exact hpaid response rfl

end Payments

section Answered

variable {ext : Externals} {config : AppConfig} {client : X402GuardClient}
variable {route : ManagementApi.Route} {extracted : Except ℕ Request}
variable {K : List (Event Op Reply) → Prop}
variable {trace : List (Event NetOp NetReply)}

/-- What the proxy has done in a trace. -/
def proxyTrace (trace : List (Event NetOp NetReply)) :
    List (Event Op Reply) :=
  trace.filterMap proxyOps.project

@[simp] theorem proxyTrace_response {reply : ResponseTransit}
    {order time : ℕ} :
    proxyTrace (trace ++ [⟨.response, reply, order, time⟩]) =
      proxyTrace trace := by
  simp [proxyTrace, proxyOps]

/-- Where a handler answers, `K` holds of what was done. -/
def Tells (ext : Externals) (config : AppConfig)
    (extracted : Except ℕ Request) (K : List (Event Op Reply) → Prop) : Prop :=
  ∀ request, extracted = .ok request → ∀ trace,
    (handle ext config request).Obeys (fun _ _ => True)
      (fun t result => ∀ answer, result = .ok answer → K t) trace

theorem serve_obeys {ε : Type} (htells : Tells ext config extracted K) :
    (client.serve ext config route extracted : Net ε HttpResponse).Obeys
      (fun _ _ => True) (fun t result => ∀ response answer,
        result = .ok response → response.body = .ok answer →
          K (proxyTrace t)) trace := by
  rw [X402GuardClient.serve]
  split
  · intro _ _ heq hbody
    cases heq
    cases hbody
  · intro _ _ heq hbody
    cases heq
    cases hbody
  · rename_i request hserved
    have hhandler := htells request (createRouter_handled hserved).symm
    refine Obeys.bind (Q := fun t result => ∀ answer,
      result = .ok (.ok answer) → K (proxyTrace t)) ?_ ?_ ?_
    · refine (obeys_attempt (S := fun _ _ => True)
        (R := fun t result => ∀ answer, result = .ok (.ok answer) → K t)
        ?_).embed fun _ _ _ => trivial
      refine (hhandler _).mono (fun _ _ h => h) ?_
      intro t result hresult answer heq
      cases heq
      exact hresult answer rfl
    · intro t result hresult
      cases result with
      | ok answer =>
          intro _ _ _ _
          exact hresult answer rfl
      | error error =>
          intro _ _ heq hbody
          cases heq
          cases hbody
    · intro _ _ _ _ _ heq
      cases heq

theorem fetch_obeys {ε : Type} (htells : Tells ext config extracted K) :
    (client.fetch ext config route extracted :
      Net ε (Except Thrown HttpResponse)).Obeys (fun _ _ => True)
      (fun t result => ∀ response answer, result = .ok (.ok response) →
        response.body = .ok answer → K (proxyTrace t)) trace := by
  refine obeys_perform_bind trivial fun reply order time => ?_
  cases reply with
  | failed error =>
      intro _ _ heq
      cases heq
  | arrived =>
      refine (serve_obeys htells).bind (fun t served hserved => ?_)
        fun _ _ _ _ _ heq => by cases heq
      refine obeys_perform_bind trivial fun reply order time => ?_
      cases reply with
      | arrived =>
          intro response answer heq hbody
          cases heq
          simpa using hserved served answer rfl hbody
      | cutShort error =>
          intro response answer heq hbody
          cases heq
          simpa using hserved served answer rfl hbody
      | failed error =>
          intro _ _ heq
          cases heq

/-- By induction on the retries that are left. -/
theorem attempts_obeys {ε : Type} {retriesLeft : ℕ}
    (htells : Tells ext config extracted K) :
    (client.attempts ext config route extracted retriesLeft :
      Net ε (Except Thrown HttpResponse)).Obeys (fun _ _ => True)
      (fun t result => ∀ response answer, result = .ok (.ok response) →
        response.body = .ok answer → K (proxyTrace t)) trace := by
  induction retriesLeft generalizing trace with
  | zero => exact fetch_obeys htells
  | succ retriesLeft ih =>
      refine (fetch_obeys htells).bind (fun t result hresult => ?_)
        fun _ _ _ _ _ heq => by cases heq
      cases result with
      | ok response =>
          dsimp only
          split
          · exact obeys_perform_bind trivial fun _ _ _ => ih
          · exact hresult
      | error error =>
          dsimp only
          split
          · exact obeys_perform_bind trivial fun _ _ _ => ih
          · exact hresult

theorem request_obeys (htells : Tells ext config extracted K) :
    (client.request ext config route extracted).Obeys (fun _ _ => True)
      (fun t result => ∀ answer, result = .ok answer → K (proxyTrace t))
      trace := by
  refine (attempts_obeys htells).bind (fun t result hresult => ?_)
    fun _ _ _ _ heq => by cases heq
  cases result with
  | error error =>
      dsimp only
      split
      · exact fun _ heq => by cases heq
      · exact fun _ heq => by cases heq
  | ok response =>
      dsimp only
      split
      · exact fun _ heq => by cases heq
      · split
        · rename_i answer hbody
          exact fun _ _ => hresult response answer rfl hbody
        · split
          · exact fun _ heq => by cases heq
          · exact fun _ heq => by cases heq

end Answered

section Deployment

variable {ι : Type} {ext : Externals} {config : AppConfig}
variable {clients : ι → X402GuardClient} {nonce : Bytes32}

/-- How often payments with the nonce have left the proxy. -/
def timesPaid (nonce : Bytes32)
    (w : World (serveClient ext config clients) Shared) : ℕ :=
  (proxyTrace w.events).countP (pays ext nonce)

/-- However clients retry and whatever the network loses, a payment is sent
once if those who make it name an agent. -/
theorem timesPaid_le_one (s₀ : Shared) (nonce : Bytes32)
    {w : World (serveClient ext config clients) Shared}
    (run : Run (World.step netSemantics) always
      (World.start (serveClient ext config clients) s₀) w)
    (hagents : ∀ client ∈ w.calls, ∀ request,
      client.request.Asks ext clients request →
        request.nonce ext = some nonce →
          (request.agent ext).isSome = true) :
    timesPaid nonce w ≤ 1 := by
  obtain ⟨w', place, mirror, h⟩ := World.exists_mirrored
    (P := fun request => request.nonce ext = some nonce →
      (request.agent ext).isSome = true) proxyOps_simulates run
    fun client hclient => serveClient_serves client.request
      fun request hasks => hagents client hclient request hasks
  have hcount := h.events.countP_eq (pays ext nonce)
  have hunordered : pays ext nonce ∘ Event.unordered = pays ext nonce :=
    funext pays_unordered
  rw [List.countP_map, List.countP_map, hunordered] at hcount
  rw [timesPaid, proxyTrace, hcount]
  exact countP_pays_le_one mirror h.requests

/-- A client that was answered has seen its payment leave. -/
theorem timesPaid_pos {w : World (serveClient ext config clients) Shared}
    {call : Call (serveClient ext config clients)} {client : ι}
    {req : ProxyRequest} {answer : Response} (hcall : call ∈ w.calls)
    (hclient : call.request = .sdk client (.proxyPayment req))
    (hnonce : (Request.forwardRequest req).nonce ext = some nonce)
    (hanswered : call.rest = .ret (.returned client (.ok answer))) :
    0 < timesPaid nonce w := by
  have htells : Tells ext config (.ok (.forwardRequest req))
      fun t => ∃ event ∈ t, pays ext nonce event = true := by
    rintro _ ⟨⟩ t
    exact handle_obeys_answered hnonce t
  have hserves : (serveClient ext config clients
      (.sdk client (.proxyPayment req))).Obeys (fun _ _ => True)
      (fun t result => ∀ answer, result = .ok (.returned client (.ok answer)) →
        ∃ event ∈ proxyTrace t, pays ext nonce event = true) [] := by
    refine (obeys_attempt (R := fun t result => ∀ answer,
      result = .ok (.ok answer) → ∃ event ∈ proxyTrace t,
        pays ext nonce event = true) ?_).bind (fun t result hresult => ?_)
          fun _ _ _ _ heq => by cases heq
    · refine (request_obeys htells).mono (fun _ _ h => h) ?_
      intro t result hresult answer heq
      cases heq
      exact hresult answer rfl
    · intro answer heq
      cases heq
      exact hresult answer rfl
  rw [← hclient] at hserves
  have hended := hserves.rest call.reached
  rw [hanswered] at hended
  obtain ⟨event, hevent, hpays⟩ := hended answer rfl
  rw [List.nil_append] at hevent
  refine List.countP_pos_iff.mpr ⟨event, ?_, hpays⟩
  obtain ⟨seen, hseen, hproject⟩ := List.mem_filterMap.mp hevent
  exact List.mem_filterMap.mpr ⟨seen, World.mem_events hcall hseen, hproject⟩

/-- However clients retry and whatever the network loses, a payment that is
made for agents only leaves at most once, and once if a client was answered. -/
theorem payments_sent_once (s₀ : Shared) (nonce : Bytes32)
    {w : World (serveClient ext config clients) Shared}
    (run : Run (World.step netSemantics) always
      (World.start (serveClient ext config clients) s₀) w)
    (hagents : ∀ client ∈ w.calls, ∀ request,
      client.request.Asks ext clients request →
        request.nonce ext = some nonce →
          (request.agent ext).isSome = true) :
    timesPaid nonce w ≤ 1 ∧
    ∀ call ∈ w.calls, ∀ client req answer,
      call.request = .sdk client (.proxyPayment req) →
      (Request.forwardRequest req).nonce ext = some nonce →
      call.rest = .ret (.returned client (.ok answer)) →
        timesPaid nonce w = 1 := by
  have hle := timesPaid_le_one s₀ nonce run hagents
  refine ⟨hle, ?_⟩
  intro call hcall client req answer hclient hnonce hanswered
  have hpos := timesPaid_pos hcall hclient hnonce hanswered
  omega

end Deployment

namespace Sample

theorem asks_names_agent {w : World (serveClient X402Guard.Sample.externals
      X402Guard.Sample.config fun _ : Unit => client) Shared}
    (hrequests : w.calls.map Call.request = [.sdk () method]) :
    ∀ call ∈ w.calls, ∀ request,
      call.request.Asks X402Guard.Sample.externals (fun _ : Unit => client)
        request →
      (request.agent X402Guard.Sample.externals).isSome = true := by
  intro call hcall request hasks
  have hclient : call.request ∈ [Client.sdk () method] :=
    hrequests ▸ List.mem_map_of_mem hcall
  rw [List.mem_singleton.mp hclient] at hasks
  cases hasks
  obtain ⟨_, _, _, _, _, _, hagent, _⟩ := X402Guard.Sample.texts_parsed
  change (X402Guard.Sample.externals.parseUuid
    X402Guard.Sample.agentText).isSome = true
  rw [hagent]
  rfl

end Sample

/-- A payment that is made twice, as its first response is lost. -/
theorem payments_sent_once_sample : ∃ w,
    Run (World.step netSemantics) always
      (World.start (serveClient X402Guard.Sample.externals
        X402Guard.Sample.config fun _ : Unit => Sample.client)
        Sample.start) w ∧
    Sample.sentAndSlept w.toReplay = (1, 1) ∧
    timesPaid (X402Guard.Sample.nonce .first) w ≤ 1 ∧
    ∀ call ∈ w.calls, ∀ client req answer,
      call.request = .sdk client (.proxyPayment req) →
      (Request.forwardRequest req).nonce X402Guard.Sample.externals =
        some (X402Guard.Sample.nonce .first) →
      call.rest = .ret (.returned client (.ok answer)) →
        timesPaid (X402Guard.Sample.nonce .first) w = 1 := by
  obtain ⟨w, run, hseen, hrequests⟩ := Sample.exists_retried
  exact ⟨w, run, hseen, payments_sent_once _ _ run
    fun call hcall request hasks _ =>
      Sample.asks_names_agent hrequests call hcall request hasks⟩

end X402Guard.Sdk

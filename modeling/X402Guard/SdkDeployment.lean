/-
Clients of the SDK over a network that loses requests and responses, beside any
other requests to the proxy.  For the proxy their runs are runs of the requests
they make, and however often a client sends a payment again it reaches its
target at most once.
-/
import X402Guard.OwnershipGate
import X402Guard.SdkClient

namespace X402Guard.Sdk

open Interaction Prog ManagementApi

variable {ι : Type} (ext : Externals) (config : X402Guard.AppConfig)
variable (clients : ι → X402GuardClient)

/-- A call of a method, or a request that reaches a handler of the proxy by
another way: anyone else's, or one that its client has given up waiting for. -/
inductive Client (ι : Type)
  | sdk (client : ι) (method : SdkCall)
  | direct (request : Request)

inductive Answer (ι : Type)
  | returned (client : ι) (result : Except ClientError Response)
  | answered (result : Except AppError Response)

/-- What serves a client. -/
def serveClient : Client ι → Net Empty (Answer ι)
  | .sdk client method =>
      .returned client <$> (method.run ext config (clients client)).attempt
  | .direct request =>
      .answered <$> (handle ext config request).attempt.embed proxyOps

/-- What the environment decides of one operation. -/
structure NetOutcome where
  proxy : Outcome
  request : RequestTransit
  response : ResponseTransit

/-- One proxy with its database, and its clients. -/
def netSemantics : Semantics NetOp NetReply Shared NetOutcome Micros where
  perform
    | .proxy op, outcome, s => perform op outcome.proxy s
    | .request, outcome, s => (outcome.request, s)
    | .response, outcome, s => (outcome.response, s)
    | .sleep _, _, s => ((), s)
  external := proxySemantics.external
  clock := proxySemantics.clock

/-- The proxy's operations do in the deployment what they do in the proxy. -/
def proxyOps_simulates : proxyOps.Simulates proxySemantics netSemantics where
  outcome := NetOutcome.proxy
  perform_reply _ _ _ := rfl
  perform_shared _ _ _ := rfl
  perform_own op outcome s hown := by
    cases op with
    | proxy op =>
        cases hown (netSemantics.perform (.proxy op) outcome s).1 0 0
    | _ => rfl
  external := rfl
  clock := rfl

/-- The client may make the request. -/
def Client.Asks (request : Request) : Client ι → Prop
  | .sdk client method => method.extracted ext (clients client) = .ok request
  | .direct asked => asked = request

section Serves

variable {ext config clients} {client : X402GuardClient} {P : Request → Prop}
variable {route : Route} {extracted : Except ℕ Request}

theorem createRouter_handled {ρ : Type} {proxy : ManagementApi.AppConfig}
    {request : HttpRequest} {handler served : ρ}
    (h : createRouter proxy (fun _ _ => handler) route request =
      .handled served) : served = handler := by
  cases route with
  | publicRoute route => exact (Served.handled.inj h).symm
  | managementRoute route => exact DashboardActions.createRouter_handled h

theorem serve_serves {ε : Type}
    (hextracted : ∀ request, extracted = .ok request → P request) :
    (client.serve ext config route extracted : Net ε HttpResponse).Serves
      (handle ext config) proxyOps P := by
  rw [X402GuardClient.serve]
  split
  · exact .ret _
  · exact .ret _
  · rename_i request hserved
    refine .serve (hextracted request (createRouter_handled hserved).symm) ?_
    intro result
    cases result <;> exact .ret _

theorem fetch_serves {ε : Type}
    (hextracted : ∀ request, extracted = .ok request → P request) :
    (client.fetch ext config route extracted :
      Net ε (Except Thrown HttpResponse)).Serves (handle ext config) proxyOps
        P := by
  refine .own (fun _ _ _ => rfl) fun reply => ?_
  cases reply with
  | failed error => exact .ret _
  | arrived =>
      refine (serve_serves hextracted).bind fun response => ?_
      refine .own (fun _ _ _ => rfl) fun reply => ?_
      cases reply <;> exact .ret _

/-- By induction on the retries that are left. -/
theorem attempts_serves {ε : Type} {retriesLeft : ℕ}
    (hextracted : ∀ request, extracted = .ok request → P request) :
    (client.attempts ext config route extracted retriesLeft :
      Net ε (Except Thrown HttpResponse)).Serves (handle ext config) proxyOps
        P := by
  induction retriesLeft with
  | zero => exact fetch_serves hextracted
  | succ retriesLeft ih =>
      refine (fetch_serves hextracted).bind fun result => ?_
      cases result with
      | ok response =>
          dsimp only
          split
          · exact .own (fun _ _ _ => rfl) fun _ => ih
          · exact .ret _
      | error error =>
          dsimp only
          split
          · exact .own (fun _ _ _ => rfl) fun _ => ih
          · exact .ret _

theorem request_serves
    (hextracted : ∀ request, extracted = .ok request → P request) :
    (client.request ext config route extracted).Serves (handle ext config)
      proxyOps P := by
  refine (attempts_serves hextracted).bind fun result => ?_
  cases result with
  | error error =>
      dsimp only
      split <;> exact .throw _
  | ok response =>
      dsimp only
      split
      · exact .throw _
      · split
        · exact .ret _
        · split <;> exact .throw _

theorem serveClient_serves (client : Client ι)
    (hasks : ∀ request, client.Asks ext clients request → P request) :
    (serveClient ext config clients client).Serves (handle ext config) proxyOps
      P := by
  cases client with
  | sdk client method =>
      exact (request_serves hasks).attempt.bind fun _ => .ret _
  | direct request => exact .serve (hasks request rfl) fun _ => .ret _

end Serves

variable {ext config clients}

/-- For the proxy, a run of the deployment is a run of requests that its
clients make: the state is the same, and so is all that was done to it. -/
theorem deployment_refines_proxy (s₀ : Shared)
    {w' : World (serveClient ext config clients) Shared}
    (run : Run (World.step netSemantics) always
      (World.start (serveClient ext config clients) s₀) w') :
    ∃ w, Run (World.step proxySemantics) always
        (World.start (handle ext config) s₀) w ∧
      w.shared = w'.shared ∧
      ((w'.events.filterMap proxyOps.project).map Event.unordered).Perm
        (w.events.map Event.unordered) ∧
      ∀ call ∈ w.calls, ∃ client ∈ w'.calls,
        client.request.Asks ext clients call.request := by
  obtain ⟨w, place, mirror, h⟩ := World.exists_mirrored
    (P := fun request => ∃ client ∈ w'.calls,
      client.request.Asks ext clients request) proxyOps_simulates run
    fun client hclient => serveClient_serves client.request
      fun request hasks => ⟨client, hclient, hasks⟩
  exact ⟨w, mirror, h.shared, h.events, h.requests⟩

-- A payment that is made again: the response to the first attempt is lost
-- after the payment has left.

namespace Sample

def client : X402GuardClient where
  baseUrl := "http://localhost:3402"
  apiKey := none
  maxRetries := 1
  retryBaseMs := 1000
  retryBaseMs_ge := by decide
  parseSecs _ := none
  proxy := ManagementApi.Sample.configOf "secret"
  decodeSessionKey _ := none
  decodeRevokeAll _ := none
  syntaxError := ⟨false, "Unexpected end of JSON input"⟩

def payment : ProxyRequest := X402Guard.Sample.request .first true false

def method : SdkCall := .proxyPayment payment

/-- What the proxy makes of the payment, without the parsing. -/
def served {ε : Type} : Net ε HttpResponse := do
  match ← (Response.forwarded <$> X402Guard.Sample.forward .first true
      false).attempt.embed proxyOps with
  | .ok answer => return ⟨200, none, .ok answer, none⟩
  | .error error =>
      return ⟨error.response.1, none, .error (some error.response.2), none⟩

theorem serve_payment {ε : Type} :
    (client.serve X402Guard.Sample.externals X402Guard.Sample.config
      method.route (method.extracted X402Guard.Sample.externals client) :
        Net ε HttpResponse) = served := by
  rw [served, ← X402Guard.Sample.handle_forward]
  rfl

/-- The agent without rules, 100 seconds into the validity window. -/
def start : Shared :=
  Shared.start 1_700_000_100_000_000 (X402Guard.Sample.db none none)

/-- Nothing fails but what may happen to the response. -/
def outcome (response : ResponseTransit) : NetOutcome :=
  ⟨X402Guard.Sample.fine, .arrived, response⟩

abbrev Replayed := Replay NetOp NetReply Empty (Answer Unit)
  (Client Unit) Shared

/-- How many requests have left the proxy, and how often a client has slept. -/
def sentAndSlept (r : Replayed) : ℕ × ℕ :=
  let trace := r.threads.flatMap Thread.trace
  ((trace.filterMap proxyOps.project).countP sent,
    trace.countP fun event => match event.op with
      | .sleep _ => true
      | _ => false)

/-- The program of one attempt. -/
def fetched {ε : Type} : Net ε (Except Thrown HttpResponse) := do
  match (← Prog.perform NetOp.request : RequestTransit) with
  | .failed error => return .error error
  | .arrived => do
      let response ← served
      match (← Prog.perform NetOp.response : ResponseTransit) with
      | .arrived => return .ok response
      | .cutShort error =>
          return .ok { response with unreadable := some error }
      | .failed error => return .error error

theorem fetch_payment {ε : Type} :
    (client.fetch X402Guard.Sample.externals X402Guard.Sample.config
      method.route (method.extracted X402Guard.Sample.externals client) :
        Net ε (Except Thrown HttpResponse)) = fetched := by
  rw [X402GuardClient.fetch, serve_payment]
  rfl

/-- The program of its attempts. -/
def attempted {ε : Type} : Net ε (Except Thrown HttpResponse) := do
  match ← fetched with
  | .ok response =>
      if response.status = 429 then do
        Prog.perform
          (NetOp.sleep (client.retryAfterSecs response * 1000 * 2 ^ 0))
        fetched
      else return .ok response
  | .error error =>
      if error.isTypeError = true then do
        Prog.perform (NetOp.sleep (client.retryBaseMs * 2 ^ 0))
        fetched
      else return .error error

theorem fetchWithRetry_payment {ε : Type} :
    (client.fetchWithRetry X402Guard.Sample.externals X402Guard.Sample.config
      method.route (method.extracted X402Guard.Sample.externals client) :
        Net ε (Except Thrown HttpResponse)) = attempted := by
  rw [X402GuardClient.fetchWithRetry, show client.maxRetries = 1 from rfl,
    X402GuardClient.attempts, X402GuardClient.attempts, fetch_payment]
  rfl

/-- The payment leaves, its response is lost, and the second attempt finds the
nonce taken. -/
theorem exists_retried : ∃ w, Run (World.step netSemantics) always
      (World.start (serveClient X402Guard.Sample.externals
        X402Guard.Sample.config fun _ : Unit => client) start) w ∧
    sentAndSlept w.toReplay = (1, 1) ∧
    w.calls.map Call.request = [.sdk () method] := by
  refine World.exists_run_of_replay sentAndSlept (fun _ _ => true)
    (fun _ _ _ => trivial)
    (.arrive (.sdk () method) ::
      (List.replicate 17 (.advance 0
          (outcome (.failed ⟨true, "fetch failed"⟩))) ++
        List.replicate 10 (.advance 0 (outcome .arrived)))) ?_
  simp only [List.map_cons, Action.withProgram, serveClient, SdkCall.run,
    X402GuardClient.request, fetchWithRetry_payment]
  decide

end Sample

/-- A client that makes its payment twice, for the proxy. -/
theorem deployment_refines_proxy_sample : ∃ w',
    Run (World.step netSemantics) always
      (World.start (serveClient X402Guard.Sample.externals
        X402Guard.Sample.config fun _ : Unit => Sample.client)
        Sample.start) w' ∧
    Sample.sentAndSlept w'.toReplay = (1, 1) ∧
    ∃ w, Run (World.step proxySemantics) always
        (World.start (handle X402Guard.Sample.externals
          X402Guard.Sample.config) Sample.start) w ∧
      w.shared = w'.shared ∧
      ((w'.events.filterMap proxyOps.project).map Event.unordered).Perm
        (w.events.map Event.unordered) ∧
      ∀ call ∈ w.calls, ∃ client ∈ w'.calls,
        client.request.Asks X402Guard.Sample.externals
          (fun _ : Unit => Sample.client) call.request := by
  obtain ⟨w', run, hseen, _⟩ := Sample.exists_retried
  exact ⟨w', run, hseen, deployment_refines_proxy _ run⟩

end X402Guard.Sdk

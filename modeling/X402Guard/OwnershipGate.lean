/-
The ownership check of the dashboard, in a system of many dashboards and direct
requests over one proxy.  Between the moment an action looks the owner up and
the moment the proxy changes something, other calls take any number of steps,
and messages are lost; still no step changes settings of an agent but one of its
owner's action, or of a request that went around the dashboard.
-/
import X402Guard.ManagedAgents
import X402Guard.DashboardActions

namespace X402Guard.DashboardActions

open Interaction Prog RuleForms ManagementApi

section Clients

variable {ext : Externals} {config : X402Guard.AppConfig} {site : Site}

/-- What the proxy has done in a trace. -/
def proxyTrace (trace : List (Event WebOp WebReply)) :
    List (Event Op Reply) :=
  trace.filterMap proxyOps.project

theorem performed_proxyTrace_append {first second : List (Event WebOp WebReply)}
    {op : Op} {reply : Reply op} (h : Performed (proxyTrace first) op reply) :
    Performed (proxyTrace (first ++ second)) op reply := by
  rw [proxyTrace, List.filterMap_append]
  exact h.append_right

/-- The client may change settings of the agent: an action was of a session
with the owner's wallet, and a request that went around the dashboard manages
the agent. -/
def Client.ManagesFor (ext : Externals) (site : Site) (agentId : Uuid)
    (owner : String) (trace : List (Event WebOp WebReply)) : Client → Prop
  | .action called => ext.parseUuid called.agentId = some agentId ∧
      ∃ wallet, Performed trace .getUser (some (some wallet)) ∧
        site.toLowerCase owner = site.toLowerCase wallet
  | .direct request => request.ManagesFor agentId owner

/-- The rule of a client: what it changes is of an agent that it may manage,
whoever owns the agent for all it has seen. -/
def Client.Rule (ext : Externals) (site : Site) (client : Client)
    (trace : List (Event WebOp WebReply)) : WebOp → Prop
  | .proxy op => op.Permitted (fun agentId => ∀ owner,
      ShowsOwner (proxyTrace trace) agentId owner →
      client.ManagesFor ext site agentId owner trace) (proxyTrace trace)
  | _ => True

/-- The session's wallet was seen to own the agent. -/
def OwnerSeen (ext : Externals) (site : Site) (text : String)
    (trace : List (Event WebOp WebReply)) : Prop :=
  ∃ agentId agent wallet, ext.parseUuid text = some agentId ∧
    Performed (proxyTrace trace) (.postgres (.selectAgent agentId))
      (.ok (some agent)) ∧
    Performed trace .getUser (some (some wallet)) ∧
    site.toLowerCase agent.ownerAddress = site.toLowerCase wallet

theorem OwnerSeen.snoc {text : String}
    {trace : List (Event WebOp WebReply)} {event : Event WebOp WebReply}
    (h : OwnerSeen ext site text trace) :
    OwnerSeen ext site text (trace ++ [event]) := by
  obtain ⟨agentId, agent, wallet, hid, hagent, hwallet, hsame⟩ := h
  exact ⟨agentId, agent, wallet, hid, performed_proxyTrace_append hagent,
    hwallet.append_right, hsame⟩

@[simp] theorem proxyTrace_transit {trace : List (Event WebOp WebReply)}
    {reply : Transit} {order time : Nat} :
    proxyTrace (trace ++ [⟨.transit, reply, order, time⟩]) =
      proxyTrace trace := by
  simp [proxyTrace, proxyOps]

section Actions

variable {α : Type} {trace : List (Event WebOp WebReply)}
variable {S : List (Event WebOp WebReply) → WebOp → Prop}

/-- The router hands the handler on as it is, or answers itself. -/
theorem createRouter_handled {ρ : Type} {proxy : ManagementApi.AppConfig}
    {route : ManagementRoute} {request : HttpRequest} {handler served : ρ}
    (h : createRouter proxy (fun _ _ => handler) (.managementRoute route)
      request = .handled served) : served = handler := by
  simp only [createRouter, layer, extension, requireApiKey, unauthorized] at h
  split at h
  · cases h
  · split at h
    · cases h
    · split at h
      · cases h
      · exact (Served.handled.inj h).symm

/-- What a handler has done when its answer is there. -/
theorem serve_obeys {T : List (Event Op Reply) → Op → Prop}
    {Q : List (Event Op Reply) → Except AppError α → Prop}
    {route : ManagementRoute} {extracted : Except Nat (Handler α)}
    (hhandler : ∀ handler, extracted = .ok handler →
      handler.Obeys T Q (proxyTrace trace))
    (hS : ∀ t op, T (proxyTrace t) op → S t (.proxy op)) :
    (site.serve route extracted).Obeys S (fun t result => ∀ body,
      result = .ok (.ok body) → Q (proxyTrace t) (.ok body)) trace := by
  rw [Site.serve]
  split
  · exact fun _ heq => by cases heq
  · exact fun _ heq => by cases heq
  · rename_i handler hserved
    have hextracted := createRouter_handled hserved
    refine Obeys.bind (Q := fun t result => ∀ body,
      result = .ok (.ok body) → Q (proxyTrace t) (.ok body)) ?_ ?_ ?_
    · refine (obeys_attempt (R := fun t result => ∀ body,
        result = .ok (.ok body) → Q t (.ok body)) ?_).embed hS
      refine (hhandler handler hextracted.symm).mono (fun _ _ h => h) ?_
      intro t result hresult body heq
      cases heq
      exact hresult
    · intro t result hresult
      cases result with
      | ok body => 
        intro body' heq
        cases heq
        exact hresult body rfl
      | error error => exact fun _ heq => by cases heq
    · exact fun _ _ _ _ heq => by cases heq

theorem fetch_obeys {T : List (Event Op Reply) → Op → Prop}
    {Q : List (Event Op Reply) → Except AppError α → Prop}
    {route : ManagementRoute} {extracted : Except Nat (Handler α)}
    (hhandler : ∀ handler, extracted = .ok handler →
      handler.Obeys T Q (proxyTrace trace))
    (hS : ∀ t op, T (proxyTrace t) op → S t (.proxy op))
    (htransit : ∀ t, S t .transit) :
    (site.fetch route extracted).Obeys S (fun t result => ∀ body,
      result = .ok (.ok body) → Q (proxyTrace t) (.ok body)) trace := by
  refine obeys_perform_bind (htransit _) fun reply order time => ?_
  cases reply with
  | failed message => exact fun _ heq => by cases heq
  | delivered =>
      refine (serve_obeys (S := S) (T := T) (Q := Q) ?_ hS).bind ?_ ?_
      · simpa using hhandler
      · intro t response hresponse
        refine obeys_perform_bind (htransit _) fun reply order time => ?_
        cases reply with
        | failed message => exact fun _ heq => by cases heq
        | delivered =>
            intro body heq
            cases heq
            simpa using hresponse body rfl
      · exact fun _ _ _ _ heq => by cases heq

/-- The call that changes something, after the owner was seen. -/
theorem change_obeys {route : ManagementRoute}
    {extracted : Except Nat (Handler α)} {action : DashboardAction}
    (hseen : OwnerSeen ext site action.agentId trace)
    (hhandler : ∀ handler, extracted = .ok handler → ∀ t, handler.Obeys
      (fun t op => op.Permitted
        (fun agentId => ext.parseUuid action.agentId = some agentId) t)
      (fun _ _ => True) t) :
    (site.change route extracted).Obeys
      ((Client.action action).Rule ext site) (fun _ _ => True) trace := by
  have hchange : (site.change route extracted).Obeys (fun t op =>
      ∀ own, op = .proxy own → own.Permitted
        (fun agentId => ext.parseUuid action.agentId = some agentId)
        (proxyTrace t)) (fun _ _ => True) trace := by
    refine (fetch_obeys (Q := fun _ _ => True)
      (fun handler heq => hhandler handler heq _) ?_ ?_).bind ?_ ?_
    · rintro t op hop _ ⟨⟩
      exact hop
    · rintro t _ ⟨⟩
    · intro t response _
      cases response <;> trivial
    · exact fun _ _ _ => trivial
  refine hchange.keeping (fun _ _ => OwnerSeen.snoc) hseen ?_
    fun _ _ _ h => h
  intro t op hseen hop
  cases op with
  | proxy own =>
      obtain ⟨agentId, agent, wallet, hid, hagent, hwallet, hsame⟩ := hseen
      refine (hop own rfl).mono (fun id hmay owner hshows => ?_)
        (List.Subset.refl _)
      obtain rfl := Option.some.inj (hid.symm.trans hmay)
      exact ⟨hid, wallet, hwallet, hshows agent hagent ▸ hsame⟩
  | _ => trivial

theorem getAgent_obeys {T : List (Event Op Reply) → Op → Prop}
    {agentId : Uuid} {t : List (Event Op Reply)}
    (hselect : T t (.postgres (.selectAgent agentId))) :
    (getAgent agentId).Obeys T (fun t result => ∀ response,
      result = .ok response → ∃ agent, response.data = some agent ∧
        Performed t (.postgres (.selectAgent agentId)) (.ok (some agent)))
      t := by
  refine (requireAgent_obeys hselect).bind (fun t agent hagent => ?_)
    fun _ _ _ _ heq => by cases heq
  intro _ heq
  cases heq
  exact ⟨agent, rfl, hagent agent rfl⟩

/-- The wallet of a session is what `getUser` said. -/
theorem verifySession_obeys (hauth : ¬ site.skipsAuth)
    (huser : ∀ t, S t .getUser) :
    site.verifySession.Obeys S (fun t result => ∀ wallet,
      result = .ok (some wallet) →
        Performed t .getUser (some (some wallet))) trace := by
  rw [Site.verifySession, if_neg hauth]
  refine obeys_perform_bind (huser _) fun reply order time => ?_
  cases reply with
  | none => exact fun _ heq => by cases heq
  | some wallet? =>
      intro wallet heq
      cases heq
      exact ⟨order, time, by simp⟩

theorem extractId_eq_ok_iff {β : Type} {text : String} {handler : Uuid → β}
    {served : β} : extractId ext text handler = .ok served ↔
      ∃ agentId, ext.parseUuid text = some agentId ∧
        handler agentId = served := by
  rw [extractId]
  cases ext.parseUuid text <;> simp [okOr, Except.map]

/-- The lookup of the check shows the agent's row. -/
theorem lookup_obeys {client : Client} (text : String) :
    (site.fetch .getAgent (extractId ext text getAgent)).Obeys
      (client.Rule ext site) (fun t result => ∀ response,
        result = .ok (.ok response) → ∃ agentId agent,
          ext.parseUuid text = some agentId ∧ response.data = some agent ∧
          Performed (proxyTrace t) (.postgres (.selectAgent agentId))
            (.ok (some agent))) trace := by
  refine (fetch_obeys (S := client.Rule ext site) (T := fun t op =>
      op.Permitted (fun _ => False) t)
    (Q := fun t result => ∀ response, result = .ok response →
      ∃ agentId agent, ext.parseUuid text = some agentId ∧
        response.data = some agent ∧
        Performed t (.postgres (.selectAgent agentId)) (.ok (some agent)))
    ?_ ?_ fun _ => trivial).mono (fun _ _ h => h) ?_
  · intro handler heq
    obtain ⟨agentId, hid, rfl⟩ := extractId_eq_ok_iff.mp heq
    refine (getAgent_obeys trivial).mono (fun _ _ h => h) ?_
    intro t result hresult response heq
    obtain ⟨agent, hdata, hagent⟩ := hresult response heq
    exact ⟨agentId, agent, hid, hdata, hagent⟩
  · exact fun t op hop => hop.mono (fun _ => False.elim)
      (List.Subset.refl _)
  · exact fun t result h response heq => h response heq response rfl

/-- The check passes only for the owner. -/
theorem assertAgentOwnership_obeys (hauth : ¬ site.skipsAuth) {client : Client}
    (agentId : String) :
    (site.assertAgentOwnership ext agentId).Obeys (client.Rule ext site)
      (fun t result => result = .ok () → OwnerSeen ext site agentId t)
      trace := by
  rw [Site.assertAgentOwnership, if_neg hauth]
  refine (verifySession_obeys hauth fun _ => trivial).bind ?_
    fun _ _ _ heq => by cases heq
  intro t wallet? hwallet
  refine obeys_lift_bind (fun _ hnonempty => ?_) fun _ _ heq => by cases heq
  rw [rejectIf_eq_ok_iff] at hnonempty
  obtain ⟨wallet, rfl⟩ : ∃ wallet, wallet? = some wallet := by
    cases wallet? with
    | none => exact absurd rfl hnonempty
    | some wallet => exact ⟨wallet, rfl⟩
  -- what the lookup shows is added to what the session has shown
  refine ((lookup_obeys agentId).keeping
    (K := fun t => Performed t .getUser (some (some wallet)))
    (R := fun t result => Performed t .getUser (some (some wallet)) ∧ _)
    (fun _ _ h => h.append_right) (hwallet wallet rfl) (fun _ _ _ h => h)
    fun _ _ hwallet h => ⟨hwallet, h⟩).bind ?_ fun _ _ _ heq => by cases heq
  rintro t' response ⟨hwallet, hlookup⟩
  cases response with
  | threw message => exact fun heq => by cases heq
  | notOk status error => exact fun heq => by cases heq
  | ok response =>
      obtain ⟨id, agent, hid, hdata, hagent⟩ := hlookup response rfl
      dsimp only
      rw [hdata]
      refine obeys_lift_bind (fun _ _ => ?_) fun _ _ heq => by cases heq
      refine obeys_lift fun heq => ?_
      rw [rejectIf_eq_ok_iff, not_not] at heq
      exact ⟨id, agent, wallet, hid, hagent, hwallet, heq⟩

/-- An action goes on past its first checks only for the owner. -/
theorem authorize_obeys (hauth : ¬ site.skipsAuth) {client : Client}
    (agentId : String) (checks : Except FormFailure Unit) :
    (site.authorize ext agentId checks).Obeys (client.Rule ext site)
      (fun t result => result = .ok () → OwnerSeen ext site agentId t)
      trace := by
  refine (verifySession_obeys hauth fun _ => trivial).bind (fun _ _ _ => ?_)
    fun _ _ _ heq => by cases heq
  refine obeys_lift_bind (fun _ _ => ?_) fun _ _ heq => by cases heq
  refine obeys_lift_bind (fun _ _ => ?_) fun _ _ heq => by cases heq
  exact assertAgentOwnership_obeys hauth agentId

/-- A handler for the agent that an action names may be served to it. -/
theorem obeys_of_parsed {text : String} {agentId : Uuid} {handler : Handler α}
    (hid : ext.parseUuid text = some agentId)
    (hwithin : handler.Within (Op.Permitted (· = agentId) []))
    (t : List (Event Op Reply)) :
    handler.Obeys (fun t op => op.Permitted
      (fun agentId => ext.parseUuid text = some agentId) t)
      (fun _ _ => True) t :=
  obeys_of_within hwithin fun _ _ heq => heq ▸ hid

/-- An action changes settings of the agent it names for the owner alone. -/
theorem run_obeys (hauth : ¬ site.skipsAuth) (action : DashboardAction) :
    (action.run ext site).Obeys ((Client.action action).Rule ext site)
      (fun _ _ => True) trace := by
  cases action with
  | createGuardrailRule agentId formData =>
      refine Obeys.map (Q := fun _ _ => True)
        ((authorize_obeys hauth agentId _).bind ?_ fun _ _ _ => trivial)
      intro t _ hseen
      refine obeys_lift_bind (fun body _ => ?_) fun _ _ => trivial
      refine (change_obeys (hseen rfl) fun handler heq => ?_).map
      simp only [except_bind_eq_ok, okOr_eq_ok_iff] at heq
      obtain ⟨id, hid, ruleType, _, heq⟩ := heq
      cases heq
      exact obeys_of_parsed hid (createRule_permitted ruleType)
  | deleteGuardrailRule agentId ruleId =>
      refine Obeys.map (Q := fun _ _ => True)
        ((authorize_obeys hauth agentId _).bind ?_ fun _ _ _ => trivial)
      intro t _ hseen
      refine (change_obeys (hseen rfl) fun handler heq => ?_).map
      simp only [except_bind_eq_ok, okOr_eq_ok_iff] at heq
      obtain ⟨id, hid, rule, _, heq⟩ := heq
      cases heq
      exact obeys_of_parsed hid (deactivateRule_permitted rule)
  | createSessionKey agentId formData =>
      refine Obeys.map (Q := fun _ _ => True)
        ((authorize_obeys hauth agentId _).bind ?_ fun _ _ _ => trivial)
      intro t _ hseen
      refine obeys_lift_bind (fun form _ => ?_) fun _ _ => trivial
      refine obeys_perform_bind trivial fun now order time => ?_
      refine obeys_lift_bind (fun _ _ => ?_) fun _ _ => trivial
      refine obeys_lift_bind (fun expiresAt _ => ?_) fun _ _ => trivial
      refine (change_obeys (hseen rfl).snoc fun handler heq => ?_).map
      simp only [except_bind_eq_ok, okOr_eq_ok_iff] at heq
      obtain ⟨id, hid, req, _, heq⟩ := heq
      cases heq
      exact obeys_of_parsed hid (createSessionKey_permitted req)
  | revokeSessionKey agentId keyId =>
      refine Obeys.map (Q := fun _ _ => True)
        ((authorize_obeys hauth agentId _).bind ?_ fun _ _ _ => trivial)
      intro t _ hseen
      refine (change_obeys (hseen rfl) fun handler heq => ?_).map
      simp only [except_bind_eq_ok, okOr_eq_ok_iff] at heq
      obtain ⟨id, hid, key, _, heq⟩ := heq
      cases heq
      exact obeys_of_parsed hid (revokeSessionKey_permitted key)
  | revokeAllSessionKeys agentId ownerAddress =>
      refine Obeys.map (Q := fun _ _ => True)
        ((authorize_obeys hauth agentId _).bind ?_ fun _ _ _ => trivial)
      intro t _ hseen
      refine (change_obeys (hseen rfl) fun handler heq t' => ?_).map
      obtain ⟨id, hid, rfl⟩ := extractId_eq_ok_iff.mp heq
      refine (revokeAll_obeys _).mono (fun t op hop => ?_)
        fun _ _ _ => trivial
      exact hop.mono (fun _ hmay => hmay.1 ▸ hid) (List.Subset.refl t)

/-- Every client keeps to its rule. -/
theorem serveClient_obeys (hauth : ¬ site.skipsAuth) (client : Client) :
    (serveClient ext config site client).Obeys (client.Rule ext site)
      (fun _ _ => True) trace := by
  cases client with
  | action action => exact (run_obeys hauth action).map
  | direct request =>
      refine Obeys.map (Q := fun _ _ => True) ?_
      refine (obeys_attempt (R := fun _ _ => True)
        (handle_obeys request)).embed fun t op hop => ?_
      exact hop

end Actions

variable {Allowed : World (serveClient ext config site) Shared →
  Interaction.Action Client Micros WebOutcome → Prop}
variable {w : World (serveClient ext config site) Shared} {s₀ : Shared}

/-- In every run, what the proxy has replied goes on being true. -/
theorem web_replies_lasting
    (run : Run (World.step webSemantics) Allowed
      (World.start (serveClient ext config site) s₀) w) :
    ∀ call ∈ w.calls, ∀ op reply, Performed (proxyTrace call.trace) op reply →
      LastingFact op reply w.shared.db := by
  have hevents := World.settled
    (P := fun (event : Event WebOp WebReply) (s : Shared) => ∀ own,
      proxyOps.project event = some own →
      LastingFact own.op own.reply s.db) run (by simp) ?_ ?_ ?_
  · intro call hcall op reply hperformed
    obtain ⟨order, time, hmem⟩ := hperformed
    obtain ⟨event, hevent, hproject⟩ := List.mem_filterMap.mp hmem
    exact hevents event (World.mem_events hcall hevent) _ hproject
  · intro event elapsed s h
    exact h
  · intro event op outcome s h own hproject
    cases op with
    | proxy op =>
        exact perform_keeps_db (P := LastingFact own.op own.reply)
          (fun _ _ _ hchange => (h own hproject).change hchange)
          (h own hproject) op outcome.proxy
    | _ => exact h own hproject
  · intro w index call op next outcome _ _ _ own hproject
    cases op with
    | proxy op =>
        cases hproject
        exact perform_lastingFact op outcome.proxy w.shared
    | _ => cases hproject

/-- In every run, a step changes settings of an agent only if it is one of an
action of a session with the owner's wallet, which was seen to own the agent
before, or of a direct request that manages the agent. -/
theorem settings_changed_by_owner
    (run : Run (World.step webSemantics) Allowed
      (World.start (serveClient ext config site) s₀) w)
    (hauth : ¬ site.skipsAuth) {agentId : Uuid} {agent : Agent}
    (hagent : w.shared.db.agents.find? agentId = some agent)
    {action : Interaction.Action Client Micros WebOutcome}
    {w' : World (serveClient ext config site) Shared}
    (hstep : w.step webSemantics action = some w')
    (hchanged : w'.shared.db.settings agentId ≠
      w.shared.db.settings agentId) :
    ∃ index outcome call, action = .advance index outcome ∧
      w.calls[index]? = some call ∧
      call.request.ManagesFor ext site agentId agent.ownerAddress
        call.trace := by
  cases action with
  | arrive client =>
      cases hstep
      exact absurd rfl hchanged
  | external elapsed =>
      cases hstep
      exact absurd rfl hchanged
  | advance index outcome =>
      obtain ⟨call, op, next, hrest, hcall, rfl⟩ := World.step_advance hstep
      refine ⟨index, outcome, call, rfl, hcall, ?_⟩
      have hrule : call.request.Rule ext site call.trace op := by
        have hstart : (serveClient ext config site call.request).Obeys
            (call.request.Rule ext site) (fun _ _ => True) [] :=
          serveClient_obeys hauth call.request
        have hobeys := hstart.rest call.reached
        rw [hrest] at hobeys
        exact hobeys.1
      have hfacts := web_replies_lasting run call
        (List.mem_of_getElem? hcall)
      cases op with
      | proxy op =>
          have hmay := hrule.of_changed hfacts
            (KeyedTable.hasKey_iff.mpr
              ⟨agent, KeyedTable.find?_eq_some_iff.mp hagent⟩) hchanged
          refine hmay agent.ownerAddress fun seen hseen => ?_
          have howner : w.shared.db.ownerOf agentId =
              some seen.ownerAddress := (hfacts _ _ hseen).2
          rw [Db.ownerOf, hagent, Option.map_some] at howner
          exact (Option.some.inj howner).symm
      | _ => exact absurd rfl hchanged

end Clients

namespace Sample

/-- Dates are not read. -/
def dates : JsDates where
  Date := Unit
  parse _ := ()
  notAfter _ _ := false
  toISOString _ := .error "Invalid time value"

def lowerText : String := "0xf39fd6e51aad88f6f4ce6ab8827279cfffb92266"

def site : Site where
  js := .digits
  dates := dates
  managementApiKey := "secret"
  nodeEnv := "production"
  devSkipAuth := none
  toLowerCase text :=
    if text = X402Guard.Sample.signerText then lowerText else text
  proxy := ManagementApi.Sample.configOf "secret"
  parseDateTime _ := none

/-- Nothing fails, and the session is of the signer's wallet in another
spelling. -/
def fine : WebOutcome where
  proxy := ⟨false, X402Guard.Sample.agentId, .notSent ""⟩
  transit := .delivered
  date := 0
  user := some (some lowerText)

abbrev Replayed := Replay WebOp WebReply FormFailure Answer Client Shared

/-- The transaction that the second client is about to commit. -/
def committing (r : Replayed) : Option Tx :=
  (r.threads[1]?).bind fun thread => match thread.rest.op? with
    | some (.proxy (.postgres (.commit tx))) => some tx
    | _ => none

/-- The agent, and what is about to happen to it. -/
def agentAndTx (r : Replayed) : Option Agent × Option Tx :=
  (r.shared.db.agents.find? X402Guard.Sample.agentId, committing r)

def revokeAction : DashboardAction :=
  .revokeAllSessionKeys X402Guard.Sample.agentText
    X402Guard.Sample.signerText

end Sample

/-- The owner revokes all keys: the step that commits changes the agent. -/
theorem settings_changed_by_owner_sample : ∃ w w' index outcome call,
    Run (World.step webSemantics) always
      (World.start (serveClient X402Guard.Sample.externals
        X402Guard.Sample.config Sample.site)
        (Shared.start 1_700_000_100_000_000 .empty)) w ∧
    w.step webSemantics (.advance index outcome) = some w' ∧
    w'.shared.db.settings X402Guard.Sample.agentId ≠
      w.shared.db.settings X402Guard.Sample.agentId ∧
    w.calls[index]? = some call ∧
    call.request.ManagesFor X402Guard.Sample.externals Sample.site
      X402Guard.Sample.agentId X402Guard.Sample.signerText call.trace := by
  have hrun : ∃ w, Run (World.step webSemantics) always
      (World.start (serveClient X402Guard.Sample.externals
        X402Guard.Sample.config Sample.site)
        (Shared.start 1_700_000_100_000_000 .empty)) w ∧
      Sample.agentAndTx w.toReplay =
        (some ⟨X402Guard.Sample.agentId, "trader",
          X402Guard.Sample.signerText, true⟩,
          some ⟨[], [X402Guard.Sample.agentId]⟩) ∧
      w.calls.map Call.request =
        [.direct (.createAgent ⟨"trader", X402Guard.Sample.signerText⟩),
          .action Sample.revokeAction] := by
    refine World.exists_run_of_replay Sample.agentAndTx (fun _ _ => true)
      (fun _ _ _ => trivial)
      ([.arrive (.direct (.createAgent
          ⟨"trader", X402Guard.Sample.signerText⟩)),
        .advance 0 Sample.fine, .arrive (.action Sample.revokeAction)] ++
          List.replicate 10 (.advance 1 Sample.fine)) ?_
    decide
  obtain ⟨w, run, hseen, hrequests⟩ := hrun
  obtain ⟨created, revoking, hcalls, _, _⟩ := World.calls_eq_pair hrequests
  obtain ⟨hagent, htx⟩ := Prod.mk.inj hseen
  -- the action is about to commit
  have hwaits : ∃ next, revoking.rest =
      .call (.proxy (.postgres (.commit ⟨[], [X402Guard.Sample.agentId]⟩)))
        next := by
    rw [← op?_eq_some_iff]
    simp only [Sample.committing, World.toReplay, hcalls, List.map_cons,
      List.map_nil, Call.toThread, List.getElem?_cons_succ,
      List.getElem?_cons_zero, Option.bind_some] at htx
    split at htx
    · rename_i hop
      cases htx
      exact hop
    · cases htx
  obtain ⟨next, hrest⟩ := hwaits
  have hcall : w.calls[1]? = some revoking := by simp [hcalls]
  have hstep : w.step webSemantics (.advance 1 Sample.fine) =
      some (w.perform webSemantics 1 revoking hrest Sample.fine) :=
    World.step_perform hrest hcall Sample.fine
  have hchanged : (w.perform webSemantics 1 revoking hrest
      Sample.fine).shared.db.settings X402Guard.Sample.agentId ≠
        w.shared.db.settings X402Guard.Sample.agentId := by
    intro hsame
    have hafter : (w.perform webSemantics 1 revoking hrest
        Sample.fine).shared.db =
          w.shared.db.commit ⟨[], [X402Guard.Sample.agentId]⟩ := rfl
    have hbefore : w.shared.db.agents.find? X402Guard.Sample.agentId =
      some ⟨_, _, _, true⟩ := hagent
    have hagents := congrArg AgentSettings.agent hsame
    rw [hafter, Db.settings, Db.settings, Db.commit,
      Db.find?_deactivateAgents, Db.revokeKeys, hbefore] at hagents
    simp at hagents
  obtain ⟨index, outcome, call, heq, hcall', hmanages⟩ :=
    settings_changed_by_owner run (by decide) hagent hstep hchanged
  cases heq
  exact ⟨w, _, 1, Sample.fine, call, run, hstep, hchanged, hcall', hmanages⟩

end X402Guard.DashboardActions

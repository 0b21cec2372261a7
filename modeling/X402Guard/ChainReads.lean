/-
The Solana routes while the chain moves on.  Any number of requests run between
any transactions, and the node may answer from any state the chain has been in.
Whatever is forwarded passed its checks against such a state, and whatever is
answered was true of one.  Only the first URL that a payment goes to is checked.
-/
import X402Guard.FreshWindow
import X402Guard.ProxySystem
import X402Guard.SolanaNode
import X402Guard.SoloExecution

namespace X402Guard

open Interaction SolanaRoute
open Borsh (Holds serialize)

/-- The chain with all its history, and the events sent to the audit writer. -/
structure ChainShared where
  steps : List (Taken Ledger LedgerAction)
  ledger : Ledger
  audit : List AuditEvent

namespace ChainShared

def start (ledger : Ledger) : ChainShared := ⟨[], ledger, []⟩

/-- The chain before its step `n`, or as it is now. -/
def ledgerAt (s : ChainShared) (n : ℕ) : Ledger :=
  match s.steps[n]? with
  | some taken => taken.before
  | none => s.ledger

/-- The chain was in the state after at most `height` steps. -/
def Showed (solana : Solana) (ledger₀ : Ledger) (s : ChainShared)
    (height : ℕ) (ledger : Ledger) : Prop :=
  ∃ earlier, earlier <+: s.steps ∧ earlier.length ≤ height ∧
    Trail (Ledger.step solana) ledger₀ earlier ledger

end ChainShared

/-- The choices of the environment: the clock of the proxy, whether the audit
channel is full, the state the node answers from, how it answers, and where the
target sends a request and replies to it. -/
structure ChainOutcome where
  clock : Option ℕ
  full : Bool
  moment : ℕ
  seed : ℕ
  http : Followed

def chainPerform (node : Node) :
    (op : SolanaOp) → ChainOutcome → ChainShared → SolanaReply op × ChainShared
  | .clock, outcome, s => (outcome.clock, s)
  | .emit event, outcome, s =>
      if outcome.full then (false, s)
      else (true, { s with audit := s.audit ++ [event] })
  | .rpcPost url request, outcome, s =>
      (node (s.ledgerAt outcome.moment) url request outcome.seed, s)
  | .httpGet .., outcome, s => (outcome.http, s)

/-- The outside world sends transactions; its clock counts those that
succeeded. -/
def chainSemantics (solana : Solana) (node : Node) :
    Semantics SolanaOp SolanaReply ChainShared ChainOutcome LedgerAction where
  perform := chainPerform node
  external action s :=
    match s.ledger.step solana action with
    | some after =>
        { s with
          steps := s.steps ++ [⟨s.ledger, action, after⟩]
          ledger := after }
    | none => s
  clock s := s.steps.length

inductive SolanaRequest
  | forward (req : SolanaProxyRequest)
  | vaultStatus (ownerPubkey : String)

inductive SolanaAnswer
  | forward (response : SolanaProxyResponse)
  | vaultStatus (response : VaultStatusResponse)

/-- The routes by the request they serve. -/
def solanaHandle (ext : SolanaExternals) (config : StatusConfig) :
    SolanaRequest → SolanaHandler SolanaAnswer
  | .forward req => .forward <$>
      forwardSolanaRequest ext config.toSolanaConfig req
  | .vaultStatus ownerPubkey => .vaultStatus <$>
      getVaultStatus ext config ownerPubkey

/-- What the pre-flight checks ask of a vault, over the integers. -/
structure VaultState.PassesAt (vault : VaultState) (amount : UInt64)
    (destinationProgram : Option String) (clock : Option ℕ) : Prop where
  active : vault.isActive = true
  notExpired : 0 < vault.agentExpiresAt →
    ∃ now ∈ clock, (now : ℤ) ≤ vault.agentExpiresAt.toInt
  perTx : amount ≤ vault.maxSpendPerTx
  perDay : vault.spentToday.toNat + amount.toNat ≤ vault.maxSpendPerDay.toNat
  listed : vault.allowedPrograms = [] ∨ ∀ dest ∈ destinationProgram,
    ∃ key ∈ vault.allowedPrograms, dest = key.text

theorem checkAgentExpiry_ok {vault : SolanaRpc.VaultState} {clock : Option ℕ}
    (h : checkAgentExpiry vault clock = .ok ())
    (hexpires : 0 < vault.agentExpiresAt) :
    ∃ now ∈ clock, (now : ℤ) ≤ vault.agentExpiresAt.toInt := by
  have hpos : 0 < vault.agentExpiresAt.toInt :=
    Int64.lt_iff_toInt_lt.mp hexpires
  have hat : u64TryFrom vault.agentExpiresAt.toInt =
      some vault.agentExpiresAt.toInt.toNat :=
    if_pos (Int.le_of_lt hpos)
  rw [checkAgentExpiry, if_pos hexpires] at h
  simp only [except_bind_eq_ok, okOr_eq_ok_iff, hat, Option.getD_some,
    refuseIf_eq_ok_iff, gt_iff_lt, not_lt] at h
  obtain ⟨now, hclock, hle⟩ := h
  exact ⟨now, hclock, by omega⟩

theorem checkDestination_ok {vault : SolanaRpc.VaultState}
    {destinationProgram : Option String}
    (h : checkDestination vault destinationProgram = .ok ()) :
    vault.allowedPrograms = [] ∨ ∀ dest ∈ destinationProgram,
      ∃ key ∈ vault.allowedPrograms, dest = key.text := by
  by_cases hnone : vault.allowedPrograms = []
  · exact Or.inl hnone
  · refine Or.inr fun dest hdest => ?_
    cases hdest
    simp only [checkDestination, ne_eq, hnone, not_false_eq_true, ↓reduceIte,
      except_bind_eq_ok, orFail, mapError_eq_ok_iff,
      decodePubkey_eq_ok_iff_text, refuseIf_eq_ok_iff, not_not] at h
    obtain ⟨key, hkey, hlisted⟩ := h
    exact ⟨key, hlisted, hkey⟩

/-- What passes leaves the rest of the day. -/
theorem preflight_ok {vault : VaultState} {amount remaining : UInt64}
    {destinationProgram : Option String} {clock : Option ℕ}
    (h : preflight (SolanaRpc.VaultState.ofVault vault) amount
      destinationProgram clock = .ok remaining) :
    vault.PassesAt amount destinationProgram clock ∧
      vault.spentToday.toNat + amount.toNat + remaining.toNat =
        vault.maxSpendPerDay.toNat := by
  simp only [preflight, except_bind_eq_ok, refuseIf_eq_ok_iff, okOr_eq_ok_iff,
    exists_const, not_not, gt_iff_lt, UInt64.not_lt] at h
  obtain ⟨hactive, _, hexpiry, hperTx, total, hadded, hperDay, _, hlisted,
    hremaining⟩ := h
  have htotal := checkedAdd_toNat hadded
  have hle := UInt64.le_iff_toNat_le.mp hperDay
  rw [if_pos hperDay] at hremaining
  cases hremaining
  have hsub := UInt64.toNat_sub_of_le _ _ hperDay
  simp only [SolanaRpc.VaultState.ofVault] at hactive hperTx htotal hle hsub ⊢
  refine ⟨⟨hactive, checkAgentExpiry_ok hexpiry, hperTx, by omega,
    checkDestination_ok hlisted⟩, by omega⟩

namespace ChainShared

variable {solana : Solana} {ledger₀ ledger : Ledger} {s s' : ChainShared}

/-- The history leads to the present. -/
def Consistent (solana : Solana) (ledger₀ : Ledger) (s : ChainShared) : Prop :=
  Trail (Ledger.step solana) ledger₀ s.steps s.ledger

/-- What the node can answer from has been. -/
theorem Consistent.showed (h : s.Consistent solana ledger₀) (n : ℕ) :
    s.Showed solana ledger₀ s.steps.length (s.ledgerAt n) := by
  cases hn : s.steps[n]? with
  | none =>
      refine ⟨s.steps, List.prefix_rfl, Nat.le_refl _, ?_⟩
      rw [ledgerAt, hn]
      exact h
  | some taken =>
      obtain ⟨hlt, hget⟩ := List.getElem?_eq_some_iff.mp hn
      have hsteps : s.steps =
          s.steps.take n ++ taken :: s.steps.drop (n + 1) := by
        rw [← hget, ← List.drop_eq_getElem_cons hlt, List.take_append_drop]
      refine ⟨s.steps.take n, List.take_prefix n _,
        List.length_take_le' n _, ?_⟩
      rw [ledgerAt, hn]
      rw [Consistent, hsteps] at h
      exact h.cut.1

/-- What has been shown stays part of the history. -/
theorem Showed.mono {height : ℕ} (h : s.Showed solana ledger₀ height ledger)
    (hsteps : s.steps <+: s'.steps) :
    s'.Showed solana ledger₀ height ledger := by
  obtain ⟨earlier, hprefix, hlength, trail⟩ := h
  exact ⟨earlier, hprefix.trans hsteps, hlength, trail⟩

end ChainShared

section Interleavings

variable {solana : Solana} {node : Node}

theorem chainPerform_steps (op : SolanaOp) (outcome : ChainOutcome)
    (s : ChainShared) : (chainPerform node op outcome s).2.steps = s.steps ∧
      (chainPerform node op outcome s).2.ledger = s.ledger := by
  cases op with
  | emit event =>
      simp only [chainPerform]
      split <;> exact ⟨rfl, rfl⟩
  | _ => exact ⟨rfl, rfl⟩

theorem external_steps (action : LedgerAction) (s : ChainShared) :
    s.steps <+: ((chainSemantics solana node).external action s).steps := by
  simp only [chainSemantics]
  split
  · exact List.prefix_append _ _
  · exact List.prefix_rfl

theorem external_consistent {ledger₀ : Ledger} {s : ChainShared}
    (h : s.Consistent solana ledger₀) (action : LedgerAction) :
    ((chainSemantics solana node).external action s).Consistent solana
      ledger₀ := by
  simp only [chainSemantics]
  split
  · rename_i hstep
    exact Trail.snoc h hstep
  · exact h

/-- A reply of the node is one about a state the chain has been in. -/
def Told (solana : Solana) (node : Node) (ledger₀ : Ledger) (s : ChainShared) :
    Event SolanaOp SolanaReply → Prop
  | ⟨.rpcPost url request, reply, _, time⟩ => ∃ ledger seed,
      s.Showed solana ledger₀ time ledger ∧ reply = node ledger url request seed
  | _ => True

theorem Told.mono {ledger₀ : Ledger} {s s' : ChainShared}
    {event : Event SolanaOp SolanaReply} (h : Told solana node ledger₀ s event)
    (hsteps : s.steps <+: s'.steps) : Told solana node ledger₀ s' event := by
  obtain ⟨op, reply, order, time⟩ := event
  cases op with
  | rpcPost url request =>
      obtain ⟨ledger, seed, hshowed, hreply⟩ := h
      exact ⟨ledger, seed, hshowed.mono hsteps, hreply⟩
  | _ => trivial

variable {ext : SolanaExternals} {config : StatusConfig}
variable {now : Int64} {tokens : TokenTable}
variable {w : World (solanaHandle ext config) ChainShared}

/-- The start of every run: no request has come, no vault exists. -/
def solanaStart (ext : SolanaExternals) (config : StatusConfig) (now : Int64)
    (tokens : TokenTable) : World (solanaHandle ext config) ChainShared :=
  World.start _ (ChainShared.start (Ledger.start now tokens))

theorem consistent_of_run
    (run : Run (World.step (chainSemantics solana node)) always
      (solanaStart ext config now tokens) w) :
    w.shared.Consistent solana (Ledger.start now tokens) := by
  refine World.shared_invariant
    (I := fun s => s.Consistent solana (Ledger.start now tokens)) run
    (.nil _) ?_ ?_
  · intro action s h
    exact external_consistent h action
  · intro op outcome s h
    obtain ⟨hsteps, hledger⟩ : (chainPerform node op outcome s).2.steps =
        s.steps ∧ (chainPerform node op outcome s).2.ledger = s.ledger :=
      chainPerform_steps op outcome s
    change Trail _ _ _ _
    rw [show (chainSemantics solana node).perform = chainPerform node from rfl,
      hsteps, hledger]
    exact h

theorem told_of_run
    (run : Run (World.step (chainSemantics solana node)) always
      (solanaStart ext config now tokens) w) :
    ∀ event ∈ w.events,
      Told solana node (Ledger.start now tokens) w.shared event := by
  refine World.settled
    (P := fun event s => Told solana node (Ledger.start now tokens) s event)
    run (by simp [solanaStart]) ?_ ?_ ?_
  · intro event action s h
    exact h.mono (external_steps action s)
  · intro event op outcome s h
    refine h.mono ?_
    change s.steps <+: (chainPerform node op outcome s).2.steps
    rw [(chainPerform_steps op outcome s).1]
  · intro w index call op next outcome hrest hcall run
    cases op with
    | rpcPost url request =>
        exact ⟨_, outcome.seed, (consistent_of_run run).showed _, rfl⟩
    | _ => trivial

/-- What was decoded of the account of a vault is the vault, as it was at some
time up to the reply. -/
theorem vault_of_saysAccount (htruth : node.Truthful solana)
    (hbase64 : ext.DecodesBase64)
    (run : Run (World.step (chainSemantics solana node)) always
      (solanaStart ext config now tokens) w)
    {event : Event SolanaOp SolanaReply} (hevent : event ∈ w.events)
    {owner : Pubkey} {data : List UInt8} {decoded : SolanaRpc.VaultState}
    (htells : SaysAccount ext (solana.findVaultAddress owner).1 (some data)
      event)
    (hdecoded : SolanaRpc.VaultState.fromAccountData data = .ok decoded) :
    ∃ ledger vault, w.shared.Showed solana (Ledger.start now tokens) event.time
        ledger ∧
      ledger.vault? (solana.findVaultAddress owner).1 = some vault ∧
      decoded = SolanaRpc.VaultState.ofVault vault := by
  have htold := told_of_run run event hevent
  obtain ⟨op, reply, order, time⟩ := event
  cases op with
  | rpcPost url request =>
      obtain ⟨ledger, seed, hshowed, hreply⟩ := htold
      obtain ⟨rfl, hread⟩ := htells
      rw [hreply] at hread
      have haccount := readAccountInfo_held hbase64
        (htruth.account ledger url owner _ seed (asks_accountInfo _)) hread
      rw [Ledger.AccountData] at haccount
      cases hvault : ledger.vault? (solana.findVaultAddress owner).1 with
      | none =>
          rw [hvault] at haccount
          rcases haccount with hnone | hempty
          · cases hnone
          · cases hempty
            cases hdecoded
      | some vault =>
          rw [hvault] at haccount
          obtain ⟨_, hdata, hholds⟩ := haccount
          cases hdata
          obtain ⟨_, _, _, trail⟩ := id hshowed
          have hfew := (wellKept_of_trail trail vault hvault).1.fewPrograms
          rw [SolanaRpc.VaultState.fromAccountData_of_holds hholds hfew]
            at hdecoded
          exact ⟨ledger, vault, hshowed, hvault,
            (Except.ok.inj hdecoded).symm⟩
  | _ => exact htells.elim

theorem account_of_saysBalance (htruth : node.Truthful solana)
    (run : Run (World.step (chainSemantics solana node)) always
      (solanaStart ext config now tokens) w)
    {event : Event SolanaOp SolanaReply} (hevent : event ∈ w.events)
    {address : Pubkey} {amount : ℕ}
    (htells : SaysBalance ext address amount event) :
    ∃ ledger, w.shared.Showed solana (Ledger.start now tokens) event.time
        ledger ∧
      ledger.TokenAmount address amount := by
  have htold := told_of_run run event hevent
  obtain ⟨op, reply, order, time⟩ := event
  cases op with
  | rpcPost url request =>
      obtain ⟨ledger, seed, hshowed, hreply⟩ := htold
      obtain ⟨rfl, hread⟩ := htells
      rw [hreply] at hread
      exact ⟨ledger, hshowed, readTokenBalance_held
        (htruth.balance ledger url address _ seed (asks_tokenBalance _)) hread⟩
  | _ => exact htells.elim

theorem locateVault_ok (hdeployed : Deployed ext config solana)
    {req : SolanaProxyRequest} {location : VaultLocation}
    (h : locateVault ext config.toSolanaConfig req = .ok location) :
    validateTargetUrl ext.toExternals req.targetUrl = .ok () ∧
      ∃ owner : Pubkey, req.vaultOwner = owner.text ∧
        location.vaultPda = (solana.findVaultAddress owner).1 := by
  simp only [locateVault, orFail, except_bind_eq_ok, mapError_eq_ok_iff,
    refuseIf_eq_ok_iff, okOr_eq_ok_iff, decodePubkey_eq_ok_iff_text] at h
  obtain ⟨_, htarget, _, _, _, _, programId, hprogramId, owner, howner,
    program, rfl, found, hfound, hlocation⟩ := h
  cases hlocation
  obtain rfl := Pubkey.text_inj (hdeployed.named _ hprogramId)
  rw [deriveVaultPda_eq hdeployed] at hfound
  cases hfound
  exact ⟨htarget, owner, howner, rfl⟩

theorem locateStatus_ok (hdeployed : Deployed ext config solana)
    {ownerPubkey : String} {location : VaultLocation} {usdcMint : Pubkey}
    (h : locateStatus ext config ownerPubkey = .ok (location, usdcMint)) :
    (∃ owner : Pubkey, ownerPubkey = owner.text ∧
      location.vaultPda = (solana.findVaultAddress owner).1) ∧
    config.solanaUsdcMint = some usdcMint.text := by
  simp only [locateStatus, orFail, except_bind_eq_ok, mapError_eq_ok_iff,
    okOr_eq_ok_iff, decodePubkey_eq_ok_iff_text] at h
  obtain ⟨_, _, programId, hprogramId, mint, hmint, owner, howner, program,
    rfl, decoded, rfl, found, hfound, hlocation⟩ := h
  cases hlocation
  obtain rfl := Pubkey.text_inj (hdeployed.named _ hprogramId)
  rw [deriveVaultPda_eq hdeployed] at hfound
  cases hfound
  exact ⟨⟨owner, howner, rfl⟩, hmint⟩

/-- In a state that the chain had been in, the vault of the owner that the
request names passed the checks, at the clock that the call read, and
`remaining` was left for the day. -/
structure Cleared (solana : Solana) (req : SolanaProxyRequest) (owner : Pubkey)
    (remaining : UInt64) (ledger : Ledger)
    (trace : List (Event SolanaOp SolanaReply)) : Prop where
  named : req.vaultOwner = owner.text
  passes : ∃ vault clock,
    ledger.vault? (solana.findVaultAddress owner).1 = some vault ∧
    (0 < vault.agentExpiresAt → Performed trace .clock clock) ∧
    vault.PassesAt req.amount req.destinationProgram clock ∧
    vault.spentToday.toNat + req.amount.toNat + remaining.toNat =
      vault.maxSpendPerDay.toNat

/-- The state was shown to the call at one of its steps. -/
def SeenBy (solana : Solana) (ledger₀ : Ledger) (s : ChainShared)
    (trace : List (Event SolanaOp SolanaReply)) (ledger : Ledger) : Prop :=
  ∃ event ∈ trace, s.Showed solana ledger₀ event.time ledger

theorem ChainShared.Showed.later {ledger₀ ledger : Ledger} {s : ChainShared}
    {height height' : ℕ} (h : s.Showed solana ledger₀ height ledger)
    (hle : height ≤ height') : s.Showed solana ledger₀ height' ledger := by
  obtain ⟨earlier, hprefix, hlength, trail⟩ := h
  exact ⟨earlier, hprefix, Nat.le_trans hlength hle, trail⟩

section Runs

variable (htruth : node.Truthful solana) (hbase64 : ext.DecodesBase64)
variable (hdeployed : Deployed ext config solana)
variable (run : Run (World.step (chainSemantics solana node)) always
  (solanaStart ext config now tokens) w)

include htruth hbase64 hdeployed run

/-- Checks that passed did so against a state the chain had been in. -/
theorem passed_of_preflighted {req : SolanaProxyRequest}
    {location : VaultLocation} {remaining : UInt64}
    {checks trace : List (Event SolanaOp SolanaReply)}
    (hlocation : locateVault ext config.toSolanaConfig req = .ok location)
    (hchecks : Preflighted ext location req remaining checks)
    (hworld : ∀ event ∈ checks, event ∈ w.events) (htrace : checks ⊆ trace) :
    ∃ owner ledger, location.vaultPda = (solana.findVaultAddress owner).1 ∧
      SeenBy solana (Ledger.start now tokens) w.shared checks ledger ∧
      Cleared solana req owner remaining ledger trace := by
  obtain ⟨_, owner, howner, hpda⟩ := locateVault_ok hdeployed hlocation
  obtain ⟨event, hevent, data, decoded, clock, htells, hdecoded, hclock,
    hpassed⟩ := hchecks.passed
  rw [hpda] at htells
  obtain ⟨ledger, vault, hshowed, hvault, rfl⟩ :=
    vault_of_saysAccount htruth hbase64 run (hworld event hevent) htells
      hdecoded
  obtain ⟨hpasses, hremaining⟩ := preflight_ok hpassed
  refine ⟨owner, ledger, hpda, ⟨event, hevent, hshowed⟩, howner, vault, clock,
    hvault, ?_, hpasses, hremaining⟩
  intro hexpires
  exact (hclock hexpires).mono htrace

end Runs

theorem chainSemantics_clockMonotone (solana : Solana) (node : Node) :
    (chainSemantics solana node).ClockMonotone where
  perform op outcome s := by
    change s.steps.length ≤ (chainPerform node op outcome s).2.steps.length
    rw [(chainPerform_steps op outcome s).1]
  external action s := (external_steps action s).length_le

/-- Whatever is sent was sent once, right after it was reported, and after the
vault of the named owner passed the checks in a state the chain had been in.  It
goes to the target of the request, which passed the check of its URL, and from
there to where it is redirected, which no check sees. -/
theorem forwarded_passed (htruth : node.Truthful solana)
    (hbase64 : ext.DecodesBase64) (hdeployed : Deployed ext config solana)
    (run : Run (World.step (chainSemantics solana node)) always
      (solanaStart ext config now tokens) w) :
    ∀ call ∈ w.calls, ∀ event ∈ call.trace, forwards event.op = true →
      ∃ req owner remaining ledger redirects, call.request = .forward req ∧
        event.op = .httpGet req.targetUrl req.x402Payment ∧
        validateTargetUrl ext.toExternals req.targetUrl = .ok () ∧
        receivers event = req.targetUrl :: redirects ∧
        redirects.length ≤ maxRedirects ∧
        w.shared.Showed solana (Ledger.start now tokens) event.time ledger ∧
        Cleared solana req owner remaining ledger call.trace ∧
        (call.trace.countP fun other => forwards other.op) = 1 ∧
        ∃ submitted ∈ call.trace, submitted.order < event.order ∧
          submitted.op = .emit (submittedEvent req
            (solana.findVaultAddress owner).1.text) := by
  intro call hcall event hevent hforwards
  have hsorted := (World.stamped run (chainSemantics_clockMonotone solana node)
    (World.stamped_start _)).sorted call hcall
  have hworld : ∀ event ∈ call.trace, event ∈ w.events := fun _ =>
    World.mem_events hcall
  obtain ⟨request, trace, rest, reached⟩ := call
  cases request with
  | vaultStatus ownerPubkey =>
      obtain ⟨rest', hreached⟩ := Prog.reaches_of_map reached
      have hquiet := (getVaultStatus_within config ownerPubkey).of_mem hreached
        event hevent
      rw [hquiet] at hforwards
      cases hforwards
  | forward req =>
      obtain ⟨rest', hreached⟩ := Prog.reaches_of_map reached
      obtain ⟨location, remaining, checks, submitted, after, hlocation, rfl,
        hchecks, hsubmitted, hop, hquiet⟩ :=
        forwardSolanaRequest_forwards hreached hevent hforwards
      have hbefore := List.pairwise_append.mp hsorted
      obtain ⟨owner, ledger, hpda, ⟨said, hsaid, hshowed⟩, hpassed⟩ :=
        passed_of_preflighted htruth hbase64 hdeployed run hlocation hchecks
          (fun other hother => hworld other (List.mem_append_left _ hother))
          (List.subset_append_left _ _)
      obtain ⟨redirects, hreceivers, hfew⟩ := exists_redirects hop
      refine ⟨req, owner, remaining, ledger, redirects, rfl, hop,
        (locateVault_ok hdeployed hlocation).1, hreceivers, hfew,
        hshowed.later (hbefore.2.2 said hsaid event (by simp)).2, hpassed, ?_,
        submitted, by simp, ?_, ?_⟩
      · have hzero : ∀ {others : List (Event SolanaOp SolanaReply)},
            (∀ other ∈ others, forwards other.op = false) →
            (others.countP fun other => forwards other.op) = 0 := by
          intro others hothers
          rw [List.countP_eq_zero]
          intro other hother
          rw [hothers other hother]
          exact Bool.false_ne_true
        rw [List.countP_append, List.countP_cons, List.countP_cons,
          hzero fun other hother => hquiet other (by simp [hother]),
          hzero fun other hother => hquiet other (by simp [hother]),
          hquiet submitted (by simp), hforwards]
        rfl
      · exact (List.pairwise_cons.mp hbefore.2.1).1 event (by simp) |>.1
      · rw [hsubmitted, hpda, encodePubkey_eq_text]

/-- The response says of the vault what it is, its keys as text. -/
structure VaultStatusResponse.Shows (response : VaultStatusResponse)
    (vault : VaultState) : Prop where
  owner : response.owner = vault.owner.text
  agent : response.agent = vault.agent.text
  isActive : response.isActive = vault.isActive
  maxSpendPerTx : response.maxSpendPerTx = vault.maxSpendPerTx
  maxSpendPerDay : response.maxSpendPerDay = vault.maxSpendPerDay
  spentToday : response.spentToday = vault.spentToday
  agentExpiresAt : response.agentExpiresAt = vault.agentExpiresAt
  allowedPrograms :
    response.allowedPrograms = vault.allowedPrograms.map Pubkey.text

theorem statusOf_shows (vault : VaultState) (usdcBalance : Option ℕ) :
    (statusOf (SolanaRpc.VaultState.ofVault vault) usdcBalance).Shows
      vault where
  owner := encodePubkey_eq_text _
  agent := encodePubkey_eq_text _
  isActive := rfl
  maxSpendPerTx := rfl
  maxSpendPerDay := rfl
  spentToday := rfl
  agentExpiresAt := rfl
  allowedPrograms := List.map_congr_left fun key _ => encodePubkey_eq_text key

/-- The events that a call has sent to the audit writer. -/
def reported (trace : List (Event SolanaOp SolanaReply)) : List AuditEvent :=
  trace.filterMap fun event =>
    match event.op with
    | .emit event => some event
    | _ => none

theorem reported_eq_nil {trace : List (Event SolanaOp SolanaReply)}
    (h : ∀ event ∈ trace, Queries event.op) : reported trace = [] := by
  rw [reported, List.filterMap_eq_nil_iff]
  intro event hevent
  have hquery := h event hevent
  obtain ⟨op, reply, order, time⟩ := event
  cases op with
  | emit event => exact hquery.elim
  | _ => rfl

/-- An answered request passed its checks, and is answered and reported by the
last reply, of the target or of where it was redirected. -/
structure ForwardAnswered (solana : Solana) (ledger₀ : Ledger)
    (s : ChainShared) (trace : List (Event SolanaOp SolanaReply))
    (req : SolanaProxyRequest) (response : SolanaProxyResponse) : Prop where
  passed : ∃ owner remaining ledger, SeenBy solana ledger₀ s trace ledger ∧
    Cleared solana req owner remaining ledger trace ∧
    response.vaultPda = some (solana.findVaultAddress owner).1.text ∧
    response.remainingDailyCapacity = some remaining
  answered : ∃ followed status body,
    Performed trace (.httpGet req.targetUrl req.x402Payment) followed ∧
    followed.reply = .response status body ∧
    (response.success = true ↔ 200 ≤ status ∧ status < 300) ∧
    response.data = some (body.getD .null) ∧
    ∀ vaultPda ∈ response.vaultPda, reported trace =
      [submittedEvent req vaultPda, concludedEvent req vaultPda
        (if response.success then .solanaWithdrawConfirmed
        else .solanaWithdrawFailed) status]

/-- The status of a vault is its state and the balance of its token account,
each at some time. -/
structure StatusAnswered (config : StatusConfig) (solana : Solana)
    (ledger₀ : Ledger) (s : ChainShared)
    (trace : List (Event SolanaOp SolanaReply)) (ownerPubkey : String)
    (response : VaultStatusResponse) : Prop where
  vault : ∃ owner ledger vault, ownerPubkey = owner.text ∧
    SeenBy solana ledger₀ s trace ledger ∧
    ledger.vault? (solana.findVaultAddress owner).1 = some vault ∧
    response.Shows vault
  balance : ∀ amount ∈ response.usdcBalance, ∃ owner usdcMint ledger,
    ownerPubkey = owner.text ∧
    config.solanaUsdcMint = some usdcMint.text ∧
    SeenBy solana ledger₀ s trace ledger ∧
    ledger.TokenAmount (solana.associatedTokenAddress
      (solana.findVaultAddress owner).1 usdcMint) amount

/-- The answer to a request says what was so. -/
def TrueAnswer (config : StatusConfig) (solana : Solana) (ledger₀ : Ledger)
    (s : ChainShared) (trace : List (Event SolanaOp SolanaReply)) :
    SolanaRequest → SolanaAnswer → Prop
  | .forward req, .forward response =>
      ForwardAnswered solana ledger₀ s trace req response
  | .vaultStatus ownerPubkey, .vaultStatus response =>
      StatusAnswered config solana ledger₀ s trace ownerPubkey response
  | _, _ => False

/-- Whatever the chain does meanwhile and whatever state the node answers from,
every answer of the two routes was true of the chain. -/
theorem answers_true (htruth : node.Truthful solana)
    (hbase64 : ext.DecodesBase64) (hdeployed : Deployed ext config solana)
    (run : Run (World.step (chainSemantics solana node)) always
      (solanaStart ext config now tokens) w) :
    ∀ call ∈ w.calls, ∀ answer, call.rest = .ret answer →
      TrueAnswer config solana (Ledger.start now tokens) w.shared call.trace
        call.request answer := by
  intro call hcall answer hanswer
  have hworld : ∀ event ∈ call.trace, event ∈ w.events := fun _ =>
    World.mem_events hcall
  obtain ⟨request, trace, rest, reached⟩ := call
  obtain rfl : rest = .ret answer := hanswer
  cases request with
  | forward req =>
      obtain ⟨response, hreached, rfl⟩ := Prog.reaches_map_ret_iff.mp reached
      obtain ⟨location, remaining, checks, sending, hlocation, rfl, hchecks,
        hsend⟩ := forwardSolanaRequest_ret hreached
      obtain ⟨followed, status, body, submitted, get, concluded, rfl,
        hsubmitted, ⟨order, time, rfl⟩, hreply, hconcluded, hsuccess,
        hvaultPda, hremaining, hdata⟩ := forwardToTarget_ret hsend
      obtain ⟨owner, ledger, hpda, ⟨said, hsaid, hshowed⟩, hpassed⟩ :=
        passed_of_preflighted htruth hbase64 hdeployed run hlocation hchecks
          (fun event hevent => hworld event (List.mem_append_left _ hevent))
          (List.subset_append_left _ _)
      refine ⟨⟨owner, remaining, ledger, ⟨said, List.mem_append_left _ hsaid,
        hshowed⟩, hpassed, by rw [hvaultPda, hpda, encodePubkey_eq_text],
        hremaining⟩, followed, status, body, ⟨order, time, by simp⟩, hreply,
        hsuccess, hdata, ?_⟩
      intro vaultPda hmem
      rw [hvaultPda] at hmem
      cases hmem
      have hnil := reported_eq_nil hchecks.queries
      simp only [reported] at hnil ⊢
      rw [List.filterMap_append, hnil]
      simp [hsubmitted, hconcluded]
  | vaultStatus ownerPubkey =>
      obtain ⟨response, hreached, rfl⟩ := Prog.reaches_map_ret_iff.mp reached
      obtain ⟨location, usdcMint, ata, said, data, decoded, usdcBalance,
        hlocation, hata, hsaid, htells, hdecoded, rfl, hbalance⟩ :=
        getVaultStatus_ret hreached
      obtain ⟨⟨owner, howner, hpda⟩, hmint⟩ :=
        locateStatus_ok hdeployed hlocation
      rw [hpda] at htells hata
      obtain ⟨ledger, vault, hshowed, hvault, rfl⟩ :=
        vault_of_saysAccount htruth hbase64 run (hworld said hsaid) htells
          hdecoded
      rw [deriveAta_eq hdeployed] at hata
      cases hata
      refine ⟨⟨owner, ledger, vault, howner, ⟨said, hsaid, hshowed⟩, hvault,
        statusOf_shows vault usdcBalance⟩, ?_⟩
      intro amount hamount
      obtain ⟨asked, hasked, htells⟩ := hbalance amount hamount
      obtain ⟨ledger, hshowed, htoken⟩ :=
        account_of_saysBalance htruth run (hworld asked hasked) htells
      exact ⟨owner, usdcMint, ledger, howner, hmint, ⟨asked, hasked, hshowed⟩,
        htoken⟩

end Interleavings

/-! ### A vault, a node and two requests -/

namespace RouteSample

def owner : Pubkey := VaultSample.key 7
def agent : Pubkey := VaultSample.key 2

/-- The vault PDA of the owner, with the bump 255. -/
def vaultPda : Pubkey where
  bytes := [23, 66, 66, 170, 134, 12, 46, 187, 225, 126, 30, 144, 114, 220,
    209, 159, 90, 162, 3, 176, 231, 178, 159, 130, 20, 163, 14, 70, 108, 131,
    119, 161]
  length_eq := rfl

/-- Its token account for USDC, also with the bump 255. -/
def vaultAta : Pubkey where
  bytes := [250, 216, 109, 178, 191, 159, 3, 25, 227, 7, 165, 45, 17, 2, 231,
    141, 43, 212, 201, 49, 1, 116, 100, 1, 87, 178, 165, 39, 166, 46, 37, 64]
  length_eq := rfl

def chain : Solana where
  findVaultAddress := fun _ => (vaultPda, 255)
  createVaultAddress := fun _ bump => if bump = 255 then some vaultPda else none
  associatedTokenAddress := fun _ _ => vaultAta
  isMint := fun mint => mint = usdcMintDevnet

def tokens : TokenTable :=
  KeyedTable.empty.insert
    ⟨VaultSample.ownerToken, usdcMintDevnet, owner, 1_000_000_000⟩ (by decide)

def create : LedgerAction :=
  .transact [owner]
    (.initializeVault ⟨owner, vaultPda, vaultAta, usdcMintDevnet⟩
      ⟨agent, VaultSample.perTx, VaultSample.perDay,
        VaultSample.noon + 2_592_000, []⟩)

def fund : LedgerAction :=
  .transact [owner]
    (.deposit ⟨owner, vaultPda, VaultSample.ownerToken, vaultAta,
      usdcMintDevnet⟩ 1_000_000_000)

/-- The vault when it is new; its agent expires after thirty days. -/
def vault : VaultState where
  owner := owner
  agent := agent
  maxSpendPerTx := VaultSample.perTx
  maxSpendPerDay := VaultSample.perDay
  spentToday := 0
  dayWindowStart := VaultSample.noon
  agentExpiresAt := VaultSample.noon + 2_592_000
  allowedPrograms := []
  isActive := true
  bump := 255
  reserved := .replicate 64 0

def fundedAta : TokenAccount :=
  ⟨vaultAta, usdcMintDevnet, vaultPda, 1_000_000_000⟩

/-- The account of the vault: the discriminator, the state, and what is left of
the space. -/
def accountData : List UInt8 :=
  [228, 196, 82, 165, 98, 210, 235, 152] ++ serialize vault ++
    List.replicate 320 0

def accountResult (data : List UInt8) : Value :=
  .object [("value", .object
    [("data", .array [.string (Base64.encode data), .string "base64"])])]

def balanceResult (amount : ℕ) : Value :=
  .object [("value", .object [("amount", .string (toString amount)),
    ("decimals", .ofNat 6)])]

def resultReply (result : Value) : Value :=
  .object [("jsonrpc", .string "2.0"), ("result", result), ("id", .ofNat 1)]

/-- SHA-256 as it is on what is hashed here. -/
def externals : SolanaExternals :=
  { Sample.externals with
    sha256 := fun bytes => if bytes.length = 91 then vaultPda else vaultAta
    isOnEd25519Curve := fun _ => false
    decodeBase64 := Base64.decode }

def config : StatusConfig where
  solanaRpcUrl := some "https://api.devnet.solana.com"
  solanaProgramId := some vaultProgramId.text
  solanaUsdcMint := some usdcMintDevnet.text

/-- A node that knows the new vault and its token account, and is not there
for anything else. -/
def node : Node := fun ledger _ request _ =>
  match request.get "method", request.get "params" with
  | some (.string method), some (.array (.string address :: _)) =>
      if method = "getAccountInfo" ∧ address = vaultPda.text ∧
          ledger.vault? vaultPda = some vault then
        .response 200 (some (resultReply (accountResult accountData)))
      else if method = "getTokenAccountBalance" ∧ address = vaultAta.text ∧
          ledger.tokens.find? vaultAta = some fundedAta then
        .response 200 (some (resultReply (balanceResult 1_000_000_000)))
      else .response 503 none
  | _, _ => .response 503 none

theorem accountData_holds :
    Holds accountData VaultState.discriminatorLen (serialize vault) :=
  ⟨_, _, rfl, rfl⟩

theorem decodesBase64 : externals.DecodesBase64 := Base64.decode_encode

theorem has_result (result : Value) :
    (resultReply result).Has "result" result :=
  ⟨_, rfl, by simp, by simp⟩

theorem has_no_error (result error : Value) :
    ¬ (resultReply result).Has "error" error := by
  rintro ⟨fields, hfields, _, hmem⟩
  cases hfields
  simp at hmem

theorem accountInfo_account {ledger : Ledger}
    (hvault : ledger.vault? vaultPda = some vault) :
    RpcAnswers (AccountInfo (ledger.AccountData vaultPda))
      (.response 200 (some (resultReply (accountResult accountData)))) := by
  refine .result (has_result _) (has_no_error _)
    (.present ⟨_, rfl, by simp, List.mem_singleton.mpr rfl⟩
      ⟨_, rfl, by simp, List.mem_singleton.mpr rfl⟩ ?_)
  rw [Ledger.AccountData, hvault]
  exact ⟨accountData, rfl, accountData_holds⟩

theorem tokenBalance_balance {ledger : Ledger}
    (hfound : ledger.tokens.find? vaultAta = some fundedAta) :
    RpcAnswers (TokenBalance (ledger.TokenAmount vaultAta))
      (.response 200 (some (resultReply (balanceResult 1_000_000_000)))) :=
  .result (has_result _) (has_no_error _)
    (.present ⟨_, rfl, by simp, List.mem_singleton.mpr rfl⟩
      ⟨_, rfl, by simp, List.mem_cons_self⟩ ⟨fundedAta, hfound, rfl⟩)

theorem rpcResult_resultReply {result : Value} (hnull : result ≠ .null) :
    SolanaRpc.rpcResult externals (.response 200 (some (resultReply result))) =
      .ok (some result) := by
  simp only [SolanaRpc.rpcResult, except_bind_eq_ok, okOr_eq_ok_iff,
    Option.bind_some,
    decodeRpcResponse_result (has_result result) hnull (has_no_error result)]
  exact ⟨_, rfl, _, rfl, rfl⟩

theorem readAccountInfo_account (data : List UInt8) :
    SolanaRpc.readAccountInfo externals
      (.response 200 (some (resultReply (accountResult data)))) =
        .ok (some data) := by
  rw [SolanaRpc.readAccountInfo, rpcResult_resultReply Value.noConfusion,
    SolanaRpc.ok_bind]
  change (do
    let bytes ← okOr "failed to decode base64 account data"
      (externals.decodeBase64 (Base64.encode data))
    return some bytes) = _
  rw [decodesBase64]
  rfl

theorem readTokenBalance_balance {amount : ℕ} (h : amount ≤ u64Max) :
    SolanaRpc.readTokenBalance externals
      (.response 200 (some (resultReply (balanceResult amount)))) =
        .ok amount := by
  rw [SolanaRpc.readTokenBalance, rpcResult_resultReply Value.noConfusion,
    SolanaRpc.ok_bind]
  change okOr "failed to parse token balance amount"
    (parseU64 (toString amount)) = _
  rw [parseU64_toString, if_pos h]
  rfl

theorem node_truthful : node.Truthful chain where
  account := by
    intro ledger url owner request seed hasks
    simp only [node, hasks.method.get, hasks.params.get]
    split
    · rename_i hasked
      exact accountInfo_account hasked.2.2
    · rw [if_neg (by simp)]
      exact .failed (by decide)
  balance := by
    intro ledger url address request seed hasks
    simp only [node, hasks.method.get, hasks.params.get]
    rw [if_neg (by simp)]
    split
    · rename_i hasked
      rw [Pubkey.text_inj hasked.2.1]
      exact tokenBalance_balance hasked.2.2
    · exact .failed (by decide)

/-- The first bump is as good as any. -/
theorem findProgramAddress_first {seeds : List (List UInt8)}
    (hcount : seeds.length < 16) (hshort : ∀ seed ∈ seeds, seed.length ≤ 32)
    (programId : List UInt8) :
    ProgramAddress.findProgramAddress externals.sha256
      externals.isOnEd25519Curve seeds programId =
        some (externals.sha256 ((seeds ++ [[255]]).flatten ++ programId ++
          ProgramAddress.marker), 255) := by
  have hbumps : ProgramAddress.bumps =
      255 :: (List.range' 1 254).reverse.map UInt8.ofNat := by
    rw [ProgramAddress.bumps, List.range'_concat, List.reverse_append]
    rfl
  rw [ProgramAddress.findProgramAddress, hbumps, List.findSome?_cons,
    ProgramAddress.createProgramAddress,
    if_pos (ProgramAddress.fit_bump hcount hshort 255)]
  rfl

theorem deployed : Deployed externals config chain where
  named text h := (Option.some.inj h).symm
  vault owner := by
    have hseed : vaultSeed.length = 5 := by
      decide
    have hmarker : ProgramAddress.marker.length = 21 := by
      decide
    rw [findProgramAddress_first (by simp) (by simp [hseed, owner.length_eq])]
    simp [externals, hseed, hmarker, owner.length_eq,
      vaultProgramId.length_eq, chain]
  token wallet mint := by
    have hmarker : ProgramAddress.marker.length = 21 := by
      decide
    refine ⟨255, ?_⟩
    rw [findProgramAddress_first (by simp) (by simp [wallet.length_eq,
      mint.length_eq, tokenProgramId.length_eq])]
    simp [externals, hmarker, wallet.length_eq, mint.length_eq,
      tokenProgramId.length_eq, ataProgramId.length_eq, chain]

def request : SolanaProxyRequest where
  targetUrl := Sample.url
  network := "solana-devnet"
  vaultOwner := owner.text
  amount := 60_000_000
  destinationProgram := none
  x402Payment := "payment"

theorem locateVault_request : locateVault externals config.toSolanaConfig
    request = .ok ⟨"https://api.devnet.solana.com", vaultPda⟩ := by
  have hurl : validateTargetUrl externals.toExternals request.targetUrl =
      .ok () := Sample.validateTargetUrl_sample
  simp only [locateVault, orFail, except_bind_eq_ok, mapError_eq_ok_iff,
    refuseIf_eq_ok_iff, okOr_eq_ok_iff, decodePubkey_eq_ok_iff_text]
  exact ⟨(), hurl, (), by simp [request], _, rfl, _, rfl, owner, rfl,
    vaultProgramId, rfl, _, deriveVaultPda_eq deployed owner, rfl⟩

theorem locateStatus_owner : locateStatus externals config owner.text =
    .ok (⟨"https://api.devnet.solana.com", vaultPda⟩, usdcMintDevnet) := by
  simp only [locateStatus, orFail, except_bind_eq_ok, mapError_eq_ok_iff,
    okOr_eq_ok_iff, decodePubkey_eq_ok_iff_text]
  exact ⟨_, rfl, _, rfl, _, rfl, owner, rfl, vaultProgramId, rfl,
    usdcMintDevnet, rfl, _, deriveVaultPda_eq deployed owner, rfl⟩

/-- Ten seconds after the vault was created; the target accepts. -/
def outcome : ChainOutcome where
  clock := some 1_750_000_010
  full := false
  moment := 2
  seed := 0
  http := ⟨[], Nat.zero_le _, .response 200 (some (.string "data"))⟩

/-- The chain once the vault is there, and once it is funded. -/
def created : ChainShared :=
  (chainSemantics chain node).external create
    (ChainShared.start (Ledger.start VaultSample.noon tokens))

def funded : ChainShared :=
  (chainSemantics chain node).external fund created

theorem funded_state : funded.steps.length = 2 ∧
    funded.ledger.vault? vaultPda = some vault ∧
    funded.ledger.tokens.find? vaultAta = some fundedAta := by
  decide

section Runs

variable {s : ChainShared}

theorem rpcPost_solo {ε : Type} (hs : s.ledgerAt 2 = funded.ledger)
    (url : String) (asked : Value) :
    (Prog.perform (SolanaOp.rpcPost url asked) :
      Prog SolanaOp SolanaReply ε HttpReply).Solo (chainSemantics chain node) s
      (.ok (node funded.ledger url asked 0)) s := by
  have hreply : chainPerform node (.rpcPost url asked) outcome s =
      (node funded.ledger url asked 0, s) := by
    simp only [chainPerform, ← hs]
    rfl
  refine .call outcome ?_
  change Prog.Solo _ (.ret (chainPerform node (.rpcPost url asked) outcome s).1)
    (chainPerform node (.rpcPost url asked) outcome s).2 _ _
  rw [hreply]
  exact .ret _ _

theorem fetchVault_solo (hs : s.ledgerAt 2 = funded.ledger)
    (rpcUrl ownerText : String) :
    (fetchVault externals ⟨rpcUrl, vaultPda⟩ ownerText).Solo
      (chainSemantics chain node) s
      (.ok (SolanaRpc.VaultState.ofVault vault)) s := by
  have hasks := asks_accountInfo vaultPda
  have hreply : node funded.ledger rpcUrl (SolanaRpc.accountInfoRequest
      (SolanaRpc.encodePubkey vaultPda)) 0 =
        .response 200 (some (resultReply (accountResult accountData))) := by
    simp only [node, hasks.method.get, hasks.params.get]
    exact if_pos ⟨trivial, trivial, funded_state.2.1⟩
  have hdecoded := SolanaRpc.VaultState.fromAccountData_of_holds
    accountData_holds (Nat.zero_le _)
  simp only [fetchVault, failing, Prog.solo_bind_ok_iff,
    Prog.solo_mapError_ok_iff, SolanaRpc.getAccountInfo, Prog.solo_lift_iff]
  refine ⟨some accountData, s, ⟨_, s, rpcPost_solo hs _ _, ?_, rfl⟩,
    accountData, s, ⟨rfl, rfl⟩, ?_, rfl⟩
  · rw [hreply]
    exact readAccountInfo_account accountData
  · rw [hdecoded]
    rfl

theorem checkOnChain_solo (hs : s.ledgerAt 2 = funded.ledger)
    (rpcUrl : String) :
    (checkOnChain externals ⟨rpcUrl, vaultPda⟩ request).Solo
      (chainSemantics chain node) s (.ok 140_000_000) s := by
  refine Prog.solo_bind_ok_iff.mpr ⟨_, s, fetchVault_solo hs _ _, ?_⟩
  refine Prog.solo_bind_ok_iff.mpr ⟨some 1_750_000_010, s, ?_, ?_⟩
  · exact .call outcome (.ret _ _)
  · exact Prog.solo_lift_iff.mpr ⟨by decide, rfl⟩

/-- What is left of the day is 140 of 200 USDC. -/
def forwardResponse : SolanaProxyResponse where
  success := true
  message := "vault validated, request forwarded"
  vaultPda := some (SolanaRpc.encodePubkey vaultPda)
  remainingDailyCapacity := some 140_000_000
  data := some (.string "data")

theorem forward_solo (hs : s.ledgerAt 2 = funded.ledger) : ∃ s',
    (solanaHandle externals config (.forward request)).Solo
      (chainSemantics chain node) s (.ok (.forward forwardResponse)) s' ∧
    s'.ledgerAt 2 = funded.ledger := by
  refine ⟨{ s with audit := s.audit ++
      [submittedEvent request (SolanaRpc.encodePubkey vaultPda)] ++
      [concludedEvent request (SolanaRpc.encodePubkey vaultPda)
        .solanaWithdrawConfirmed 200] }, ?_, hs⟩
  refine Prog.solo_bind_ok_iff.mpr ⟨forwardResponse, _, ?_, .ret _ _⟩
  refine Prog.solo_bind_ok_iff.mpr
    ⟨_, s, Prog.solo_lift_iff.mpr ⟨locateVault_request, rfl⟩, ?_⟩
  refine Prog.solo_bind_ok_iff.mpr ⟨_, s, checkOnChain_solo hs _, ?_⟩
  exact .call outcome (.call outcome (.call outcome (.ret _ _)))

/-- The status of the vault with its balance. -/
def statusResponse : VaultStatusResponse :=
  statusOf (SolanaRpc.VaultState.ofVault vault) (some 1_000_000_000)

theorem status_solo (hs : s.ledgerAt 2 = funded.ledger) : ∃ s',
    (solanaHandle externals config
      (.vaultStatus owner.text)).Solo
      (chainSemantics chain node) s (.ok (.vaultStatus statusResponse)) s' := by
  have hasks := asks_tokenBalance vaultAta
  have hreply : ∀ rpcUrl, node funded.ledger rpcUrl
      (SolanaRpc.tokenBalanceRequest (SolanaRpc.encodePubkey vaultAta)) 0 =
        .response 200 (some (resultReply (balanceResult 1_000_000_000))) := by
    intro rpcUrl
    simp only [node, hasks.method.get, hasks.params.get]
    rw [if_neg (by simp)]
    exact if_pos ⟨trivial, trivial, funded_state.2.2⟩
  refine ⟨{ s with audit := s.audit ++ [queriedEvent
      owner.text (SolanaRpc.encodePubkey vaultPda) true] }, ?_⟩
  refine Prog.solo_bind_ok_iff.mpr ⟨statusResponse, _, ?_, .ret _ _⟩
  refine Prog.solo_bind_ok_iff.mpr
    ⟨_, s, Prog.solo_lift_iff.mpr ⟨locateStatus_owner, rfl⟩, ?_⟩
  refine Prog.solo_bind_ok_iff.mpr ⟨_, s, fetchVault_solo hs _ _, ?_⟩
  refine Prog.solo_bind_ok_iff.mpr ⟨vaultAta, s, Prog.solo_lift_iff.mpr
    ⟨by rw [deriveAta_eq deployed]; rfl, rfl⟩, ?_⟩
  refine Prog.solo_bind_ok_iff.mpr ⟨some 1_000_000_000, s, ?_,
    .call outcome (.ret _ _)⟩
  refine Prog.solo_bind_ok_iff.mpr ⟨.ok 1_000_000_000, s,
    Prog.solo_attempt_ok_iff.mpr ?_, .ret _ _⟩
  refine Prog.solo_bind_ok_iff.mpr ⟨_, s, rpcPost_solo hs _ _,
    Prog.solo_lift_iff.mpr ⟨?_, rfl⟩⟩
  rw [hreply]
  exact readTokenBalance_balance (by decide)

end Runs

/-- A payment is forwarded and the status asked, after the vault was funded. -/
theorem exists_run : ∃ w first second,
    Run (World.step (chainSemantics chain node)) always
      (solanaStart externals config VaultSample.noon tokens) w ∧
    w.calls = [first, second] ∧
    first.request = .forward request ∧
    first.rest = .ret (.forward forwardResponse) ∧
    second.request = .vaultStatus owner.text ∧
    second.rest = .ret (.vaultStatus statusResponse) := by
  have hcreated : (solanaStart externals config VaultSample.noon tokens).step
      (chainSemantics chain node) (.external create) =
        some { solanaStart externals config VaultSample.noon tokens with
          shared := created } := rfl
  have hfunded : World.step (chainSemantics chain node)
      { solanaStart externals config VaultSample.noon tokens with
        shared := created } (.external fund) =
        some { solanaStart externals config VaultSample.noon tokens with
          shared := funded } := rfl
  have hrun : Run (World.step (chainSemantics chain node)) always
      (solanaStart externals config VaultSample.noon tokens)
      { solanaStart externals config VaultSample.noon tokens with
        shared := funded } :=
    .snoc (.snoc (.refl _) trivial hcreated) trivial hfunded
  have hnow : funded.ledgerAt 2 = funded.ledger := by
    rw [ChainShared.ledgerAt, List.getElem?_eq_none (by rw [funded_state.1])]
  obtain ⟨s', hforward, hstate⟩ := forward_solo hnow
  obtain ⟨w₁, first, hrun₁, hshared, hcalls₁, hrequest₁, hrest₁⟩ :=
    World.exists_run_of_request (w := { solanaStart externals config
      VaultSample.noon tokens with shared := funded }) hforward
  obtain ⟨t', hstatus⟩ := status_solo hstate
  rw [← hshared] at hstatus
  obtain ⟨w₂, second, hrun₂, _, hcalls₂, hrequest₂, hrest₂⟩ :=
    World.exists_run_of_request hstatus
  refine ⟨w₂, first, second, (hrun.trans hrun₁).trans hrun₂, ?_, hrequest₁,
    hrest₁, hrequest₂, hrest₂⟩
  rw [hcalls₂, hcalls₁]
  rfl

end RouteSample
/-- The payment that was forwarded. -/
theorem forwarded_passed_sample : ∃ w call event,
    Run (World.step (chainSemantics RouteSample.chain RouteSample.node)) always
      (solanaStart RouteSample.externals RouteSample.config VaultSample.noon
        RouteSample.tokens) w ∧
    call ∈ w.calls ∧ event ∈ call.trace ∧ forwards event.op = true ∧
    ∃ owner remaining ledger redirects,
      receivers event = RouteSample.request.targetUrl :: redirects ∧
      w.shared.Showed RouteSample.chain
        (Ledger.start VaultSample.noon RouteSample.tokens) event.time ledger ∧
      Cleared RouteSample.chain RouteSample.request owner remaining ledger
        call.trace := by
  obtain ⟨w, first, second, run, hcalls, hrequest, hrest, _⟩ :=
    RouteSample.exists_run
  have hfirst : first ∈ w.calls := by simp [hcalls]
  obtain ⟨event, hevent, hforwards⟩ : ∃ event ∈ first.trace,
      forwards event.op = true := by
    obtain ⟨request, trace, rest, reached⟩ := first
    cases hrequest
    cases hrest
    obtain ⟨response, hreached, _⟩ := Prog.reaches_map_ret_iff.mp reached
    obtain ⟨location, remaining, checks, sending, _, rfl, _, hsend⟩ :=
      forwardSolanaRequest_ret hreached
    obtain ⟨_, _, _, submitted, get, concluded, rfl, _, ⟨_, _, rfl⟩, _⟩ :=
      forwardToTarget_ret hsend
    exact ⟨_, List.mem_append_right _ (.tail _ (.head _)), rfl⟩
  obtain ⟨req, owner, remaining, ledger, redirects, hreq, _, _, hreceivers, _,
    hshowed, hcleared, _⟩ :=
    forwarded_passed RouteSample.node_truthful RouteSample.decodesBase64
      RouteSample.deployed run
      first hfirst event hevent hforwards
  cases hrequest.symm.trans hreq
  exact ⟨w, first, event, run, hfirst, hevent, hforwards, owner, remaining,
    ledger, redirects, hreceivers, hshowed, hcleared⟩

/-- What that payment and the question after it were answered. -/
theorem answers_true_sample : ∃ w first second,
    Run (World.step (chainSemantics RouteSample.chain RouteSample.node)) always
      (solanaStart RouteSample.externals RouteSample.config VaultSample.noon
        RouteSample.tokens) w ∧
    w.calls = [first, second] ∧
    ForwardAnswered RouteSample.chain
      (Ledger.start VaultSample.noon RouteSample.tokens) w.shared first.trace
      RouteSample.request RouteSample.forwardResponse ∧
    StatusAnswered RouteSample.config RouteSample.chain
      (Ledger.start VaultSample.noon RouteSample.tokens) w.shared second.trace
      RouteSample.owner.text RouteSample.statusResponse := by
  obtain ⟨w, first, second, run, hcalls, hrequest₁, hrest₁, hrequest₂,
    hrest₂⟩ := RouteSample.exists_run
  have hforward := answers_true RouteSample.node_truthful
    RouteSample.decodesBase64 RouteSample.deployed run first
    (by simp [hcalls]) _ hrest₁
  have hstatus := answers_true RouteSample.node_truthful
    RouteSample.decodesBase64 RouteSample.deployed run second
    (by simp [hcalls]) _ hrest₂
  rw [hrequest₁] at hforward
  rw [hrequest₂] at hstatus
  exact ⟨w, first, second, run, hcalls, hforward, hstatus⟩

end X402Guard

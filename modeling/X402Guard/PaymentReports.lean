/-
When a forwarded request is fully audited: a violation it ends with is reported
once, and so is what became of a payment it has recorded.
-/
import X402Guard.AuditTrail

namespace X402Guard

open Interaction Prog

variable {ext : Externals} {config : AppConfig}

/-- The spend is recorded in the ledger. -/
def Recorded : Event Op Reply → Prop
  | ⟨.postgres (.insertSpend _ _ _), .ok affected, _, _⟩ => 0 < affected
  | _ => False

/-- The INSERT finds the daily limit exceeded. -/
def Refuses : Event Op Reply → Prop
  | ⟨.postgres (.insertSpend _ _ (some _)), .ok affected, _, _⟩ => affected = 0
  | _ => False

/-- The charge of the session key changes no row, or fails. -/
def Uncharged : Event Op Reply → Prop
  | ⟨.postgres (.incrementSpent _ _), reply, _, _⟩ =>
      ∀ charged, reply = .ok charged → charged = 0
  | _ => False

/-- The target answers. -/
def Answered : Event Op Reply → Prop
  | ⟨.httpGet _ _, .response _ _, _, _⟩ => True
  | _ => False

theorem Recorded.stage {event : Event Op Reply} (h : Recorded event) :
    event.op.stage = 10 := by
  unfold Recorded at h
  split at h
  · rfl
  · exact h.elim

theorem Refuses.stage {event : Event Op Reply} (h : Refuses event) :
    event.op.stage = 10 := by
  unfold Refuses at h
  split at h
  · rfl
  · exact h.elim

theorem Uncharged.stage {event : Event Op Reply} (h : Uncharged event) :
    event.op.stage = 10 := by
  unfold Uncharged at h
  split at h
  · rfl
  · exact h.elim

theorem Answered.stage {event : Event Op Reply} (h : Answered event) :
    event.op.stage = 11 := by
  unfold Answered at h
  split at h
  · rfl
  · exact h.elim

/-- A violation that ends the request is reported once, and so is the outcome
of a payment that is in the ledger. -/
def Audited (trace : List (Event Op Reply))
    (result : Except AppError ProxyResponse) : Prop :=
  (∀ message, result = .error (.guardrailViolation message) →
    trace.countP (emitted reportsViolation) = 1) ∧
  ((∃ event ∈ trace, Recorded event) →
    trace.countP (emitted reportsOutcome) = 1)

/-- The INSERT and the charge go through, and the target answers for every
recorded spend. -/
structure Settled (ext : Externals) (req : ProxyRequest)
    (trace : List (Event Op Reply)) : Prop where
  inserts : ¬ ∃ event ∈ trace, Refuses event
  charges : ¬ ∃ event ∈ trace, Uncharged event
  answered : (∃ event ∈ trace, Recorded event) →
    ext.isHeaderValue req.x402Payment = true ∧
      ∃ event ∈ trace, Answered event

/-- None of the exits without a report is taken. -/
def Reported (ext : Externals) (req : ProxyRequest)
    (trace : List (Event Op Reply)) : Prop :=
  ¬ KeyOverLimit ext req trace ∧ Settled ext req trace

theorem raisesNone_iff {α : Type} {result : Except AppError α} :
    RaisesNone result ↔
      ∀ message, result ≠ .error (.guardrailViolation message) := by
  constructor
  · intro h message heq
    exact h _ heq trivial
  · intro h error heq hviolation
    cases error with
    | guardrailViolation message => exact h message heq
    | _ => exact hviolation

theorem Audited.of_raisesNone {trace : List (Event Op Reply)}
    {result : Except AppError ProxyResponse} (hnone : RaisesNone result)
    (hunrecorded : ¬ ∃ event ∈ trace, Recorded event) :
    Audited trace result :=
  ⟨fun message heq => absurd heq (raisesNone_iff.mp hnone message),
    fun hrecorded => absurd hrecorded hunrecorded⟩

/-- A violation nobody reports. -/
theorem not_audited_of_violation {trace : List (Event Op Reply)}
    {message : String} (hquiet : ∀ event ∈ trace, event.op.Quiet) :
    ¬ Audited trace (.error (.guardrailViolation message)) := by
  intro h
  have hone := h.1 message rfl
  rw [countP_emitted_eq_zero rfl hquiet] at hone
  omega

theorem settled_iff {req : ProxyRequest} {trace : List (Event Op Reply)} :
    Settled ext req trace ↔
      (¬ ∃ event ∈ trace, Refuses event) ∧
      (¬ ∃ event ∈ trace, Uncharged event) ∧
      ((∃ event ∈ trace, Recorded event) →
        ext.isHeaderValue req.x402Payment = true ∧
          ∃ event ∈ trace, Answered event) :=
  ⟨fun h => ⟨h.inserts, h.charges, h.answered⟩,
    fun h => ⟨h.1, h.2.1, h.2.2⟩⟩

-- The events of one step are in no other.

section Stages

variable {n : Nat} {P : Event Op Reply → Prop}
variable {first second trace : List (Event Op Reply)}

theorem not_exists_of_stage (hP : ∀ event, P event → event.op.stage = n)
    (h : ∀ event ∈ trace, event.op.stage ≠ n) :
    ¬ ∃ event ∈ trace, P event := by
  rintro ⟨event, hevent, hevent'⟩
  exact h event hevent (hP event hevent')

theorem exists_before_iff (hP : ∀ event, P event → event.op.stage = n)
    (hsecond : ∀ event ∈ second, event.op.stage ≠ n) :
    (∃ event ∈ first ++ second, P event) ↔ ∃ event ∈ first, P event := by
  simp only [List.mem_append, or_and_right, exists_or]
  exact or_iff_left (not_exists_of_stage hP hsecond)

theorem exists_after_iff (hP : ∀ event, P event → event.op.stage = n)
    (hfirst : ∀ event ∈ first, event.op.stage ≠ n) :
    (∃ event ∈ first ++ second, P event) ↔ ∃ event ∈ second, P event := by
  simp only [List.mem_append, or_and_right, exists_or]
  exact or_iff_right (not_exists_of_stage hP hfirst)

theorem stage_ne_of_le {m : Nat} (hlt : m < n)
    (h : ∀ event ∈ trace, event.op.stage ≤ m) :
    ∀ event ∈ trace, event.op.stage ≠ n :=
  fun event hevent => Nat.ne_of_lt (Nat.lt_of_le_of_lt (h event hevent) hlt)

end Stages

/-- The steps before the reservation do none of this. -/
theorem settled_of_stages {req : ProxyRequest}
    {trace : List (Event Op Reply)}
    (h : ∀ event ∈ trace, event.op.stage ≤ 9) : Settled ext req trace := by
  have hne : ∀ event ∈ trace, event.op.stage ≠ 10 :=
    stage_ne_of_le (by decide) h
  exact {
    inserts := not_exists_of_stage (fun _ => Refuses.stage) hne
    charges := not_exists_of_stage (fun _ => Uncharged.stage) hne
    answered := fun hrecorded => absurd hrecorded
      (not_exists_of_stage (fun _ => Recorded.stage) hne) }

-- The session key is read by its own step alone.

theorem receivePayment_noKey (req : ProxyRequest) :
    (receivePayment ext req).Within fun op => op.stage ≠ 6 :=
  receivePayment_ops req (by decide : 0 ≠ 6) (by decide : 0 ≠ 6)

theorem checkGuardrails_noKey (req : ProxyRequest) (received : Received) :
    (checkGuardrails ext req received).Within fun op => op.stage ≠ 6 :=
  checkGuardrails_ops req received (fun _ => (by decide : 7 ≠ 6))
    (fun _ => (by decide : 7 ≠ 6)) (fun _ => (by decide : 7 ≠ 6))
    fun _ => (by decide : 0 ≠ 6)

theorem checkNonce_noKey (received : Received) :
    (checkNonce received).Within fun op => op.stage ≠ 6 :=
  checkNonce_ops received (by decide : 0 ≠ 6) fun _ => (by decide : 8 ≠ 6)

theorem checkRateLimit_noKey :
    (checkRateLimit config).Within fun op => op.stage ≠ 6 :=
  checkRateLimit_ops (by decide : 0 ≠ 6) (by decide : 0 ≠ 6)
    (by decide : 9 ≠ 6) (fun _ _ _ _ _ => (by decide : 9 ≠ 6))
    fun _ _ => (by decide : 9 ≠ 6)

theorem reserveSpend_noKey (received : Received)
    (agentRules : Option (List GuardrailRule)) :
    (reserveSpend received agentRules).Within fun op => op.stage ≠ 6 :=
  reserveSpend_ops received agentRules (by decide : 10 ≠ 6)
    (fun _ _ _ _ => (by decide : 10 ≠ 6)) fun _ _ => (by decide : 10 ≠ 6)

/-- Once the session key step has passed, the key is not over its limit. -/
theorem not_keyOverLimit_of_passed {req : ProxyRequest} {received : Received}
    {first second rest : List (Event Op Reply)}
    (hreceive : (receivePayment ext req).Reaches first (.ret received))
    (hkey : (checkSessionKey ext received).Reaches second (.ret ()))
    (hrest : ∀ event ∈ rest, event.op.stage ≠ 6) :
    ¬ KeyOverLimit ext req (first ++ (second ++ rest)) := by
  rw [← lift_ok] at hkey
  rw [keyOverLimit_append_iff ((receivePayment_noKey req).of_mem hreceive)
    hkey hrest fun _ => rfl, ← checkSessionKey_raisesNone_iff
      (receivePayment_valid hreceive) hkey]
  exact raises_ok ()

/-- A refused request is audited unless its key is over the limit. -/
theorem Refused.audited_iff {req : ProxyRequest}
    {trace : List (Event Op Reply)} {error : AppError}
    (h : Refused ext config req trace error) :
    Audited trace (.error error) ↔ ¬ KeyOverLimit ext req trace := by
  have hunrecorded : ¬ ∃ event ∈ trace, Recorded event :=
    not_exists_of_stage (fun _ => Recorded.stage)
      (stage_ne_of_le (by decide) h.stages)
  induction h with
  | @receive trace error hfails =>
      apply iff_of_true
      · exact .of_raisesNone (raises_error
          ((receivePayment_unviolated req).of_reaches hfails)) hunrecorded
      · rintro ⟨row, now, key, hsome, _⟩
        rw [keyChecked_eq_none ((receivePayment_noKey req).of_mem hfails)]
          at hsome
        cases hsome
  | @sessionKey first second received error hreceive hfails =>
      have hquiet : ∀ event ∈ first ++ second, event.op.Quiet :=
        List.forall_mem_append.mpr
          ⟨(receivePayment_quiet req).of_mem hreceive,
            (checkSessionKey_quiet received).of_mem hfails⟩
      rw [← lift_error] at hfails
      have hsame : KeyOverLimit ext req (first ++ (second ++ [])) ↔
          KeyOverLimit ext req second :=
        keyOverLimit_append_iff ((receivePayment_noKey req).of_mem hreceive)
          hfails (by simp) (by simp)
      rw [List.append_nil] at hsame
      rw [hsame, ← checkSessionKey_raisesNone_iff
        (receivePayment_valid hreceive) hfails]
      constructor
      · intro haudited
        rw [raisesNone_iff]
        intro message heq
        cases heq
        exact not_audited_of_violation hquiet haudited
      · intro hnone
        exact .of_raisesNone (raises_error (hnone error rfl)) hunrecorded
  | @guardrails first second third received error hreceive hkey hfails =>
      apply iff_of_true
      · rcases checkGuardrails_reportsViolations req received _ (.error error)
          hfails with ⟨_, hnone⟩ | ⟨hone, _⟩
        · exact .of_raisesNone (raises_error (hnone error rfl)) hunrecorded
        · constructor
          · intro message _
            rw [List.countP_append, List.countP_append, hone,
              countP_emitted_eq_zero rfl
                ((receivePayment_quiet req).of_mem hreceive),
              countP_emitted_eq_zero rfl
                ((checkSessionKey_quiet received).of_mem hkey)]
          · intro hrecorded
            exact absurd hrecorded hunrecorded
      · exact not_keyOverLimit_of_passed hreceive hkey
          ((checkGuardrails_noKey req received).of_mem hfails)
  | @nonce first second third fourth received agentRules error hreceive hkey
      hguardrails hfails =>
      apply iff_of_true
      · exact .of_raisesNone (raises_error
          ((checkNonce_unviolated received).of_reaches hfails)) hunrecorded
      · exact not_keyOverLimit_of_passed hreceive hkey
          (List.forall_mem_append.mpr
            ⟨(checkGuardrails_noKey req received).of_mem hguardrails,
              (checkNonce_noKey received).of_mem hfails⟩)
  | @rateLimit first second third fourth fifth received agentRules error
      hreceive hkey hguardrails hnonce hfails =>
      apply iff_of_true
      · exact .of_raisesNone (raises_error
          (checkRateLimit_unviolated.of_reaches hfails)) hunrecorded
      · apply not_keyOverLimit_of_passed hreceive hkey
        simp only [List.forall_mem_append]
        exact ⟨(checkGuardrails_noKey req received).of_mem hguardrails,
          (checkNonce_noKey received).of_mem hnonce,
          checkRateLimit_noKey.of_mem hfails⟩

/-- Steps that have all passed report nothing. -/
theorem Passed.quiet {req : ProxyRequest} {received : Received}
    {agentRules : Option (List GuardrailRule)} {before : List (Event Op Reply)}
    (h : Passed ext config req received agentRules before) :
    before.countP (emitted reportsOutcome) = 0 := by
  obtain ⟨t₁, t₂, t₃, t₄, t₅, rfl, h₁, h₂, h₃, h₄, h₅⟩ := h
  rw [← lift_ok] at h₃
  have hguardrails : t₃.countP (emitted reportsOutcome) = 0 := by
    rcases checkGuardrails_reportsViolations req received t₃ _ h₃ with
      ⟨hzero, _⟩ | ⟨_, error, heq⟩
    · exact hzero
    · cases heq
  have hzero : ∀ {t : List (Event Op Reply)},
      (∀ event ∈ t, event.op.Quiet) → t.countP (emitted reportsOutcome) = 0 :=
    countP_emitted_eq_zero rfl
  simp only [List.countP_append, hguardrails,
    hzero ((receivePayment_quiet req).of_mem h₁),
    hzero ((checkSessionKey_quiet received).of_mem h₂),
    hzero ((checkNonce_quiet received).of_mem h₄),
    hzero (checkRateLimit_quiet.of_mem h₅)]

theorem Passed.not_keyOverLimit {req : ProxyRequest} {received : Received}
    {agentRules : Option (List GuardrailRule)}
    {before after : List (Event Op Reply)}
    (h : Passed ext config req received agentRules before)
    (hafter : ∀ event ∈ after, event.op.stage ≠ 6) :
    ¬ KeyOverLimit ext req (before ++ after) := by
  obtain ⟨t₁, t₂, t₃, t₄, t₅, rfl, h₁, h₂, h₃, h₄, h₅⟩ := h
  have happend : t₁ ++ (t₂ ++ (t₃ ++ (t₄ ++ t₅))) ++ after =
      t₁ ++ (t₂ ++ (t₃ ++ (t₄ ++ (t₅ ++ after)))) := by simp
  rw [happend]
  apply not_keyOverLimit_of_passed h₁ h₂
  simp only [List.forall_mem_append]
  exact ⟨(checkGuardrails_noKey req received).of_mem h₃,
    (checkNonce_noKey received).of_mem h₄, checkRateLimit_noKey.of_mem h₅,
    hafter⟩

theorem countP_reportsViolation_le (trace : List (Event Op Reply)) :
    trace.countP (emitted reportsViolation) ≤
      trace.countP (emitted reportsOutcome) := by
  apply List.countP_mono_left
  rintro ⟨op, reply, order, time⟩ _ h
  cases op with
  | emit event =>
      simp only [emitted, reportsViolation, decide_eq_true_eq] at h
      simp [emitted, reportsOutcome, h]
  | _ => cases h

/-- What passed does none of what the later steps do. -/
theorem Passed.exists_iff {req : ProxyRequest} {received : Received}
    {agentRules : Option (List GuardrailRule)}
    {before after : List (Event Op Reply)} {P : Event Op Reply → Prop}
    {n : Nat} (h : Passed ext config req received agentRules before)
    (hlate : 9 < n) (hP : ∀ event, P event → event.op.stage = n) :
    (∃ event ∈ before ++ after, P event) ↔ ∃ event ∈ after, P event :=
  exists_after_iff hP (stage_ne_of_le hlate h.admitted.stages)

/-- A request that has passed is audited as its last two steps are. -/
theorem Passed.audited_iff {req : ProxyRequest} {received : Received}
    {agentRules : Option (List GuardrailRule)}
    {before after : List (Event Op Reply)}
    {result : Except AppError ProxyResponse}
    (h : Passed ext config req received agentRules before) :
    Audited (before ++ after) result ↔ Audited after result := by
  have hviolation : before.countP (emitted reportsViolation) = 0 :=
    Nat.le_zero.mp (h.quiet ▸ countP_reportsViolation_le before)
  unfold Audited
  rw [List.countP_append, List.countP_append, h.quiet, hviolation,
    h.exists_iff (by decide) fun _ => Recorded.stage, Nat.zero_add,
    Nat.zero_add]

theorem Passed.reported_iff {req : ProxyRequest} {received : Received}
    {agentRules : Option (List GuardrailRule)}
    {before after : List (Event Op Reply)}
    (h : Passed ext config req received agentRules before)
    (hafter : ∀ event ∈ after, event.op.stage ≠ 6) :
    Reported ext req (before ++ after) ↔ Settled ext req after := by
  rw [Reported, settled_iff, settled_iff,
    h.exists_iff (by decide) fun _ => Refuses.stage,
    h.exists_iff (by decide) fun _ => Uncharged.stage,
    h.exists_iff (by decide) fun _ => Recorded.stage,
    h.exists_iff (by decide) fun _ => Answered.stage]
  exact and_iff_right (h.not_keyOverLimit hafter)

/-- A reservation that fails is audited exactly when no violation is raised:
the violations of this step are not reported. -/
theorem reserveSpend_audited_iff {req : ProxyRequest} {received : Received}
    {agentRules : Option (List GuardrailRule)} {trace : List (Event Op Reply)}
    {error : AppError}
    (h : (reserveSpend received agentRules).Reaches trace (.throw error)) :
    Audited trace (.error error) ↔ Settled ext req trace := by
  have hquiet := (reserveSpend_quiet received agentRules).of_mem h
  rcases Option.eq_none_or_eq_some received.agentId with
    hagent | ⟨agentId, hagent⟩
  · simp only [reserveSpend, hagent, pure_eq_ret] at h
    cases (reaches_ret_iff.mp h).2
  rw [← lift_error] at h
  cases reserveSpend_ends hagent h with
  | notInserted hevents =>
      -- there is a snapshot, and an INSERT that has failed
      have hnone : ∀ {P : Event Op Reply → Prop},
          (∀ reply order time, ¬ P ⟨.postgres .beginSpend, reply, order,
            time⟩) →
          (∀ snapshot values limit? error order time,
            ¬ P ⟨.postgres (.insertSpend snapshot values limit?),
              .error error, order, time⟩) → ¬ ∃ event ∈ trace, P event := by
        rintro P hbegin hinsert ⟨⟨op, reply, order, time⟩, hevent, hP⟩
        rcases hevents _ hevent with
          hop | ⟨snapshot, limit?, error, order, time, heq⟩
        · obtain rfl : op = .postgres .beginSpend := hop
          exact hbegin reply order time hP
        · rw [heq] at hP
          exact hinsert _ _ _ _ _ _ hP
      have hrecorded : ¬ ∃ event ∈ trace, Recorded event :=
        hnone (fun _ _ _ => id) fun _ _ _ _ _ _ => id
      apply iff_of_true
      · exact .of_raisesNone (raises_error id) hrecorded
      · exact ⟨hnone (fun _ _ _ => id) fun _ _ limit? _ _ _ => by
          cases limit? <;> exact id,
          hnone (fun _ _ _ => id) fun _ _ _ _ _ _ => id,
          fun h => absurd h hrecorded⟩
  | overLimit hlimit =>
      apply iff_of_false (not_audited_of_violation hquiet)
      intro hsettled
      exact hsettled.inserts ⟨_, .tail _ (.head _), Eq.refl 0⟩
  | notCharged hkey hlimit hreply =>
      apply iff_of_false (not_audited_of_violation hquiet)
      intro hsettled
      exact hsettled.charges ⟨_, .tail _ (.tail _ (.head _)), hreply⟩

/-- A reservation that goes through was not refused, and was charged. -/
theorem reserveSpend_goes_through {received : Received}
    {agentRules : Option (List GuardrailRule)} {trace : List (Event Op Reply)}
    (h : (reserveSpend received agentRules).Reaches trace (.ret ())) :
    (¬ ∃ event ∈ trace, Refuses event) ∧
      ¬ ∃ event ∈ trace, Uncharged event := by
  rcases Option.eq_none_or_eq_some received.agentId with
    hagent | ⟨agentId, hagent⟩
  · simp only [reserveSpend, hagent, pure_eq_ret] at h
    obtain ⟨rfl, _⟩ := reaches_ret_iff.mp h
    simp
  obtain ⟨snapshot, affected, order₁, time₁, order₂, time₂, rest, hlimit, rfl,
    hempty, hcharge⟩ := (reserveSpend_reaches_ret hagent h).ledger
  have hinserted : ¬ Refuses ⟨.postgres (.insertSpend snapshot
      (received.spendValues agentId)
      ((agentRules.bind extractDailyLimit).map (↑))), .ok affected, order₂,
      time₂⟩ := by
    cases hextract : agentRules.bind extractDailyLimit with
    | none => exact id
    | some limit =>
        intro hzero
        have hpos := hlimit (by rw [hextract]; rfl)
        exact absurd hzero (Nat.pos_iff_ne_zero.mp hpos)
  rcases Option.eq_none_or_eq_some received.sessionKeyId with
    hkey | ⟨keyId, hkey⟩
  · rw [hempty hkey]
    simp only [List.exists_mem_cons_iff, List.not_mem_nil, false_and,
      exists_false, or_false, not_or]
    exact ⟨⟨id, hinserted⟩, id, id⟩
  · obtain ⟨charged, order, time, hne, rfl⟩ := hcharge keyId hkey
    simp only [List.exists_mem_cons_iff, List.not_mem_nil, false_and,
      exists_false, or_false, not_or]
    exact ⟨⟨id, hinserted, id⟩, id, id, fun hzero => hne (hzero charged rfl)⟩

/-- Without a report, a request that raises no violation is audited when it has
recorded nothing. -/
theorem audited_iff_not_recorded {trace : List (Event Op Reply)}
    {result : Except AppError ProxyResponse} (hnone : RaisesNone result)
    (hquiet : ∀ event ∈ trace, event.op.Quiet) :
    Audited trace result ↔ ¬ ∃ event ∈ trace, Recorded event := by
  constructor
  · intro haudited hrecorded
    have hone := haudited.2 hrecorded
    rw [countP_emitted_eq_zero rfl hquiet] at hone
    omega
  · exact .of_raisesNone hnone

/-- After a reservation that goes through, what is left to settle is the answer
for the recorded spend. -/
theorem settled_iff_of_reserved {req : ProxyRequest} {received : Received}
    {agentRules : Option (List GuardrailRule)}
    {reserve target : List (Event Op Reply)}
    (hreserve : (reserveSpend received agentRules).Reaches reserve (.ret ()))
    (hstage : ∀ event ∈ target, event.op.stage ≠ 10) :
    Settled ext req (reserve ++ target) ↔
      ((∃ event ∈ reserve, Recorded event) →
        ext.isHeaderValue req.x402Payment = true ∧
          ∃ event ∈ target, Answered event) := by
  have hupTo : ∀ event ∈ reserve, event.op.stage ≤ 10 :=
    (reserveSpend_within received agentRules).of_mem hreserve
  obtain ⟨hinserts, hcharges⟩ := reserveSpend_goes_through hreserve
  rw [settled_iff, exists_before_iff (fun _ => Refuses.stage) hstage,
    exists_before_iff (fun _ => Uncharged.stage) hstage,
    exists_before_iff (fun _ => Recorded.stage) hstage,
    exists_after_iff (fun _ => Answered.stage)
      (stage_ne_of_le (by decide) hupTo)]
  exact (and_iff_right hinserts).trans (and_iff_right hcharges)

/-- Once the reservation has passed, the request is audited exactly when the
target answers for the recorded spend. -/
theorem forwardToTarget_audited_iff {req : ProxyRequest} {received : Received}
    {agentRules : Option (List GuardrailRule)}
    {reserve target : List (Event Op Reply)}
    {result : Except AppError ProxyResponse}
    (hreserve : (reserveSpend received agentRules).Reaches reserve (.ret ()))
    (h : (forwardToTarget ext req received).Reaches target (lift result)) :
    Audited (reserve ++ target) result ↔
      Settled ext req (reserve ++ target) := by
  have hquiet := (reserveSpend_quiet received agentRules).of_mem hreserve
  have hstage : ∀ event ∈ target, event.op.stage ≠ 10 := by
    intro event hevent
    have := (forwardToTarget_within req received).of_mem h event hevent
    omega
  rw [settled_iff_of_reserved hreserve hstage]
  cases forwardToTarget_ends h with
  | notBuilt hheader =>
      rw [List.append_nil, audited_iff_not_recorded (raises_error id)
        hquiet]
      simp [hheader]
  | @unanswered reply cause order time hheader hreply =>
      have hsilent : ¬ Answered
          ⟨.httpGet req.targetUrl req.x402Payment, reply, order, time⟩ := by
        rcases hreply with rfl | rfl <;> exact id
      have hget : ∀ event ∈ reserve ++ [⟨.httpGet req.targetUrl
          req.x402Payment, reply, order, time⟩], event.op.Quiet := by
        rw [List.forall_mem_append, List.forall_mem_singleton]
        exact ⟨hquiet, .of_ne fun _ heq => by cases heq⟩
      rw [audited_iff_not_recorded (raises_error id) hget,
        exists_before_iff (fun _ => Recorded.stage) hstage]
      simp [hsilent]
  | @answered status order₁ time₁ order₂ time₂ body eventType reached response
      hheader htype =>
      apply iff_of_true
      · constructor
        · intro message heq
          cases heq
        · intro _
          rw [List.countP_append, countP_emitted_eq_zero rfl hquiet]
          rcases htype with rfl | rfl <;> rfl
      · intro _
        exact ⟨hheader, _, .head _, trivial⟩

/-- A forwarded request is audited exactly when none of the exits without a
report is taken. -/
theorem forwardRequest_audited_iff {req : ProxyRequest}
    {trace : List (Event Op Reply)} {result : Except AppError ProxyResponse}
    (h : (forwardRequest ext config req).Reaches trace (lift result)) :
    Audited trace result ↔ Reported ext req trace := by
  rcases forwardRequest_ends h with ⟨error, hrefused, rfl⟩ |
    ⟨received, agentRules, before, after, rfl, hpassed, hafter⟩
  · rw [hrefused.audited_iff]
    exact (and_iff_left (settled_of_stages hrefused.stages)).symm
  · have hnoKey : (reserveSpend received agentRules >>= fun _ =>
        forwardToTarget ext req received).Within fun op => op.stage ≠ 6 :=
      (reserveSpend_noKey received agentRules).bind fun _ =>
        (forwardToTarget_within req received).mono fun op hop => by omega
    rw [hpassed.audited_iff, hpassed.reported_iff (hnoKey.of_mem hafter)]
    rcases reaches_bind_lift_iff.mp hafter with
      ⟨error, hreserve, rfl⟩ | ⟨_, reserve, target, rfl, hreserve, htarget⟩
    · exact reserveSpend_audited_iff hreserve
    · exact forwardToTarget_audited_iff hreserve htarget

namespace Sample

theorem usdc50_pos : (0 : Int) < 50_000_000 := by decide

theorem usdc60_pos : (0 : Int) < 60_000_000 := by decide

/-- Keys of the agent with limits of 50 and 60 USDC. -/
def keyOf50 : SessionKeyRow := key agentId 50_000_000 usdc50_pos
def keyOf60 : SessionKeyRow := key agentId 60_000_000 usdc60_pos

/-- How often each call of a replay has reported a violation. -/
def violationCounts (r : Replayed) : List Nat :=
  r.threads.map fun thread => thread.trace.countP (emitted reportsViolation)

theorem violationCounts_toReplay
    (w : World (handle externals config) Shared) :
    violationCounts w.toReplay = w.calls.map fun call =>
      call.trace.countP (emitted reportsViolation) := by
  simp [violationCounts, World.toReplay, Call.toThread, Function.comp_def]

end Sample

/-- A payment of all that its key allows is forwarded, and reported. -/
theorem forwardRequest_audited_sample : ∃ trace result,
    (forwardRequest Sample.externals Sample.config
      (Sample.request .first true true)).Reaches trace (lift result) ∧
    errorOf result = none ∧
    (Audited trace result ↔
      Reported Sample.externals (Sample.request .first true true) trace) := by
  have hrun : ∃ w, Run (World.step proxySemantics) always
      (Sample.world none (some Sample.keyOf60)) w ∧
      Sample.endings w.toReplay = [some none] ∧
      w.calls.map Call.request =
        [.forwardRequest (Sample.request .first true true)] := by
    refine World.exists_run_of_replay Sample.endings
      (fun _ _ => true) (fun _ _ _ => trivial)
      ([.arrive (.forwardRequest (Sample.request .first true true))] ++
        Sample.advance 0 18) ?_
    simp only [List.map_append, List.map_cons, List.map_nil,
      Sample.withProgram_forward, Sample.map_advance]
    decide
  obtain ⟨w, _, hendings, hrequests⟩ := hrun
  obtain ⟨call, result, _, hreached, herror⟩ :=
    Sample.forwardRequest_of_endings hrequests hendings
  exact ⟨call.trace, result, hreached, herror,
    forwardRequest_audited_iff hreached⟩

/-- A payment of 60 USDC under a key with a limit of 50 USDC ends with a
violation that nothing reports. -/
theorem forwardRequest_not_audited : ∃ trace message,
    (forwardRequest Sample.externals Sample.config
      (Sample.request .first true true)).Reaches trace
        (.throw (.guardrailViolation message)) ∧
    trace.countP (emitted reportsViolation) = 0 ∧
    ¬ Audited trace (.error (.guardrailViolation message)) := by
  have hrun : ∃ w, Run (World.step proxySemantics) always
      (Sample.world none (some Sample.keyOf50)) w ∧
      (Sample.endings w.toReplay, Sample.violationCounts w.toReplay) =
        ([some (some (.guardrailViolation
          "session key spend limit exceeded: 0 + 60000000 > 50000000"))],
          [0]) ∧
      w.calls.map Call.request =
        [.forwardRequest (Sample.request .first true true)] := by
    refine World.exists_run_of_replay
      (fun r => (Sample.endings r, Sample.violationCounts r))
      (fun _ _ => true) (fun _ _ _ => trivial)
      ([.arrive (.forwardRequest (Sample.request .first true true))] ++
        Sample.advance 0 4) ?_
    simp only [List.map_append, List.map_cons, List.map_nil,
      Sample.withProgram_forward, Sample.map_advance]
    decide
  obtain ⟨w, _, hseen, hrequests⟩ := hrun
  rw [Prod.mk.injEq] at hseen
  obtain ⟨call, result, hcalls, hreached, herror⟩ :=
    Sample.forwardRequest_of_endings hrequests hseen.1
  have hzero : call.trace.countP (emitted reportsViolation) = 0 := by
    have hcounts := hseen.2
    rw [Sample.violationCounts_toReplay, hcalls] at hcounts
    exact (List.cons.inj hcounts).1
  cases result with
  | ok response => cases herror
  | error error =>
      cases herror
      refine ⟨call.trace, _, hreached, hzero, ?_⟩
      intro haudited
      have hone := haudited.1 _ rfl
      omega

end X402Guard

/-
The two errors that a replay meets: its nonce is not stored, or its ledger row
is a duplicate.  Which steps of a forwarded request end with them, after which
replies, and which replies of the stores those are.
-/
import X402Guard.HandlerErrors
import X402Guard.NonceScope

namespace X402Guard

open Interaction Prog

variable {ext : Externals} {config : AppConfig}

/-- The rejection of a replay. -/
def nonceUsed (nonce : Bytes32) : AppError :=
  .badRequest s!"nonce already used: {hexEncode nonce.bytes}"

/-- How a request ends whose ledger row would be a duplicate. -/
def duplicateRow : AppError := .internal DbError.uniqueViolation.toString

theorem internal_ne_nonceUsed (cause : String) (nonce : Bytes32) :
    .internal cause ≠ nonceUsed nonce := by
  intro heq
  cases heq

theorem nonceUsed_injective {first second : Bytes32}
    (h : nonceUsed first = nonceUsed second) : first = second :=
  Bytes32.ext (hexEncode_injective
    ((String.append_right_inj _).mp (AppError.badRequest.inj h)))

/-- The SET of the nonce did not store it. -/
def NotStored (nonce : Bytes32) : Event Op Reply → Prop
  | ⟨.redis (.setNxEx key _), reply, _, _⟩ =>
      key = redisKey nonce ∧ reply ≠ .ok true
  | _ => False

/-- The ledger refused a row as a duplicate. -/
def Duplicate : Event Op Reply → Prop
  | ⟨.postgres (.insertSpend ..), reply, _, _⟩ =>
      reply = .error .uniqueViolation
  | _ => False

theorem stage_of_notStored {nonce : Bytes32} {event : Event Op Reply}
    (h : NotStored nonce event) : event.op.stage = 8 := by
  unfold NotStored at h
  split at h
  · rfl
  · exact h.elim

theorem insertSpend_of_duplicate {event : Event Op Reply}
    (h : Duplicate event) : ∃ snapshot values limit?,
      event.op = .postgres (.insertSpend snapshot values limit?) := by
  unfold Duplicate at h
  split at h
  · exact ⟨_, _, _, rfl⟩
  · exact h.elim

/-- The nonce check, call by call. -/
theorem checkNonce_eq (received : Received) :
    checkNonce received = .call .redisConnect fun
      | .error cause => .throw (.internal cause)
      | .ok () => .call (.redis (.setNxEx
          (redisKey received.verified.nonce)
          (nonceTtl received.requirements))) fun wasSet =>
            .lift (rejectIf (wasSet.toOption.getD false = false)
              (nonceUsed received.verified.nonce)) := by
  change Prog.call _ _ = _
  congr 1
  funext connected
  cases connected <;> rfl

theorem checkNonce_failsAfter (nonce : Bytes32) (received : Received) :
    (checkNonce received).FailsAfter (NotStored nonce) (nonceUsed nonce) := by
  rw [checkNonce_eq]
  intro connected order time
  refine ⟨fun h => h.elim, ?_⟩
  cases connected with
  | error cause => trivial
  | ok connected =>
      intro wasSet order' time'
      refine ⟨?_, failsAfter_lift _⟩
      rintro ⟨hkey, hnot⟩
      rw [redisKey_injective hkey]
      cases wasSet with
      | error cause => rfl
      | ok stored =>
          cases stored with
          | false => rfl
          | true => exact absurd rfl hnot

theorem checkNonce_failsOnlyAfter (nonce : Bytes32) (received : Received) :
    (checkNonce received).FailsOnlyAfter (NotStored nonce)
      (nonceUsed nonce) := by
  rw [checkNonce_eq]
  intro connected _ _ _
  cases connected with
  | error cause => exact internal_ne_nonceUsed cause nonce
  | ok connected =>
      intro wasSet order time hstored
      cases wasSet with
      | error cause =>
          exact fun heq =>
            hstored ⟨by rw [nonceUsed_injective heq], by simp⟩
      | ok stored =>
          cases stored with
          | false =>
              exact fun heq =>
                hstored ⟨by rw [nonceUsed_injective heq], by simp⟩
          | true => trivial

/-- The text of the error that an operation has replied with. -/
def errorText : Event Op Reply → Option String
  | ⟨.postgres _, .error error, _, _⟩ => some error.toString
  | ⟨.redisConnect, .error cause, _, _⟩ => some cause
  | ⟨.redis _, .error cause, _, _⟩ => some cause
  | _ => none

/-- The reply reads like that to a duplicate row, and if it is the reply to an
INSERT into the ledger, then to one with the nonce. -/
def ReadsDuplicate (nonce : Bytes32) (event : Event Op Reply) : Prop :=
  errorText event = some DbError.uniqueViolation.toString ∧
    ∀ snapshot values limit?,
      event.op = .postgres (.insertSpend snapshot values limit?) →
      values.txNonce = hexEncode nonce.bytes

theorem internal_injective : Function.Injective AppError.internal :=
  fun _ _ => AppError.internal.inj

theorem DbError.toString_injective : Function.Injective DbError.toString := by
  intro first second h
  cases first <;> cases second <;> first | rfl | exact absurd h (by decide)

theorem query_failsOnlyAfter {nonce : Bytes32} {q : Query}
    (hnonce : ∀ snapshot values limit?,
      q = .insertSpend snapshot values limit? →
      values.txNonce = hexEncode nonce.bytes) :
    (Repo.query q).FailsOnlyAfter (ReadsDuplicate nonce)
      DbError.uniqueViolation.toString := by
  intro reply order time hnot
  cases reply with
  | ok answer => trivial
  | error error =>
      intro heq
      refine hnot ⟨congrArg some heq, fun snapshot values limit? hop => ?_⟩
      exact hnonce _ _ _ (Op.postgres.inj hop)

/-- A text that begins differently is another one. -/
theorem append_ne {lead rest text : String}
    (h : ¬ lead.toList <+: text.toList) : lead ++ rest ≠ text := by
  rintro rfl
  rw [String.toList_append] at h
  exact h (List.prefix_append _ _)

theorem rowToSessionKey_raises (row : SessionKeyRow) :
    Raises (· ≠ DbError.uniqueViolation.toString) (rowToSessionKey row) := by
  refine (raises_okOr (by decide)).bind fun _ => ?_
  refine (raises_okOr ?_).bind fun _ => (raises_okOr ?_).bind fun _ =>
    raises_ok _
  · rw [String.append_assoc]
    exact append_ne (by decide)
  · rw [String.append_assoc]
    exact append_ne (by decide)

theorem rowsToRules_raises (rows : List GuardrailRow) :
    Raises (· ≠ DbError.uniqueViolation.toString) (rowsToRules rows) := by
  refine raises_mapM (fun row => Raises.bind ?_ fun _ => raises_ok _) rows
  unfold rowToRuleType
  split
  · exact (raises_okOr (by decide)).bind fun _ => raises_ok _
  split
  · exact (raises_okOr (by decide)).bind fun _ => raises_ok _
  split
  · exact (raises_okOr (by decide)).bind fun _ => raises_ok _
  split
  · exact (raises_okOr (by decide)).bind fun _ => raises_ok _
  split
  · exact (raises_okOr (by decide)).bind fun _ => raises_ok _
  · exact raises_error (append_ne (by decide))

-- A step ends with `duplicateRow` only after such a reply.

theorem checkSessionKey_readsDuplicate (nonce : Bytes32) (received : Received) :
    (checkSessionKey ext received).FailsOnlyAfter (ReadsDuplicate nonce)
      duplicateRow := by
  unfold checkSessionKey
  split
  · trivial
  have hfound : (Repo.SessionKeys.findById ‹_›).FailsOnlyAfter
      (ReadsDuplicate nonce) DbError.uniqueViolation.toString := by
    refine (query_failsOnlyAfter fun _ _ _ heq => by cases heq).bind
      fun found => ?_
    cases found with
    | none => trivial
    | some row =>
        exact (fails_lift (rowToSessionKey_raises row)).failsOnlyAfter.bind
          fun _ => trivial
  refine (hfound.mapError internal_injective).bind fun found => ?_
  refine Fails.failsOnlyAfter ((fails_lift (raises_okOr ?_)).bind fun _ =>
    Fails.bind (fun _ => trivial) fun _ => fails_lift
      (verifySessionKey_raises ?_ ?_ _ _ _ _))
  all_goals intros; intro heq; cases heq

theorem checkGuardrails_readsDuplicate (nonce : Bytes32) (req : ProxyRequest)
    (received : Received) :
    (checkGuardrails ext req received).FailsOnlyAfter (ReadsDuplicate nonce)
      duplicateRow := by
  unfold checkGuardrails
  split
  · trivial
  rename_i agentId hagent
  refine ((query_failsOnlyAfter fun _ _ _ heq => by cases heq).mapError
    internal_injective).bind fun found => ?_
  refine (fails_lift (raises_okOr
    fun heq => by cases heq)).failsOnlyAfter.bind fun agent => ?_
  refine (fails_lift (raises_rejectIf
    fun heq => by cases heq)).failsOnlyAfter.bind fun _ => ?_
  refine (((query_failsOnlyAfter (q := .selectActiveRules agentId)
    fun _ _ _ heq => by cases heq).bind fun rows =>
      (fails_lift (rowsToRules_raises rows)).failsOnlyAfter).mapError
        internal_injective).bind fun rules => ?_
  refine (((query_failsOnlyAfter (q := .sumLast24h agentId)
    fun _ _ _ heq => by cases heq).bind fun total =>
      (fails_lift (raises_okOr ?_)).failsOnlyAfter).mapError
        internal_injective).bind fun dailySpent => ?_
  · rw [String.append_assoc]
    exact append_ne (by decide)
  · split
    · trivial
    · rename_i violation heq
      refine Fails.failsOnlyAfter (emit_fails.bind fun _ => ?_)
      exact evaluate_raises (fun _ heq => by cases heq) _ _ _ _ violation heq

theorem checkNonce_readsDuplicate (nonce : Bytes32) (received : Received) :
    (checkNonce received).FailsOnlyAfter (ReadsDuplicate nonce)
      duplicateRow := by
  rw [checkNonce_eq]
  intro connected order time hnot
  cases connected with
  | error cause =>
      intro heq
      cases heq
      exact hnot ⟨rfl, fun _ _ _ hop => by cases hop⟩
  | ok connected =>
      intro wasSet _ _ _
      exact (fails_lift (raises_rejectIf
        fun heq => by cases heq)).failsOnlyAfter

theorem checkRateLimit_readsDuplicate (nonce : Bytes32) :
    (checkRateLimit config).FailsOnlyAfter (ReadsDuplicate nonce)
      duplicateRow := by
  have hcheck : (rateLimiterCheck "global" config.rateLimitRps
      1).FailsOnlyAfter (ReadsDuplicate nonce)
        DbError.uniqueViolation.toString := by
    intro connected order time hnot
    cases connected with
    | error cause =>
        intro heq
        cases heq
        exact hnot ⟨rfl, fun _ _ _ hop => by cases hop⟩
    | ok connected =>
        intro now _ _ _ counter _ _ _ results order' time' hslid
        cases results with
        | error cause =>
            intro heq
            cases heq
            exact hslid ⟨rfl, fun _ _ _ hop => by cases hop⟩
        | ok counts =>
            refine Fails.failsOnlyAfter ?_
            simp only [Prog.bind, lift_ok, ret_bind]
            split
            · exact fun _ => trivial
            · trivial
  exact (hcheck.mapError internal_injective).bind fun _ =>
    (fails_lift (raises_rejectIf fun heq => by cases heq)).failsOnlyAfter

theorem reserveSpend_readsDuplicate {nonce : Bytes32} (received : Received)
    (agentRules : Option (List GuardrailRule))
    (hnonce : received.verified.nonce = nonce) :
    (reserveSpend received agentRules).FailsOnlyAfter (ReadsDuplicate nonce)
      duplicateRow := by
  unfold reserveSpend
  split
  · trivial
  rename_i agentId hagent
  have hquery : ∀ {q : Query}, (∀ snapshot values limit?,
      q = .insertSpend snapshot values limit? →
      values.txNonce = nonceHex received.verified) →
      (Repo.query q).FailsOnlyAfter (ReadsDuplicate nonce)
        DbError.uniqueViolation.toString :=
    fun h => query_failsOnlyAfter fun _ _ _ heq =>
      (h _ _ _ heq).trans (by rw [← hnonce]; rfl)
  have hrecord : (Repo.SpendLedger.recordSpendAtomic agentId
      received.sessionKeyId received.paymentAmount (nonceHex received.verified)
      (agentRules.bind extractDailyLimit)).FailsOnlyAfter
        (ReadsDuplicate nonce) DbError.uniqueViolation.toString := by
    refine (fails_lift (raises_okOr ?_)).failsOnlyAfter.bind fun amount => ?_
    · rw [String.append_assoc]
      exact append_ne (by decide)
    have hbegin : (Repo.query .beginSpend).FailsOnlyAfter
        (ReadsDuplicate nonce) DbError.uniqueViolation.toString :=
      hquery fun _ _ _ heq => by cases heq
    have hinsert : ∀ snapshot limit?, (Repo.query (.insertSpend snapshot
        ⟨agentId, received.sessionKeyId, amount, nonceHex received.verified⟩
        limit?)).FailsOnlyAfter (ReadsDuplicate nonce)
          DbError.uniqueViolation.toString :=
      fun _ _ => hquery fun _ _ _ heq => by cases heq; rfl
    dsimp only
    split
    · refine (fails_lift (raises_okOr ?_)).failsOnlyAfter.bind fun limit => ?_
      · rw [String.append_assoc]
        exact append_ne (by decide)
      · exact hbegin.bind fun _ => (hinsert _ _).bind fun _ => trivial
    · exact hbegin.bind fun _ => (hinsert _ _).bind fun _ => trivial
  refine (hrecord.mapError internal_injective).bind fun _ => ?_
  refine Fails.failsOnlyAfter ((fails_lift (raises_rejectIf
    fun heq => by cases heq)).bind fun _ => ?_)
  split
  · trivial
  · exact fails_mapError fun _ heq => by cases heq

theorem forwardToTarget_readsDuplicate (nonce : Bytes32) (req : ProxyRequest)
    (received : Received) :
    (forwardToTarget ext req received).FailsOnlyAfter (ReadsDuplicate nonce)
      duplicateRow := by
  have hfailed : ∀ cause : String, AppError.internal
      s!"forward request failed: {cause}" ≠ duplicateRow :=
    fun cause heq => append_ne (by decide) (AppError.internal.inj heq)
  refine Fails.failsOnlyAfter ((fails_lift (raises_rejectIf fun heq =>
    absurd (AppError.internal.inj heq) (by decide))).bind fun _ => ?_)
  refine Fails.bind (fun _ => trivial) fun reply => ?_
  cases reply with
  | notSent cause => exact hfailed cause
  | noResponse cause => exact hfailed cause
  | response status body =>
      unfold concludeForward
      dsimp only
      split <;> exact emit_fails.bind fun _ => trivial

theorem recordSpendAtomic_failsAfter (agentId : Uuid)
    (sessionKeyId : Option Uuid) (amount : Nat) (txNonce : String)
    (dailyLimit : Option Nat) :
    (Repo.SpendLedger.recordSpendAtomic agentId sessionKeyId amount txNonce
      dailyLimit).FailsAfter Duplicate DbError.uniqueViolation.toString := by
  have hbegin : (Repo.query .beginSpend).FailsAfter Duplicate
      DbError.uniqueViolation.toString :=
    fun reply order time => ⟨fun h => h.elim, failsAfter_lift _⟩
  have hinsert : ∀ snapshot values limit?,
      (Repo.query (.insertSpend snapshot values limit?)).FailsAfter Duplicate
        DbError.uniqueViolation.toString := by
    intro snapshot values limit? reply order time
    refine ⟨?_, failsAfter_lift _⟩
    rintro rfl
    rfl
  refine (failsAfter_lift _).bind fun amountI64 => ?_
  dsimp only
  split
  · refine (failsAfter_lift _).bind fun limitI64 => hbegin.bind fun _ => ?_
    exact (hinsert _ _ _).bind fun _ => trivial
  · exact hbegin.bind fun _ => (hinsert _ _ _).bind fun _ => trivial

theorem reserveSpend_failsAfter (received : Received)
    (agentRules : Option (List GuardrailRule)) :
    (reserveSpend received agentRules).FailsAfter Duplicate duplicateRow := by
  unfold reserveSpend
  split
  · trivial
  · refine (recordSpendAtomic_failsAfter _ _ _ _ _).mapError.bind fun _ => ?_
    refine (failsAfter_lift _).bind fun _ => ?_
    split
    · trivial
    · refine (within_mapError.mpr (incrementSpent_within
        (S := fun op => ∀ snapshot values limit?,
          op ≠ .postgres (.insertSpend snapshot values limit?))
        fun _ _ _ _ heq => by cases heq)).failsAfter ?_
      intro event hne h
      obtain ⟨snapshot, values, limit?, hop⟩ := insertSpend_of_duplicate h
      exact hne snapshot values limit? hop

/-- An event of the nonce check or of the reservation that ends these steps ends
the request. -/
theorem forwardRequest_failsAfter {K : Event Op Reply → Prop}
    {error : AppError}
    (hstage : ∀ event, K event → event.op.stage = 8 ∨ event.op.stage = 10)
    (hnonce : ∀ received, (checkNonce received).FailsAfter K error)
    (hreserve : ∀ received agentRules,
      (reserveSpend received agentRules).FailsAfter K error)
    (req : ProxyRequest) :
    (forwardRequest ext config req).FailsAfter K error := by
  -- no other step has an operation of these two
  have hquiet : ∀ {α : Type} {p : Handler α},
      p.Within (fun op => op.stage ≠ 8 ∧ op.stage ≠ 10) →
      p.FailsAfter K error :=
    fun hp => hp.failsAfter fun event hop hK => by
      have hboth := hstage event hK
      omega
  refine (hquiet ((receivePayment_within req).mono
    fun op hop => by unfold UpTo at hop; omega)).bind fun received => ?_
  refine (hquiet ((checkSessionKey_within received).mono
    fun op hop => by unfold UpTo at hop; omega)).bind fun _ => ?_
  refine (hquiet ((checkGuardrails_within req received).mono
    fun op hop => by unfold UpTo at hop; omega)).bind fun agentRules => ?_
  refine (hnonce received).bind fun _ => ?_
  refine (hquiet (checkRateLimit_ops (by decide) (by decide) (by decide)
    (fun _ _ _ _ _ => by simp [Op.stage]) fun _ _ => by
      simp [Op.stage])).bind fun _ => ?_
  refine (hreserve received agentRules).bind fun _ => ?_
  exact hquiet ((forwardToTarget_within req received).mono
    fun op hop => by omega)

/-- A nonce that is not stored ends the request. -/
theorem forwardRequest_nonceUsed (nonce : Bytes32) (req : ProxyRequest) :
    (forwardRequest ext config req).FailsAfter (NotStored nonce)
      (nonceUsed nonce) := by
  refine forwardRequest_failsAfter
    (fun _ h => Or.inl (stage_of_notStored h)) (checkNonce_failsAfter nonce)
    (fun received agentRules => ?_) req
  refine (reserveSpend_ops (S := fun op => op.stage ≠ 8) received agentRules
    (by decide) (fun _ _ _ _ => by simp [Op.stage]) fun _ _ => by
      simp [Op.stage]).failsAfter ?_
  exact fun _ hop h => hop (stage_of_notStored h)

/-- So does a row that the ledger refuses as a duplicate. -/
theorem forwardRequest_duplicateRow (req : ProxyRequest) :
    (forwardRequest ext config req).FailsAfter Duplicate duplicateRow := by
  have hstage : ∀ {event}, Duplicate event → event.op.stage = 10 := by
    intro event h
    obtain ⟨_, _, _, heq⟩ := insertSpend_of_duplicate h
    rw [heq]
    rfl
  refine forwardRequest_failsAfter (fun _ h => Or.inr (hstage h))
    (fun received => ?_) reserveSpend_failsAfter req
  refine (checkNonce_within received).failsAfter fun event hop h => ?_
  have hten := hstage h
  unfold UpTo at hop
  omega

/-- A SET fails to store its key if Redis fails or has the key. -/
theorem perform_setNxEx_ne_true_iff {key : String} {ttlSecs : Nat}
    {outcome : Outcome} {s : Shared} :
    (perform (.redis (.setNxEx key ttlSecs)) outcome s).1 ≠ .ok true ↔
      (∃ cause, (perform (.redis (.setNxEx key ttlSecs)) outcome s).1 =
        .error cause) ∨ s.redis.Live s.now key := by
  by_cases hfails : outcome.fails = true
  · simp [perform, hfails]
  · by_cases hlive : s.redis.Live s.now key <;>
      simp [perform, Command.run, hfails, hlive]

theorem bigint_raises (n : Int) :
    Raises (· ≠ DbError.uniqueViolation) (bigint n) := by
  unfold bigint
  split
  · exact raises_ok n
  · exact raises_error (by decide)

theorem withinLimit_raises (snapshot : Snapshot) (values : SpendValues)
    (limit? : Option Int) : Raises (· ≠ DbError.uniqueViolation)
      (Db.withinLimit snapshot values limit?) := by
  cases limit? with
  | none => exact raises_ok true
  | some limit =>
      exact (bigint_raises _).bind fun _ => (bigint_raises _).bind fun _ =>
        raises_ok _

theorem incrementSpent_raises (db : Db) (id : Uuid) (amount : Int) :
    Raises (· ≠ DbError.uniqueViolation) (db.incrementSpent id amount) := by
  unfold Db.incrementSpent
  split
  · exact raises_ok _
  · refine Raises.bind ?_ fun charged? => ?_
    · unfold SessionKeyRow.charge
      split
      · exact raises_ok none
      · refine (bigint_raises _).bind fun spent => ?_
        split
        · split
          · exact raises_ok _
          · exact raises_error (by decide)
        · exact raises_ok none
    · cases charged? <;> exact raises_ok _

/-- Of the queries of a forwarded request only the INSERT into the ledger meets
a duplicate. -/
theorem insertSpend_of_uniqueViolation {q : Query} {now : Micros}
    {freshId : Uuid} {db : Db} (hstage : (Op.postgres q).stage ≤ 11)
    (h : q.run now freshId db = .error .uniqueViolation) :
    ∃ snapshot values limit?, q = .insertSpend snapshot values limit? := by
  cases q with
  | insertSpend snapshot values limit? => exact ⟨_, _, _, rfl⟩
  | incrementSpent id amount =>
      exact absurd rfl (incrementSpent_raises db id amount _ h)
  | sumLast24h agentId =>
      exact absurd rfl
        (((bigint_raises _).bind fun _ => raises_ok _ : Raises _ _) _ h)
  | selectAgent | selectActiveRules | selectSessionKey | beginSpend => cases h
  | _ => simp [Op.stage] at hstage

/-- So an operation of a forwarded request replies that there is one only to
that INSERT. -/
theorem insertSpend_of_errorText {op : Op} {outcome : Outcome} {s : Shared}
    {order : Nat} {time : Micros} (hstage : op.stage ≤ 11)
    (h : errorText ⟨op, (perform op outcome s).1, order, time⟩ =
      some DbError.uniqueViolation.toString) :
    ∃ snapshot values limit?,
      (⟨op, (perform op outcome s).1, order, time⟩ : Event Op Reply) =
        ⟨.postgres (.insertSpend snapshot values limit?),
          .error .uniqueViolation, order, time⟩ := by
  have hredis : redisError ≠ DbError.uniqueViolation.toString := by decide
  cases op with
  | postgres q =>
      simp only [perform] at h ⊢
      split at h
      · exact absurd (Option.some.inj h) (by decide)
      rename_i hfine
      rw [if_neg hfine]
      cases hrun : q.run s.now outcome.freshId s.db with
      | ok result =>
          rw [hrun] at h
          cases h
      | error error =>
          rw [hrun] at h
          obtain rfl : error = .uniqueViolation :=
            DbError.toString_injective (Option.some.inj h)
          obtain ⟨snapshot, values, limit?, rfl⟩ :=
            insertSpend_of_uniqueViolation hstage hrun
          exact ⟨snapshot, values, limit?, rfl⟩
  | redisConnect =>
      simp only [perform] at h
      split at h
      · exact absurd (Option.some.inj h) hredis
      · cases h
  | redis command =>
      simp only [perform] at h
      split at h
      · exact absurd (Option.some.inj h) hredis
      · cases h
  | _ => cases h

/-- A row is a duplicate only of a row with its nonce. -/
theorem hasKey_of_duplicate {snapshot : Snapshot} {values : SpendValues}
    {limit? : Option Int} {outcome : Outcome} {s : Shared}
    (h : (perform (.postgres (.insertSpend snapshot values limit?)) outcome
      s).1 = .error .uniqueViolation) :
    s.db.spendLedger.HasKey values.txNonce := by
  have hrun : s.db.insertSpend snapshot values limit? =
      .error .uniqueViolation := by
    simp only [perform, Query.run] at h
    split at h
    · cases h
    · split at h
      · cases h
      · rename_i heq
        cases h
        exact heq
  unfold Db.insertSpend at hrun
  cases hwithin : Db.withinLimit snapshot values limit? with
  | error error =>
      rw [hwithin] at hrun
      cases hrun
      exact absurd rfl (withinLimit_raises snapshot values limit? _ hwithin)
  | ok within =>
      by_contra hnew
      simp only [hwithin, bind, Except.bind] at hrun
      split at hrun
      · split at hrun
        · split at hrun
          · split at hrun <;> cases hrun
          · rename_i hheld
            exact hheld hnew
        · cases hrun
      · cases hrun

end X402Guard

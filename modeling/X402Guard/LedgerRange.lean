/-
The range of the ledger.  Payments and limits are 64-bit unsigned numbers, the
columns and sums of the ledger are signed ones: which payments that the rules
accept can be summed and recorded.
-/
import X402Guard.DailyCap
import X402Guard.SignedTransfers

namespace X402Guard

open Interaction Prog

variable (ext : Externals)

section Ranges

variable {outcome : Outcome} {s : Shared} {agentId : Uuid}
variable {sessionKeyId : Option Uuid} {amount : ℕ} {txNonce : String}
variable {dailyLimit : Option ℕ}

/-- The sum completes exactly when it fits a `BIGINT`. -/
theorem sumLast24h_alone_ok_iff (hfine : outcome.fails = false) {total : ℕ} :
    ((Repo.SpendLedger.sumLast24h agentId).alone proxySemantics outcome s).1 =
        .ok total ↔
      spentLast24h agentId s.now s.db.spendLedger.rows = total ∧
        total < 2 ^ 63 := by
  constructor
  · intro h
    have hsolo : (Repo.SpendLedger.sumLast24h agentId).Solo proxySemantics s
        (.ok total) _ := h ▸ solo_alone outcome _ s
    obtain ⟨sum, t, hquery, hlift⟩ := solo_bind_ok_iff.mp hsolo
    obtain ⟨_, _, hrun, _⟩ := Repo.query_solo_ok hquery
    simp only [Query.run, except_bind_eq_ok, bigint_eq_ok_iff, pure,
      Except.pure, Except.ok.injEq, Prod.mk.injEq] at hrun
    obtain ⟨_, ⟨hrange, rfl⟩, rfl, _⟩ := hrun
    simp only [solo_lift_iff, okOr_eq_ok_iff, u64TryFrom_eq_some_iff] at hlift
    omega
  · rintro ⟨hsum, hrange⟩
    have hrun : (Query.sumLast24h agentId).run s.now outcome.freshId s.db =
        .ok ((total : ℤ), s.db) := by
      simp only [Query.run, except_bind_eq_ok, bigint_eq_ok_iff, hsum]
      exact ⟨total, ⟨by omega, rfl⟩, rfl⟩
    rw [Repo.SpendLedger.sumLast24h, alone_bind,
      Repo.query_alone_of_ok hfine hrun]
    simp [u64TryFrom, okOr, alone]

/-- A reservation that ends with a value has converted its numbers. -/
theorem recordSpendAtomic_range {recorded : Bool} {s' : Shared}
    (h : (Repo.SpendLedger.recordSpendAtomic agentId sessionKeyId amount
      txNonce dailyLimit).Solo proxySemantics s (.ok recorded) s') :
    amount < 2 ^ 63 ∧ ∀ limit, dailyLimit = some limit → limit < 2 ^ 63 := by
  obtain ⟨_, _, hamount, h⟩ := solo_bind_ok_iff.mp h
  simp only [solo_lift_iff, okOr_eq_ok_iff, i64TryFrom_eq_some_iff] at hamount
  refine ⟨hamount.1.1, ?_⟩
  rintro limit rfl
  obtain ⟨_, _, hlimit, _⟩ := solo_bind_ok_iff.mp h
  simp only [solo_lift_iff, okOr_eq_ok_iff, i64TryFrom_eq_some_iff] at hlimit
  exact hlimit.1.1

end Ranges

theorem spentLast24h_nonneg (agentId : Uuid) (now : Micros)
    (rows : List LedgerRow) : 0 ≤ spentLast24h agentId now rows := by
  refine List.sum_nonneg fun amount hmem => ?_
  obtain ⟨row, _, rfl⟩ := List.mem_map.mp hmem
  exact Int.le_of_lt row.amount_pos

/-- The sum completes in `s`; the reservation in the later `s'` completes and
appends the row of the payment to the ledger. -/
def CompletesReservation (outcome : Outcome) (s s' : Shared)
    (rules : List GuardrailRule) (agentId : Uuid)
    (sessionKeyId : Option Uuid) (amount : ℕ) (txNonce : String) : Prop :=
  (∃ total, ((Repo.SpendLedger.sumLast24h agentId).alone proxySemantics
    outcome s).1 = .ok total) ∧
  ∃ (recorded : Shared) (row : LedgerRow),
    (Repo.SpendLedger.recordSpendAtomic agentId sessionKeyId amount txNonce
      (extractDailyLimit rules)).alone proxySemantics outcome s' =
        (.ok true, recorded) ∧
    recorded.db.spendLedger.rows = s'.db.spendLedger.rows ++ [row] ∧
    row.agentId = agentId ∧ row.sessionKeyId = sessionKeyId ∧
    row.amount = amount ∧ row.txNonce = txNonce ∧ row.createdAt = s'.now

/-- The sum in `s` or the reservation in `s'` ends with an error. -/
def RefusesReservation (outcome : Outcome) (s s' : Shared)
    (rules : List GuardrailRule) (agentId : Uuid)
    (sessionKeyId : Option Uuid) (amount : ℕ) (txNonce : String) : Prop :=
  (∃ error, ((Repo.SpendLedger.sumLast24h agentId).alone proxySemantics
    outcome s).1 = .error error) ∨
  ∃ error, ((Repo.SpendLedger.recordSpendAtomic agentId sessionKeyId amount
    txNonce (extractDailyLimit rules)).alone proxySemantics outcome s').1 =
      .error error

/-- The rules accept the payment against the exact total of `s`, and no other
request changes the database until `s'`. -/
structure AcceptedAlone (outcome : Outcome) (s s' : Shared)
    (rules : List GuardrailRule) (payment : VerifiedPayment)
    (requirements : PaymentRequirements) (agentId : Uuid)
    (sessionKeyId : Option Uuid) (txNonce : String) : Prop where
  answered : outcome.fails = false
  later : s.now ≤ s'.now
  undisturbed : s'.db = s.db
  reservable : s.db.Reservable
    ⟨agentId, sessionKeyId, payment.value.toNat, txNonce⟩
  accepted : evaluate ext rules payment requirements
    (spentLast24h agentId s.now s.db.spendLedger.rows).toNat = .ok ()

/-- An accepted daily rule bounds total and payment together. -/
theorem le_dailyLimit_of_evaluate {rules : List GuardrailRule}
    {payment : VerifiedPayment} {requirements : PaymentRequirements}
    {dailySpent first : ℕ} (hfirst : FirstDailyLimit rules first)
    (hrange : first ≤ u64Max) (hdaily : dailySpent ≤ u64Max)
    (hvalue : payment.value.toNat ≤ u64Max)
    (h : evaluate ext rules payment requirements dailySpent = .ok ()) :
    dailySpent + payment.value.toNat ≤ first := by
  obtain ⟨rule, hmem, hactive, htype⟩ := hfirst.hasDailyLimit
  have hrule := (evaluate_eq_ok_iff ext).mp h rule hmem hactive
  rw [htype] at hrule
  exact (checkMaxSpendPerDay_eq_ok_iff hrange hdaily hvalue).mp hrule

section Accepted

variable {ext} {outcome : Outcome} {s s' : Shared}
variable {rules : List GuardrailRule} {payment : VerifiedPayment}
variable {requirements : PaymentRequirements} {agentId : Uuid}
variable {sessionKeyId : Option Uuid} {txNonce : String}

/-- Payment, first daily limit and total are in the range of `i64`. -/
def InLedgerRange (s : Shared) (rules : List GuardrailRule) (agentId : Uuid)
    (amount : ℕ) : Prop :=
  amount < 2 ^ 63 ∧ (∀ first, FirstDailyLimit rules first → first < 2 ^ 63) ∧
    spentLast24h agentId s.now s.db.spendLedger.rows < 2 ^ 63

/-- A sum and a reservation that both end with a value are in the range. -/
theorem inLedgerRange_of_ok {amount total : ℕ} {recorded : Bool}
    (hfine : outcome.fails = false)
    (hsum : ((Repo.SpendLedger.sumLast24h agentId).alone proxySemantics
      outcome s).1 = .ok total)
    (hrecord : ((Repo.SpendLedger.recordSpendAtomic agentId sessionKeyId
      amount txNonce (extractDailyLimit rules)).alone proxySemantics outcome
        s').1 = .ok recorded) :
    InLedgerRange s rules agentId amount := by
  have hsolo : (Repo.SpendLedger.recordSpendAtomic agentId sessionKeyId
      amount txNonce (extractDailyLimit rules)).Solo proxySemantics s'
      (.ok recorded) _ := hrecord ▸ solo_alone outcome _ s'
  obtain ⟨hamount, hlimit⟩ := recordSpendAtomic_range hsolo
  rw [sumLast24h_alone_ok_iff hfine] at hsum
  refine ⟨hamount, fun first hfirst => ?_, by omega⟩
  exact hlimit first (extractDailyLimit_eq_some_iff.mpr hfirst)

theorem CompletesReservation.inRange {amount : ℕ}
    (hfine : outcome.fails = false)
    (h : CompletesReservation outcome s s' rules agentId sessionKeyId amount
      txNonce) : InLedgerRange s rules agentId amount := by
  obtain ⟨⟨total, hsum⟩, recorded, _, hrecord, _⟩ := h
  exact inLedgerRange_of_ok hfine hsum (congrArg Prod.fst hrecord)

theorem refusesReservation_of_not_inRange {amount : ℕ}
    (hfine : outcome.fails = false)
    (h : ¬ InLedgerRange s rules agentId amount) :
    RefusesReservation outcome s s' rules agentId sessionKeyId amount
      txNonce := by
  cases hsum : ((Repo.SpendLedger.sumLast24h agentId).alone proxySemantics
      outcome s).1 with
  | error error => exact Or.inl ⟨error, hsum⟩
  | ok total =>
      cases hrecord : ((Repo.SpendLedger.recordSpendAtomic agentId
          sessionKeyId amount txNonce (extractDailyLimit rules)).alone
          proxySemantics outcome s').1 with
      | error error => exact Or.inr ⟨error, hrecord⟩
      | ok recorded => exact absurd (inLedgerRange_of_ok hfine hsum hrecord) h

theorem AcceptedAlone.completes
    (h : AcceptedAlone ext outcome s s' rules payment requirements agentId
      sessionKeyId txNonce)
    (hrange : InLedgerRange s rules agentId payment.value.toNat) :
    CompletesReservation outcome s s' rules agentId sessionKeyId
      payment.value.toNat txNonce := by
  obtain ⟨hfine, hlater, hdb, hreservable, haccepted⟩ := h
  obtain ⟨hamount, hlimit, htotal⟩ := hrange
  obtain ⟨total, hspent⟩ := Int.eq_ofNat_of_zero_le
    (spentLast24h_nonneg agentId s.now s.db.spendLedger.rows)
  rw [hspent, Int.toNat_natCast] at haccepted
  have hsum : ((Repo.SpendLedger.sumLast24h agentId).alone proxySemantics
      outcome s).1 = .ok total :=
    (sumLast24h_alone_ok_iff hfine).mpr ⟨hspent, by omega⟩
  -- as time passes the sum only shrinks
  have hshrunk : spentLast24h agentId s'.now s'.db.spendLedger.rows ≤
      total := by
    rw [hdb, ← hspent]
    exact spentLast24h_antitone hlater
  have hreservable' : s'.db.Reservable
      ⟨agentId, sessionKeyId, payment.value.toNat, txNonce⟩ :=
    hdb ▸ hreservable
  refine ⟨⟨total, hsum⟩, _, _, recordSpendAtomic_alone hfine hreservable'
    (spentLast24h_nonneg _ _ _) hamount ?_, rfl, rfl, rfl, rfl, rfl, rfl⟩
  intro first hextract
  have hfirst := extractDailyLimit_eq_some_iff.mp hextract
  have hbelow := hlimit first hfirst
  have hle := le_dailyLimit_of_evaluate ext hfirst
    (by rw [u64Max]; omega) (by rw [u64Max]; omega)
    (by rw [u64Max]; omega) haccepted
  exact ⟨hbelow, by omega⟩

/-- What the rules accept can be summed and recorded exactly when the payment,
the first active daily limit and the total of the last 24 hours are all in the
range of `i64`; where they are not, the sum or the reservation ends with an
error. -/
theorem completesReservation_iff
    (h : AcceptedAlone ext outcome s s' rules payment requirements agentId
      sessionKeyId txNonce) :
    (CompletesReservation outcome s s' rules agentId sessionKeyId
        payment.value.toNat txNonce ↔
      payment.value.toNat < 2 ^ 63 ∧
      (∀ first, FirstDailyLimit rules first → first < 2 ^ 63) ∧
      spentLast24h agentId s.now s.db.spendLedger.rows < 2 ^ 63) ∧
    (¬ CompletesReservation outcome s s' rules agentId sessionKeyId
        payment.value.toNat txNonce →
      RefusesReservation outcome s s' rules agentId sessionKeyId
        payment.value.toNat txNonce) := by
  refine ⟨⟨fun hcompletes => hcompletes.inRange h.answered, h.completes⟩,
    fun hnot => ?_⟩
  exact refusesReservation_of_not_inRange h.answered
    fun hrange => hnot (h.completes hrange)

end Accepted

namespace Sample

def paying (value : U256) : VerifiedPayment :=
  ⟨signer, service, value, .zero, "base-sepolia"⟩

/-- The state before the first payment. -/
def unspent : Shared := Shared.start 1_700_000_100_000_000 (db none none)

def dailyRule (limit : ℕ) : GuardrailRule :=
  ⟨ruleId, agentId, .maxSpendPerDay limit, true⟩

theorem unspent_reservable {amount : ℕ} (hpos : 0 < amount)
    (txNonce : String) :
    unspent.db.Reservable ⟨agentId, none, amount, txNonce⟩ where
  agent := hasKey_agentId none none
  sessionKey := by simp
  nonce := by simp [KeyedTable.HasKey, unspent, Shared.start, db,
    KeyedTable.empty]
  amount_pos := Int.natCast_pos.mpr hpos

/-- What the rules accept of the first payment. -/
theorem acceptedAlone_unspent {rules : List GuardrailRule} {value : U256}
    (hpos : 0 < value.toNat)
    (haccepted : evaluate externals rules (paying value) requirements 0 =
      .ok ()) :
    AcceptedAlone externals fine unspent unspent rules (paying value)
      requirements agentId none "first" where
  answered := rfl
  later := Nat.le_refl _
  undisturbed := rfl
  reservable := unspent_reservable hpos _
  accepted := haccepted

/-- After the largest reservation. -/
def spentOnce : Shared :=
  { unspent with
    db := unspent.db.reserve unspent.now
      ⟨agentId, none, (2 ^ 63 - 1 : ℕ), "first"⟩
      (unspent_reservable (by decide) _) }

theorem spentOnce_reservable {txNonce : String} (hne : txNonce ≠ "first")
    {amount : ℕ} (hpos : 0 < amount) :
    spentOnce.db.Reservable ⟨agentId, none, amount, txNonce⟩ where
  agent := hasKey_agentId none none
  sessionKey := by simp
  nonce := by simpa [KeyedTable.HasKey, spentOnce, Db.reserve, unspent,
    Shared.start, db, KeyedTable.empty, SpendValues.row] using hne
  amount_pos := Int.natCast_pos.mpr hpos

/-- After two of them. -/
def spentTwice : Shared :=
  { spentOnce with
    db := spentOnce.db.reserve spentOnce.now
      ⟨agentId, none, (2 ^ 63 - 1 : ℕ), "second"⟩
      (spentOnce_reservable (by decide) (by decide)) }

theorem acceptedAlone_spentTwice :
    AcceptedAlone externals fine spentTwice spentTwice [] (paying 1)
      requirements agentId none "third" where
  answered := rfl
  later := Nat.le_refl _
  undisturbed := rfl
  reservable := {
    agent := hasKey_agentId none none
    sessionKey := by simp
    nonce := by simp [KeyedTable.HasKey, spentTwice, spentOnce, Db.reserve,
      unspent, Shared.start, db, KeyedTable.empty, SpendValues.row]
    amount_pos := by decide }
  accepted := rfl

end Sample

/-- A reservation without a limit, in either state, and what it leaves. -/
theorem spentTwice_built :
    (Repo.SpendLedger.recordSpendAtomic Sample.agentId none (2 ^ 63 - 1)
        "first" (extractDailyLimit [])).alone proxySemantics Sample.fine
        Sample.unspent = (.ok true, Sample.spentOnce) ∧
      (Repo.SpendLedger.recordSpendAtomic Sample.agentId none (2 ^ 63 - 1)
        "second" (extractDailyLimit [])).alone proxySemantics Sample.fine
        Sample.spentOnce = (.ok true, Sample.spentTwice) := by
  constructor
  · exact recordSpendAtomic_alone rfl
      (Sample.unspent_reservable (by decide) _) (spentLast24h_nonneg _ _ _)
      (by decide) (by simp [extractDailyLimit])
  · exact recordSpendAtomic_alone rfl
      (Sample.spentOnce_reservable (by decide) (by decide))
      (spentLast24h_nonneg _ _ _) (by decide) (by simp [extractDailyLimit])

/-- Accepted and not recorded: a payment above `i64::MAX`, a payment under a
daily limit above it, and a payment after two of `i64::MAX` in one day. -/
theorem not_completesReservation :
    (∃ payment requirements, payment.value.toNat ≤ u64Max ∧
      AcceptedAlone Sample.externals Sample.fine Sample.unspent Sample.unspent
        [] payment requirements Sample.agentId none "first" ∧
      ¬ CompletesReservation Sample.fine Sample.unspent Sample.unspent []
        Sample.agentId none payment.value.toNat "first") ∧
    (∃ payment requirements, payment.value.toNat ≤ u64Max ∧
      AcceptedAlone Sample.externals Sample.fine Sample.unspent Sample.unspent
        [Sample.dailyRule (2 ^ 63)] payment requirements Sample.agentId none
        "first" ∧
      ¬ CompletesReservation Sample.fine Sample.unspent Sample.unspent
        [Sample.dailyRule (2 ^ 63)] Sample.agentId none payment.value.toNat
        "first") ∧
    ∃ payment requirements spentOnce spentTwice,
      (Repo.SpendLedger.recordSpendAtomic Sample.agentId none (2 ^ 63 - 1)
        "first" none).alone proxySemantics Sample.fine Sample.unspent =
          (.ok true, spentOnce) ∧
      (Repo.SpendLedger.recordSpendAtomic Sample.agentId none (2 ^ 63 - 1)
        "second" none).alone proxySemantics Sample.fine spentOnce =
          (.ok true, spentTwice) ∧
      payment.value.toNat ≤ u64Max ∧
      AcceptedAlone Sample.externals Sample.fine spentTwice spentTwice []
        payment requirements Sample.agentId none "third" ∧
      ¬ CompletesReservation Sample.fine spentTwice spentTwice []
        Sample.agentId none payment.value.toNat "third" := by
  refine ⟨⟨Sample.paying (BitVec.ofNat 256 (2 ^ 63)), Sample.requirements,
    by decide, Sample.acceptedAlone_unspent (by decide) rfl, ?_⟩,
    ⟨Sample.paying 1, Sample.requirements, by decide,
      Sample.acceptedAlone_unspent (by decide) rfl, ?_⟩,
    ⟨Sample.paying 1, Sample.requirements, _, _, spentTwice_built.1,
      spentTwice_built.2, by decide, Sample.acceptedAlone_spentTwice, ?_⟩⟩
  · intro h
    exact absurd (h.inRange rfl).1 (by decide)
  · intro h
    have hfirst : FirstDailyLimit [Sample.dailyRule (2 ^ 63)] (2 ^ 63) :=
      extractDailyLimit_eq_some_iff.mp rfl
    exact absurd ((h.inRange rfl).2.1 _ hfirst) (by decide)
  · intro h
    exact absurd (h.inRange rfl).2.2 (by decide)

/-- A payment of 60 under a daily limit of 100 is recorded, and after two of
`i64::MAX` in one day a payment of 1 is refused. -/
theorem completesReservation_iff_sample :
    CompletesReservation Sample.fine Sample.unspent Sample.unspent
      [Sample.dailyRule 100] Sample.agentId none
      (Sample.paying 60).value.toNat "first" ∧
    RefusesReservation Sample.fine Sample.spentTwice Sample.spentTwice []
      Sample.agentId none (Sample.paying 1).value.toNat "third" := by
  constructor
  · refine (completesReservation_iff (Sample.acceptedAlone_unspent
      (by decide) rfl)).1.mpr ⟨by decide, ?_, by decide⟩
    intro first hfirst
    obtain rfl : 100 = first := Option.some.inj
      (extractDailyLimit_eq_some_iff.mpr hfirst)
    decide
  · refine (completesReservation_iff Sample.acceptedAlone_spentTwice).2
      fun h => ?_
    exact absurd (h.inRange rfl).2.2 (by decide)

end X402Guard

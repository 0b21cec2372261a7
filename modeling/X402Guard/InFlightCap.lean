/-
The daily cap of an agent under a bounded number of clients.  Reservations that
overlap do not see each other, so the cap can be passed; but of n requests in
flight at a time each has a lane of its own, the reservations of one lane see
all earlier ones of that lane, and the sum stays within n caps.
-/
import X402Guard.DailyCap
import Mathlib.Algebra.BigOperators.Group.Finset.Piecewise
import Mathlib.Algebra.Order.BigOperators.Group.Finset
import Mathlib.Algebra.Order.Ring.Int

namespace X402Guard

open Interaction Prog

variable {ext : Externals} {config : AppConfig}

/-- The items that were put into a lane. -/
def laneItems {ι : Type*} (lane : ℕ) (items : List (ι × ℕ)) : List ι :=
  (items.filter fun item => item.2 = lane).map Prod.fst

section Lanes

variable {ι M : Type*} [AddCommMonoid M]

theorem laneItems_snoc (lane : ℕ) (items : List (ι × ℕ)) (item : ι × ℕ) :
    laneItems lane (items ++ [item]) =
      laneItems lane items ++ if item.2 = lane then [item.1] else [] := by
  by_cases h : item.2 = lane <;> simp [laneItems, h]

theorem laneItems_sublist (lane : ℕ) (items : List (ι × ℕ)) :
    (laneItems lane items).Sublist (items.map Prod.fst) :=
  List.filter_sublist.map _

/-- What adds up over lists adds up over the lanes. -/
theorem sum_laneItems {total : List ι → M} (hnil : total [] = 0)
    (happend : ∀ first second,
      total (first ++ second) = total first + total second)
    {n : ℕ} {items : List (ι × ℕ)} (h : ∀ item ∈ items, item.2 < n) :
    total (items.map Prod.fst) =
      ∑ lane ∈ Finset.range n, total (laneItems lane items) := by
  induction items with
  | nil => simp [laneItems, hnil]
  | cons head tail ih =>
      have hhead : head.2 ∈ Finset.range n :=
        Finset.mem_range.mpr (h head List.mem_cons_self)
      have hlane : ∀ lane, total (laneItems lane (head :: tail)) =
          (if head.2 = lane then total [head.1] else 0) +
            total (laneItems lane tail) := by
        intro lane
        by_cases hl : head.2 = lane
        · simp [laneItems, hl, ← happend]
        · simp [laneItems, hl]
      simp only [hlane, Finset.sum_add_distrib, Finset.sum_ite_eq, hhead,
        ↓reduceIte]
      rw [← ih fun item hitem => h item (List.mem_cons_of_mem head hitem),
        ← happend]
      rfl

end Lanes

/-- Fewer than `n` lanes in use leave one free. -/
theorem exists_free_lane {n : ℕ} {busy : List ℕ} (h : busy.length < n) :
    ∃ lane < n, lane ∉ busy := by
  have hcard : busy.toFinset.card < (Finset.range n).card := by
    rw [Finset.card_range]
    exact busy.toFinset_card_le.trans_lt h
  obtain ⟨lane, hlane, hfree⟩ :=
    Finset.exists_mem_notMem_of_card_lt_card hcard
  exact ⟨lane, Finset.mem_range.mp hlane, mt List.mem_toFinset.mpr hfree⟩

/-- An INSERT into the ledger directly follows the taking of its snapshot. -/
def BeginsFirst (last : Option (Event Op Reply)) (op : Op) : Prop :=
  ∀ snapshot values limit?,
    op = .postgres (.insertSpend snapshot values limit?) →
    ∃ order time,
      last = some ⟨.postgres .beginSpend, .ok snapshot, order, time⟩

theorem BeginsFirst.of_ne {last : Option (Event Op Reply)} {op : Op}
    (h : ∀ snapshot values limit?,
      op ≠ .postgres (.insertSpend snapshot values limit?)) :
    BeginsFirst last op :=
  fun snapshot values limit? heq => absurd heq (h snapshot values limit?)

/-- No stage but the tenth inserts. -/
theorem BeginsFirst.of_stage {last : Option (Event Op Reply)} {op : Op}
    (h : op.stage ≠ 10) : BeginsFirst last op :=
  .of_ne fun _ _ _ heq => h (by rw [heq]; rfl)

/-- The two statements of a reservation are linked. -/
theorem insertSpend_linked (values : SpendValues) (limit? : Option Int)
    {f : Nat → Bool}
    (last : Option (Event Op Reply)) :
    (Repo.query .beginSpend >>= fun snapshot : Snapshot =>
      Repo.query (.insertSpend snapshot values limit?) >>= fun affected : Nat =>
        pure (f affected) : RepoM Bool).Linked BeginsFirst last := by
  refine ⟨.of_ne (fun _ _ _ heq => by cases heq), ?_⟩
  intro reply order time
  cases reply with
  | error error => trivial
  | ok snapshot =>
      refine ⟨?_, fun reply' order' time' => ?_⟩
      · rintro _ _ _ ⟨⟩
        exact ⟨order, time, rfl⟩
      · exact Linked.bind ((within_lift (fun _ => False) _).linked
          (fun _ _ h => h.elim) _) fun _ _ => trivial

theorem reserveSpend_linked (received : Received)
    (agentRules : Option (List GuardrailRule))
    (last : Option (Event Op Reply)) :
    (reserveSpend received agentRules).Linked BeginsFirst last := by
  have hquiet : ∀ (last : Option (Event Op Reply)) (op : Op),
      False → BeginsFirst last op := fun _ _ h => h.elim
  unfold reserveSpend
  split
  · trivial
  refine Linked.bind (Linked.mapError ?_) fun _ _ => ?_
  · refine Linked.bind ((within_lift _ _).linked hquiet _) fun _ _ => ?_
    split
    · refine Linked.bind ((within_lift _ _).linked hquiet _) fun _ _ => ?_
      exact insertSpend_linked (f := fun affected => decide (0 < affected))
        _ _ _
    · exact insertSpend_linked (f := fun _ => true) _ _ _
  · refine Linked.bind ((within_lift _ _).linked hquiet _) fun _ _ => ?_
    split
    · trivial
    · refine Linked.mapError (Within.linked (incrementSpent_within
        (S := fun op => ∃ id n, op = .postgres (.incrementSpent id n))
        fun n => ⟨_, _, rfl⟩) ?_ _)
      rintro last _ ⟨id, n, rfl⟩
      exact .of_ne fun _ _ _ heq => by cases heq

theorem handle_linked (request : Request) :
    (handle ext config request).Linked BeginsFirst none := by
  cases request with
  | forwardRequest req =>
      have hupTo : ∀ {n : Nat}, n < 10 → ∀ last op, UpTo n op →
          BeginsFirst last op := fun hn last op hop =>
        .of_stage (Nat.ne_of_lt (Nat.lt_of_le_of_lt hop hn))
      refine Linked.bind ?_ fun _ _ => trivial
      refine Linked.bind ((receivePayment_within req).linked
        (hupTo (by omega)) _) fun received _ => ?_
      refine Linked.bind ((checkSessionKey_within received).linked
        (hupTo (by omega)) _) fun _ _ => ?_
      refine Linked.bind ((checkGuardrails_within req received).linked
        (hupTo (by omega)) _) fun agentRules _ => ?_
      refine Linked.bind ((checkNonce_within received).linked
        (hupTo (by omega)) _) fun _ _ => ?_
      refine Linked.bind (checkRateLimit_within.linked
        (hupTo (by omega)) _) fun _ _ => ?_
      refine Linked.bind (reserveSpend_linked received agentRules _)
        fun _ _ => ?_
      refine (forwardToTarget_within req received).linked ?_ _
      exact fun _ _ hop => .of_stage (by omega)
  | _ =>
      refine (handle_issues _).linked (fun _ _ hop => .of_stage ?_) _
      simp only [Request.Issues] at hop
      omega

/-- A call about to insert into the ledger has just taken its snapshot. -/
theorem begin_of_rest {call : Call (handle ext config)} {snapshot : Snapshot}
    {values : SpendValues} {limit? : Option Int}
    (hop : call.rest.op? =
      some (.postgres (.insertSpend snapshot values limit?))) :
    ∃ order time, call.trace.getLast? =
      some ⟨.postgres .beginSpend, .ok snapshot, order, time⟩ := by
  obtain ⟨next, hrest⟩ := Prog.op?_eq_some_iff.mp hop
  have hlinked := (handle_linked call.request).rest call.reached
  rw [hrest] at hlinked
  simpa using hlinked.1 snapshot values limit? rfl

/-- It inserts for the agent that its request names. -/
theorem agent_of_rest {call : Call (handle ext config)} {snapshot : Snapshot}
    {values : SpendValues} {limit? : Option Int}
    (hop : call.rest.op? =
      some (.postgres (.insertSpend snapshot values limit?))) :
    call.request.agent ext = some values.agentId := by
  obtain ⟨next, hrest⟩ := Prog.op?_eq_some_iff.mp hop
  let event : Event Op Reply := ⟨.postgres (.insertSpend snapshot values
    limit?), .error .connection, 0, 0⟩
  let resumed := call.resume hrest (.error .connection) 0 0
  have hevent : event ∈ resumed.trace := by simp [resumed, event]
  have hstage : event.op.stage = 10 := rfl
  obtain ⟨req, rest, hreq, h⟩ := forwards_of_spends hevent (by
    unfold Op.Spends
    omega)
  obtain ⟨received, agentRules, before, after, _, hadmitted, hafter,
    hreserve⟩ := forwardRequest_admitted h hevent (by omega)
  obtain ⟨agentId, hagent, rfl⟩ : ∃ agentId,
      received.agentId = some agentId ∧
        values = received.spendValues agentId := by
    rcases reaches_bind_iff.mp hreserve with
      ⟨p', hp', _⟩ | ⟨_, first, second, rfl, hfirst, hsecond⟩
    · obtain ⟨agentId, hagent, hvalues, _⟩ :=
        reserveSpend_inserts hp' hafter rfl
      exact ⟨agentId, hagent, hvalues⟩
    · rcases List.mem_append.mp hafter with hin | hlater
      · obtain ⟨agentId, hagent, hvalues, _⟩ :=
          reserveSpend_inserts hfirst hin rfl
        exact ⟨agentId, hagent, hvalues⟩
      · have := (forwardToTarget_within req received).of_mem hsecond event
          hlater
        omega
  have hcall : call.request = .forwardRequest req := hreq
  rw [hcall]
  exact hadmitted.valid.names.1.symm.trans hagent

/-- The call is for the agent and has not ended. -/
def InFlightFor (agentId : Uuid) (call : Call (handle ext config)) : Prop :=
  call.request.agent ext = some agentId ∧ call.rest.op?.isSome = true

instance (agentId : Uuid) (call : Call (handle ext config)) :
    Decidable (InFlightFor agentId call) :=
  inferInstanceAs (Decidable
    (call.request.agent ext = some agentId ∧ call.rest.op?.isSome = true))

/-- The calls for the agent that have not ended. -/
def inFlight (agentId : Uuid) (w : World (handle ext config) Shared) : ℕ :=
  w.calls.countP fun call => InFlightFor agentId call

/-- Only requests to be forwarded arrive, and one for the agent arrives only
while fewer than `n` are in flight. -/
def AtMostInFlight (ext : Externals) (config : AppConfig) (agentId : Uuid)
    (n : ℕ) : World (handle ext config) Shared →
    Action Request Micros Outcome → Prop
  | w, .arrive request => request.forwards.isSome = true ∧
      (request.agent ext = some agentId → inFlight agentId w < n)
  | _, _ => True

/-- The recent amounts of ledger rows. -/
def recentAmount (now : Micros) (rows : List LedgerRow) : ℤ :=
  SlidingWindow.recentSum LedgerRow.createdAt dayMicros LedgerRow.amount now
    rows

theorem spentLast24h_eq (agentId : Uuid) (now : Micros)
    (rows : List LedgerRow) :
    spentLast24h agentId now rows =
      recentAmount now (ledgerOf agentId rows) := rfl

theorem recentAmount_antitone {now later : Micros} {rows : List LedgerRow}
    (h : now ≤ later) : recentAmount later rows ≤ recentAmount now rows :=
  SlidingWindow.recentSum_antitone _ _
    (fun row _ => Int.le_of_lt row.amount_pos) h

theorem recentAmount_mono {now : Micros} {rows rows' : List LedgerRow}
    (h : rows.Sublist rows') :
    recentAmount now rows ≤ recentAmount now rows' :=
  SlidingWindow.recentSum_le_of_sublist _ _
    (fun row => Int.le_of_lt row.amount_pos) h

/-- Lanes for the calls of an agent.  `start` are the agent's rows at the
start, `owned` the later ones, each with the lane of the call that inserted
it. -/
structure Lanes (agentId : Uuid) (limit n : ℕ) (start : List LedgerRow)
    (w : World (handle ext config) Shared) (lane : ℕ → ℕ)
    (owned : List (LedgerRow × ℕ)) : Prop where
  rows : ledgerOf agentId w.shared.db.spendLedger.rows =
    start ++ owned.map Prod.fst
  lane_lt : ∀ i, lane i < n
  owned_lt : ∀ item ∈ owned, item.2 < n
  apart : ∀ i j first second, w.calls[i]? = some first →
    w.calls[j]? = some second → InFlightFor agentId first →
    InFlightFor agentId second → lane i = lane j → i = j
  within : ∀ k < n,
    recentAmount w.shared.now (start ++ laneItems k owned) ≤ limit
  seen : ∀ i call snapshot values limit?, w.calls[i]? = some call →
    call.rest.op? = some (.postgres (.insertSpend snapshot values limit?)) →
    values.agentId = agentId →
    (start ++ laneItems (lane i) owned).Sublist
      (ledgerOf agentId snapshot.rows)

section Step

variable {agentId : Uuid} {limit n : ℕ} {start : List LedgerRow}
variable {w : World (handle ext config) Shared} {lane : ℕ → ℕ}
variable {owned : List (LedgerRow × ℕ)}

/-- While fewer than `n` calls are in flight, some lane is free. -/
theorem Lanes.exists_free (h : inFlight agentId w < n) (lane : ℕ → ℕ) :
    ∃ free < n, ∀ i call, w.calls[i]? = some call →
      InFlightFor agentId call → lane i ≠ free := by
  let busy := (w.calls.zipIdx.filter fun item =>
    InFlightFor agentId item.1).map fun item => lane item.2
  have hbusy : busy.length = inFlight agentId w := by
    have hcalls : w.calls = w.calls.zipIdx.map Prod.fst := by simp
    rw [inFlight, hcalls, List.countP_map]
    simp only [busy, List.length_map, ← List.countP_eq_length_filter]
    simp [Function.comp_def]
  obtain ⟨free, hlt, hfree⟩ := exists_free_lane (hbusy ▸ h)
  refine ⟨free, hlt, fun i call hcall hflight hlane => hfree ?_⟩
  refine List.mem_map.mpr ⟨(call, i), List.mem_filter.mpr ⟨?_, ?_⟩, hlane⟩
  · exact List.mem_zipIdx_iff_getElem?.mpr hcall
  · exact decide_eq_true hflight

/-- A request of the agent takes a free lane. -/
theorem Lanes.arrive (h : Lanes agentId limit n start w lane owned)
    {request : Request}
    (hroom : request.agent ext = some agentId → inFlight agentId w < n) :
    ∃ lane', Lanes agentId limit n start (w.arrive request) lane' owned := by
  obtain ⟨free, hlt, hfree⟩ : ∃ free < n, request.agent ext = some agentId →
      ∀ i call, w.calls[i]? = some call → InFlightFor agentId call →
        lane i ≠ free := by
    by_cases hagent : request.agent ext = some agentId
    · obtain ⟨free, hlt, hfree⟩ := Lanes.exists_free (hroom hagent) lane
      exact ⟨free, hlt, fun _ => hfree⟩
    · exact ⟨lane 0, h.lane_lt 0, fun hagent' => absurd hagent' hagent⟩
  have hold : ∀ i < w.calls.length,
      Function.update lane w.calls.length free i = lane i :=
    fun i hi => Function.update_of_ne (Nat.ne_of_lt hi) _ _
  refine ⟨Function.update lane w.calls.length free, ?_⟩
  exact {
    rows := h.rows
    owned_lt := h.owned_lt
    within := h.within
    lane_lt := by
      intro i
      by_cases hi : i = w.calls.length
      · rwa [hi, Function.update_self]
      · rw [Function.update_of_ne hi]
        exact h.lane_lt i
    apart := by
      intro i j first second hi hj hfirst hsecond hlane
      rcases World.getElem?_arrive_cases hi with ⟨hlt, hi⟩ | ⟨rfl, rfl⟩
      · rcases World.getElem?_arrive_cases hj with ⟨hlt', hj⟩ | ⟨rfl, rfl⟩
        · rw [hold i hlt, hold j hlt'] at hlane
          exact h.apart i j first second hi hj hfirst hsecond hlane
        · rw [hold i hlt, Function.update_self] at hlane
          exact absurd hlane (hfree hsecond.1 i first hi hfirst)
      · rcases World.getElem?_arrive_cases hj with ⟨hlt', hj⟩ | ⟨rfl, rfl⟩
        · rw [hold j hlt', Function.update_self] at hlane
          exact absurd hlane.symm (hfree hfirst.1 j second hj hsecond)
        · rfl
    seen := by
      intro i call snapshot values limit? hi hop hagent
      rcases World.getElem?_arrive_cases hi with ⟨hlt, hi⟩ | ⟨rfl, rfl⟩
      · rw [hold i hlt]
        exact h.seen i call snapshot values limit? hi hop hagent
      · obtain ⟨order, time, hlast⟩ := begin_of_rest hop
        cases hlast }

/-- Time only makes rows older. -/
theorem Lanes.external (h : Lanes agentId limit n start w lane owned)
    (elapsed : Micros) :
    Lanes agentId limit n start
      { w with shared := proxySemantics.external elapsed w.shared } lane
      owned := {
  rows := h.rows
  lane_lt := h.lane_lt
  owned_lt := h.owned_lt
  apart := h.apart
  seen := h.seen
  within := fun k hk =>
    (recentAmount_antitone (Nat.le_add_right _ _)).trans (h.within k hk) }

section Perform

variable {index : ℕ} {call : Call (handle ext config)} {op : Op}
variable {next : Reply op → Handler Response} {outcome : Outcome}

/-- A call in flight after a step was in flight before it. -/
theorem inFlight_of_perform {hrest : call.rest = .call op next}
    (hcall : w.calls[index]? = some call) {k : ℕ}
    {after : Call (handle ext config)}
    (hk : (w.perform proxySemantics index call hrest outcome).calls[k]? =
      some after) (hflight : InFlightFor agentId after) :
    ∃ before, w.calls[k]? = some before ∧ InFlightFor agentId before := by
  rcases World.getElem?_perform_cases hk with ⟨rfl, rfl⟩ | ⟨_, hk⟩
  · exact ⟨call, hcall, hflight.1, by rw [hrest]; rfl⟩
  · exact ⟨after, hk, hflight⟩

/-- A call that waits to insert right after a step began in this step, or
waited already. -/
theorem begun_of_perform {hrest : call.rest = .call op next} {k : ℕ}
    {after : Call (handle ext config)} {snapshot : Snapshot}
    {values : SpendValues} {limit? : Option Int}
    (hk : (w.perform proxySemantics index call hrest outcome).calls[k]? =
      some after)
    (hop : after.rest.op? =
      some (.postgres (.insertSpend snapshot values limit?))) :
    (op = .postgres .beginSpend ∧
        snapshot.rows = w.shared.db.spendLedger.rows) ∨
      (k ≠ index ∧ w.calls[k]? = some after) := by
  rcases World.getElem?_perform_cases hk with ⟨rfl, rfl⟩ | hother
  · left
    obtain ⟨order, time, hlast⟩ := begin_of_rest hop
    simp only [Call.resume_trace, List.getLast?_append, List.getLast?_singleton,
      Option.some_or, Option.some.injEq, Event.mk.injEq] at hlast
    obtain ⟨rfl, hreply, _⟩ := hlast
    refine ⟨rfl, ?_⟩
    rw [perform_beginSpend (eq_of_heq hreply)]
  · exact Or.inr hother

/-- A step that leaves the agent's rows alone. -/
theorem Lanes.perform_quiet (h : Lanes agentId limit n start w lane owned)
    (hrest : call.rest = .call op next)
    (hcall : w.calls[index]? = some call)
    (hsame : ledgerOf agentId (perform op outcome w.shared).2.db.spendLedger.rows
      = ledgerOf agentId w.shared.db.spendLedger.rows) :
    Lanes agentId limit n start
      (w.perform proxySemantics index call hrest outcome) lane owned := {
  rows := hsame.trans h.rows
  lane_lt := h.lane_lt
  owned_lt := h.owned_lt
  apart := by
    intro i j first second hi hj hfirst hsecond
    obtain ⟨first', hi', hfirst'⟩ := inFlight_of_perform hcall hi hfirst
    obtain ⟨second', hj', hsecond'⟩ := inFlight_of_perform hcall hj hsecond
    exact h.apart i j first' second' hi' hj' hfirst' hsecond'
  within := by
    intro k hk
    have hnow : (w.perform proxySemantics index call hrest
        outcome).shared.now = w.shared.now := perform_now op outcome w.shared
    rw [hnow]
    exact h.within k hk
  seen := by
    intro k after snapshot values limit? hk hop hagent
    rcases begun_of_perform hk hop with ⟨_, hrows⟩ | ⟨_, hk⟩
    · rw [hrows, h.rows]
      exact (laneItems_sublist _ _).append_left _
    · exact h.seen k after snapshot values limit? hk hop hagent }

/-- A reservation of the agent puts its row into the lane of its call, whose
rows its snapshot shows. -/
theorem Lanes.perform_insert (h : Lanes agentId limit n start w lane owned)
    {snapshot : Snapshot} {values : SpendValues} {limit? : Option ℤ}
    {hpos : 0 < values.amount}
    {next : Reply (.postgres (.insertSpend snapshot values limit?)) →
      Handler Response}
    (hrest : call.rest = .call _ next) (hcall : w.calls[index]? = some call)
    (hagent : values.agentId = agentId) (hlimit : limit? = some ↑limit)
    (hnow : snapshot.now ≤ w.shared.now)
    (hwithin : Db.withinLimit snapshot values limit? = .ok true)
    (hrows : (perform (.postgres (.insertSpend snapshot values limit?))
      outcome w.shared).2.db.spendLedger.rows =
        w.shared.db.spendLedger.rows ++ [values.row snapshot.now hpos]) :
    Lanes agentId limit n start
      (w.perform proxySemantics index call hrest outcome) lane
      (owned ++ [(values.row snapshot.now hpos, lane index)]) := by
  subst hlimit
  have hop : call.rest.op? = some (.postgres (.insertSpend snapshot values
    (some ↑limit))) := by rw [hrest]; rfl
  have hflight : InFlightFor agentId call :=
    ⟨hagent ▸ agent_of_rest hop, by rw [hop]; rfl⟩
  exact {
    lane_lt := h.lane_lt
    rows := by
      have hmine : ledgerOf agentId [values.row snapshot.now hpos] =
          [values.row snapshot.now hpos] :=
        List.filter_eq_self.mpr (by simp [SpendValues.row, hagent])
      have hsplit : ledgerOf agentId (w.shared.db.spendLedger.rows ++
          [values.row snapshot.now hpos]) =
            ledgerOf agentId w.shared.db.spendLedger.rows ++
              ledgerOf agentId [values.row snapshot.now hpos] :=
        List.filter_append ..
      rw [World.perform, proxySemantics_perform, hrows, hsplit, hmine, h.rows]
      simp
    owned_lt := by
      intro item hitem
      rcases List.mem_append.mp hitem with hitem | hitem
      · exact h.owned_lt item hitem
      · rw [List.mem_singleton] at hitem
        rw [hitem]
        exact h.lane_lt index
    apart := by
      intro i j first second hi hj hfirst hsecond
      obtain ⟨first', hi', hfirst'⟩ := inFlight_of_perform hcall hi hfirst
      obtain ⟨second', hj', hsecond'⟩ := inFlight_of_perform hcall hj hsecond
      exact h.apart i j first' second' hi' hj' hfirst' hsecond'
    within := by
      intro k hk
      have htime : (w.perform proxySemantics index call hrest
          outcome).shared.now = w.shared.now := perform_now _ outcome w.shared
      rw [htime, laneItems_snoc]
      split
      · rename_i hlane
        subst hlane
        have hseen := h.seen index call snapshot values _ hcall hop hagent
        have hle := Db.withinLimit_le hwithin
        rw [hagent] at hle
        calc recentAmount w.shared.now (start ++ (laneItems (lane index)
              owned ++ [values.row snapshot.now hpos]))
            ≤ recentAmount w.shared.now
                (start ++ laneItems (lane index) owned) + values.amount := by
              rw [← List.append_assoc]
              exact SlidingWindow.recentSum_snoc_le _ _ (Int.le_of_lt hpos)
          _ ≤ recentAmount w.shared.now (ledgerOf agentId snapshot.rows) +
                values.amount :=
              Int.add_le_add_right (recentAmount_mono hseen) _
          _ ≤ recentAmount snapshot.now (ledgerOf agentId snapshot.rows) +
                values.amount :=
              Int.add_le_add_right (recentAmount_antitone hnow) _
          _ ≤ limit := hle
      · rw [List.append_nil]
        exact h.within k hk
    seen := by
      intro k after snapshot' values' limit? hk hop' hagent'
      rcases begun_of_perform hk hop' with ⟨hbegin, _⟩ | ⟨hne, hk⟩
      · cases hbegin
      · -- the other call has another lane
        have hflight' : InFlightFor agentId after :=
          ⟨hagent' ▸ agent_of_rest hop', by rw [hop']; rfl⟩
        have hlane : lane index ≠ lane k := fun heq =>
          hne (h.apart index k call after hcall hk hflight hflight' heq).symm
        rw [laneItems_snoc, if_neg hlane, List.append_nil]
        exact h.seen k after snapshot' values' limit? hk hop' hagent' }

end Perform

/-- All rows together are within the limit of every lane. -/
theorem Lanes.spentLast24h_le (h : Lanes agentId limit n start w lane owned)
    (hn : 0 < n) :
    spentLast24h agentId w.shared.now w.shared.db.spendLedger.rows ≤
      n * limit := by
  have hnonneg : 0 ≤ recentAmount w.shared.now start :=
    recentAmount_mono (List.nil_sublist start)
  have hlanes : recentAmount w.shared.now (owned.map Prod.fst) =
      ∑ k ∈ Finset.range n, recentAmount w.shared.now (laneItems k owned) :=
    sum_laneItems rfl (fun _ _ => SlidingWindow.recentSum_append ..) h.owned_lt
  calc spentLast24h agentId w.shared.now w.shared.db.spendLedger.rows
      = recentAmount w.shared.now start +
          ∑ k ∈ Finset.range n,
            recentAmount w.shared.now (laneItems k owned) := by
        rw [spentLast24h_eq, h.rows, ← hlanes]
        exact SlidingWindow.recentSum_append ..
    _ ≤ n * recentAmount w.shared.now start +
          ∑ k ∈ Finset.range n,
            recentAmount w.shared.now (laneItems k owned) := by
        have hone : (1 : ℤ) ≤ n := by exact_mod_cast hn
        have hle := mul_le_mul_of_nonneg_right hone hnonneg
        rw [one_mul] at hle
        exact Int.add_le_add_right hle _
    _ = ∑ k ∈ Finset.range n,
          recentAmount w.shared.now (start ++ laneItems k owned) := by
        have hsplit : ∀ k, recentAmount w.shared.now
            (start ++ laneItems k owned) = recentAmount w.shared.now start +
              recentAmount w.shared.now (laneItems k owned) :=
          fun k => SlidingWindow.recentSum_append ..
        simp only [hsplit, Finset.sum_add_distrib, Finset.sum_const,
          Finset.card_range, nsmul_eq_mul]
    _ ≤ ∑ _k ∈ Finset.range n, (limit : ℤ) :=
        Finset.sum_le_sum fun k hk => h.within k (Finset.mem_range.mp hk)
    _ = n * limit := by simp

end Step

/-- While at most `n` requests of the agent are in flight, what was reserved
for it in the last 24 hours is within `n` times its daily limit. -/
theorem dailyCap_of_atMostInFlight (s₀ : Shared) {agentId : Uuid}
    {limit n : ℕ} (hn : 0 < n) (hlimit : s₀.db.DailyLimit agentId limit)
    (hstart : spentLast24h agentId s₀.now s₀.db.spendLedger.rows ≤ limit)
    {w : World (handle ext config) Shared}
    (run : Run (World.step proxySemantics)
      (AtMostInFlight ext config agentId n)
      (World.start (handle ext config) s₀) w) :
    spentLast24h agentId w.shared.now w.shared.db.spendLedger.rows ≤
      n * limit := by
  have hforwards : ForwardsOnly (AtMostInFlight ext config agentId n) :=
    fun _ _ h => h.1
  suffices h : ∃ lane owned, Lanes agentId limit n
      (ledgerOf agentId s₀.db.spendLedger.rows) w lane owned by
    obtain ⟨lane, owned, h⟩ := h
    exact h.spentLast24h_le hn
  refine World.reachable_invariant (I := fun w => ∃ lane owned,
    Lanes agentId limit n (ledgerOf agentId s₀.db.spendLedger.rows) w lane
      owned) run ?_ ?_ ?_ ?_
  · refine ⟨fun _ => 0, [], ?_⟩
    exact {
      rows := (List.append_nil _).symm
      lane_lt := fun _ => hn
      owned_lt := by simp
      apart := by simp [World.start]
      within := fun k _ => by
        simpa [laneItems, spentLast24h_eq, World.start] using hstart
      seen := by simp [World.start] }
  · rintro w request _ ⟨lane, owned, h⟩ ⟨_, hroom⟩
    obtain ⟨lane', h'⟩ := h.arrive hroom
    exact ⟨lane', owned, h'⟩
  · rintro w elapsed _ ⟨lane, owned, h⟩ _
    exact ⟨lane, owned, h.external elapsed⟩
  · rintro w index call op next outcome hrest hcall hrun ⟨lane, owned, h⟩ _
    rcases perform_spendLedger op outcome w.shared with
      hsame | ⟨snapshot, values, limit?, hpos, rfl, hwithin, hrows⟩
    · refine ⟨lane, owned, h.perform_quiet hrest hcall ?_⟩
      rw [hsame]
    by_cases hagent : values.agentId = agentId
    · -- a reservation of the agent: its limit and its snapshot
      have hmem : call ∈ w.calls := List.mem_of_getElem? hcall
      obtain ⟨rows, rules, ⟨order, time, hread⟩, hrules, hlimit?, ⟨order',
        time', hbegin⟩⟩ := insertSpend_of_rest hrest
      have hselected := selectedRules_of_forwardsOnly hforwards hrun rfl
        (World.mem_events hmem hread)
      obtain ⟨active, hactive, hsingle⟩ := hlimit
      rw [hselected, hagent] at hrules
      have hextract : extractDailyLimit rules = some limit := by
        have heq : active = rules := Except.ok.inj (hactive.symm.trans hrules)
        exact extractDailyLimit_of_single (heq ▸ hsingle)
      rw [hextract, Option.map_some] at hlimit?
      exact ⟨lane, _, h.perform_insert hrest hcall hagent hlimit?
        (snapshot_now_le hrun (World.events_start s₀)
          (World.mem_events hmem hbegin)) hwithin hrows⟩
    · refine ⟨lane, owned, h.perform_quiet hrest hcall ?_⟩
      rw [hrows, ledgerOf, List.filter_append]
      simp [SpendValues.row, hagent, ledgerOf]

namespace Sample

/-- The agent with a daily limit of 60 USDC. -/
def sixtyWorld : World (handle externals Sample.config) Shared :=
  world (some (.maxSpendPerDay 60_000_000)) none

theorem sixtyWorld_dailyLimit :
    sixtyWorld.shared.db.DailyLimit agentId 60_000_000 := by
  refine ⟨[⟨ruleId, agentId, .maxSpendPerDay 60_000_000, true⟩], rfl, ?_⟩
  intro other
  constructor
  · rintro ⟨rule, hrule, _, htype⟩
    rw [List.mem_singleton] at hrule
    subst hrule
    cases htype
    rfl
  · rintro rfl
    exact ⟨_, List.mem_singleton_self _, rfl, rfl⟩

/-- The requests of the agent that have not ended. -/
def unfinished (r : Replayed) : ℕ :=
  r.threads.countP fun thread =>
    decide (thread.request.agent externals = some agentId) &&
      thread.rest.op?.isSome

theorem unfinished_toReplay
    (w : World (handle externals Sample.config) Shared) :
    unfinished w.toReplay = inFlight agentId w := by
  rw [unfinished, inFlight, World.toReplay, List.countP_map]
  congr 1
  funext call
  rw [Function.comp_apply, Bool.eq_iff_iff, Bool.and_eq_true,
    decide_eq_true_eq, decide_eq_true_eq]
  rfl

end Sample

/-- Two clients reach twice the limit, and no more. -/
theorem dailyCap_attained : ∃ w,
    Run (World.step proxySemantics)
      (AtMostInFlight Sample.externals Sample.config Sample.agentId 2)
      Sample.sixtyWorld w ∧
    spentLast24h Sample.agentId w.shared.now
      w.shared.db.spendLedger.rows = 120_000_000 ∧
    spentLast24h Sample.agentId w.shared.now
      w.shared.db.spendLedger.rows ≤ (2 : ℕ) * (60_000_000 : ℕ) := by
  have hrun : ∃ w, Run (World.step proxySemantics)
      (AtMostInFlight Sample.externals Sample.config Sample.agentId 2)
      Sample.sixtyWorld w ∧
      spentLast24h Sample.agentId w.toReplay.shared.now
        w.toReplay.shared.db.spendLedger.rows = 120_000_000 ∧
      w.calls.map Call.request =
        [.forwardRequest (Sample.request .first true false),
          .forwardRequest (Sample.request .second true false)] := by
    refine World.exists_run_of_replay (fun r : Sample.Replayed =>
        spentLast24h Sample.agentId r.shared.now r.shared.db.spendLedger.rows)
      (fun r => Sample.arriving fun request => request.forwards.isSome &&
        decide (Sample.unfinished r < 2)) ?_
      ([.arrive (.forwardRequest (Sample.request .first true false)),
        .arrive (.forwardRequest (Sample.request .second true false))] ++
        (Sample.advance 0 12 ++ (Sample.advance 1 12 ++
          (Sample.advance 0 1 ++ Sample.advance 1 1)))) ?_
    · intro w action hok
      cases action with
      | arrive request =>
          simp only [Sample.arriving, Action.withProgram, Bool.and_eq_true,
            decide_eq_true_eq, Sample.unfinished_toReplay] at hok
          exact ⟨hok.1, fun _ => hok.2⟩
      | _ => trivial
    · simp only [List.map_append, List.map_cons, List.map_nil,
        Sample.withProgram_forward, Sample.map_advance]
      decide
  obtain ⟨w, run, hspent, _⟩ := hrun
  exact ⟨w, run, hspent, dailyCap_of_atMostInFlight _ (by decide)
    Sample.sixtyWorld_dailyLimit (by decide) run⟩

end X402Guard

/-
The writer of the audit log.  Handlers send their events over an unbounded
channel; one task receives them in batches and inserts a batch event by event,
up to the first one that fails.
-/
import X402Guard.ProxySystem

namespace X402Guard

open Interaction

/-- `AuditEventType::as_str`. -/
def AuditEventType.asStr : AuditEventType → String
  | .proxyRequestReceived => "proxy_request_received"
  | .proxyRequestForwarded => "proxy_request_forwarded"
  | .proxyRequestFailed => "proxy_request_failed"
  | .guardrailViolation => "guardrail_violation"
  | .sessionKeyCreated => "session_key_created"
  | .sessionKeyUsed => "session_key_used"
  | .sessionKeyRevoked => "session_key_revoked"
  | .allSessionKeysRevoked => "all_session_keys_revoked"
  | .agentCreated => "agent_created"
  | .agentDeactivated => "agent_deactivated"
  | .solanaVaultQueried => "solana_vault_queried"
  | .solanaWithdrawSubmitted => "solana_withdraw_submitted"
  | .solanaWithdrawConfirmed => "solana_withdraw_confirmed"
  | .solanaWithdrawFailed => "solana_withdraw_failed"

/-- What `audit_log_event_type_check` lists. -/
def auditLogEventTypes : List String :=
  ["proxy_request_received", "proxy_request_forwarded", "proxy_request_failed",
    "guardrail_violation", "session_key_created", "session_key_used",
    "session_key_revoked", "all_session_keys_revoked", "agent_created",
    "agent_deactivated", "solana_vault_queried", "solana_withdraw_submitted",
    "solana_withdraw_confirmed", "solana_withdraw_failed"]

/-- Every event type is in step with the constraint. -/
theorem AuditEventType.asStr_listed (eventType : AuditEventType) :
    eventType.asStr ∈ auditLogEventTypes := by
  cases eventType <;> decide

/-- A row of `audit_log`; its CHECK constraint is part of it. -/
structure AuditRow where
  agentId : Option Uuid
  sessionKeyId : Option Uuid
  eventType : String
  metadata : Value
  eventType_listed : eventType ∈ auditLogEventTypes

/-- An event that was sent to the writer, with what its INSERT will meet: the
database of that moment, and whether it fails for a reason of its own, such as
a lost connection. -/
structure Emission where
  event : AuditEvent
  db : Db
  fails : Bool

/-- Its foreign keys exist. -/
def Emission.References (emission : Emission) : Prop :=
  (∀ id ∈ emission.event.agentId, emission.db.agents.HasKey id) ∧
    ∀ id ∈ emission.event.sessionKeyId, emission.db.sessionKeys.HasKey id

instance (emission : Emission) : Decidable emission.References :=
  inferInstanceAs (Decidable (_ ∧ _))

/-- Insert a single audit event into the immutable audit log. -/
def insertEvent (emission : Emission) : Except DbError AuditRow :=
  if emission.fails then .error .connection
  else if h : emission.event.eventType.asStr ∈ auditLogEventTypes then
    if emission.References then
      .ok ⟨emission.event.agentId, emission.event.sessionKeyId,
        emission.event.eventType.asStr, emission.event.metadata, h⟩
    else .error .foreignKeyViolation
  else .error .checkViolation

/-- The row of an event whose own INSERT succeeds. -/
def Emission.row? (emission : Emission) : Option AuditRow :=
  (insertEvent emission).toOption

/-- An INSERT succeeds unless it fails on its own or a foreign key is
missing. -/
theorem Emission.row?_isSome_iff (emission : Emission) :
    emission.row?.isSome = true ↔
      emission.fails = false ∧ emission.References := by
  unfold row? insertEvent
  by_cases hfails : emission.fails = true
  · simp [hfails, Except.toOption]
  · by_cases hreferences : emission.References
    · simp [hfails, hreferences, AuditEventType.asStr_listed, Except.toOption]
    · simp [hfails, hreferences, AuditEventType.asStr_listed, Except.toOption]

/-- Maximum number of events to drain from the channel per batch. -/
def maxBatchSize : Nat := 64

/-- Where `writer_loop` is: at `recv`, at the `try_recv` of its inner loop with
the batch so far, in `insert_batch` with what is left of the batch, or at its
end. -/
inductive Phase
  | receiving
  | draining (batch : List Emission)
  | inserting (left : List Emission)
  | stopped

/-- The channel and the loop that reads it, and the rows of the audit log. -/
structure Writer where
  queue : List Emission
  sendersDropped : Bool
  phase : Phase
  rows : List AuditRow

/-- A writer just spawned over a log with the given rows. -/
def Writer.start (rows : List AuditRow) : Writer :=
  ⟨[], false, .receiving, rows⟩

inductive WriterAction
  | emit (emission : Emission)
  | dropSenders
  | recv
  | tryRecv
  /-- The next event of the batch, or the end of `insert_batch`. -/
  | insert

namespace Writer

/-- `recv` waits for an event; it ends the loop when the channel is closed. -/
def recv (w : Writer) : Option Writer :=
  match w.queue with
  | first :: rest => some { w with queue := rest, phase := .draining [first] }
  | [] => if w.sendersDropped then some { w with phase := .stopped } else none

/-- Drain up to `maxBatchSize - 1` more events without blocking. -/
def tryRecv (w : Writer) (batch : List Emission) : Writer :=
  if batch.length < maxBatchSize then
    match w.queue with
    | event :: rest =>
        { w with queue := rest, phase := .draining (batch ++ [event]) }
    | [] => { w with phase := .inserting batch }
  else { w with phase := .inserting batch }

/-- One round of `insert_batch`: a failing INSERT ends the batch. -/
def insert (w : Writer) : List Emission → Writer
  | [] => { w with phase := .receiving }
  | emission :: rest =>
      match insertEvent emission with
      | .ok row =>
          { w with phase := .inserting rest, rows := w.rows ++ [row] }
      | .error _ => { w with phase := .receiving }

def step (w : Writer) : WriterAction → Option Writer
  | .emit emission =>
      if w.sendersDropped then none
      else some { w with queue := w.queue ++ [emission] }
  | .dropSenders => some { w with sendersDropped := true }
  | .recv =>
      match w.phase with
      | .receiving => w.recv
      | _ => none
  | .tryRecv =>
      match w.phase with
      | .draining batch => some (w.tryRecv batch)
      | _ => none
  | .insert =>
      match w.phase with
      | .inserting left => some (w.insert left)
      | _ => none

end Writer

/-- The event that an action sends, if it sends one. -/
def WriterAction.emission? : WriterAction → Option Emission
  | .emit emission => some emission
  | _ => none

/-- The events that the steps send, in their order. -/
def emissions (steps : List (Taken Writer WriterAction)) : List Emission :=
  steps.filterMap fun taken => taken.action.emission?

/-- The events of the batch that are still to be inserted. -/
def Phase.batch : Phase → List Emission
  | .draining batch => batch
  | .inserting left => left
  | _ => []

/-- How far a phase is from the next `recv`. -/
def Phase.rank : Phase → Nat
  | .stopped => 0
  | .receiving => 1
  | .inserting _ => 2
  | .draining _ => 3

namespace Writer

/-- The events that the writer has not come to yet. -/
def pending (w : Writer) : List Emission := w.phase.batch ++ w.queue

/-- The log has grown by the events the writer is done with whose own INSERT
succeeds, once each and in the order they were sent. -/
def Persisted (rows : List AuditRow) (emitted : List Emission) (w : Writer) :
    Prop :=
  ∃ handled, emitted = handled ++ w.pending ∧
    w.rows = rows ++ handled.filterMap Emission.row?

/-- After an INSERT that fails, the batch has no event whose own INSERT would
succeed. -/
def Spares (w : Writer) (action : WriterAction) : Prop :=
  action = .insert → ∀ emission rest, w.phase.batch = emission :: rest →
    emission.row? = none → ∀ later ∈ rest, later.row? = none

/-- The steps that can be taken, and what they leave. -/
inductive Took (w : Writer) : WriterAction → Writer → Prop
  | emit (emission : Emission) (hopen : ¬ w.sendersDropped = true) :
      Took w (.emit emission) { w with queue := w.queue ++ [emission] }
  | dropSenders : Took w .dropSenders { w with sendersDropped := true }
  | recv {first : Emission} {rest : List Emission}
      (hphase : w.phase = .receiving) (hqueue : w.queue = first :: rest) :
      Took w .recv { w with queue := rest, phase := .draining [first] }
  | stop (hphase : w.phase = .receiving) (hqueue : w.queue = [])
      (hclosed : w.sendersDropped = true) :
      Took w .recv { w with phase := .stopped }
  | tryRecv {batch : List Emission} (hphase : w.phase = .draining batch) :
      Took w .tryRecv (w.tryRecv batch)
  | insert {left : List Emission} (hphase : w.phase = .inserting left) :
      Took w .insert (w.insert left)

theorem step_took {w w' : Writer} {action : WriterAction}
    (h : w.step action = some w') : Took w action w' := by
  cases action with
  | emit emission =>
      simp only [step] at h
      split at h
      · cases h
      · rename_i hopen
        cases h
        exact .emit emission hopen
  | dropSenders =>
      cases h
      exact .dropSenders
  | recv =>
      simp only [step, Writer.recv] at h
      split at h
      · rename_i hphase
        split at h
        · rename_i first rest hqueue
          cases h
          exact .recv hphase hqueue
        · rename_i hqueue
          split at h
          · rename_i hclosed
            cases h
            exact .stop hphase hqueue hclosed
          · cases h
      · cases h
  | tryRecv =>
      simp only [step] at h
      split at h
      · rename_i batch hphase
        cases h
        exact .tryRecv hphase
      · cases h
  | insert =>
      simp only [step] at h
      split at h
      · rename_i left hphase
        cases h
        exact .insert hphase
      · cases h

/-- What a step does to the log and to the events still to come. -/
inductive Effect (w w' : Writer) : WriterAction → Prop
  | sent (emission : Emission) (hrows : w'.rows = w.rows)
      (hpending : w'.pending = w.pending ++ [emission]) :
      Effect w w' (.emit emission)
  | moved {action : WriterAction} (hnone : action.emission? = none)
      (hrows : w'.rows = w.rows) (hpending : w'.pending = w.pending)
      (hspares : w.Spares action) : Effect w w' action
  | inserted {emission : Emission} {rest : List Emission} {row : AuditRow}
      (hbatch : w.phase.batch = emission :: rest)
      (hrow : emission.row? = some row) (hrows : w'.rows = w.rows ++ [row])
      (hpending : w.pending = emission :: w'.pending) : Effect w w' .insert
  | failed {emission : Emission} {rest : List Emission}
      (hbatch : w.phase.batch = emission :: rest)
      (hrow : emission.row? = none) (hrows : w'.rows = w.rows)
      (hpending : w.pending = emission :: (rest ++ w'.pending)) :
      Effect w w' .insert

theorem spares_of_ne {w : Writer} {action : WriterAction}
    (h : action ≠ .insert) : w.Spares action :=
  fun heq => absurd heq h

theorem tryRecv_effect {w : Writer} {batch : List Emission}
    (hphase : w.phase = .draining batch) :
    Effect w (w.tryRecv batch) .tryRecv := by
  have hspares : w.Spares .tryRecv := spares_of_ne fun heq => by cases heq
  have hbatch : w.pending = batch ++ w.queue := by
    rw [pending, hphase]
    rfl
  unfold tryRecv
  split
  · split
    · rename_i event rest hqueue
      refine .moved rfl rfl ?_ hspares
      rw [hbatch, hqueue]
      exact (List.append_cons batch event rest).symm
    · exact .moved rfl rfl hbatch.symm hspares
  · exact .moved rfl rfl hbatch.symm hspares

theorem insert_effect {w : Writer} {left : List Emission}
    (hphase : w.phase = .inserting left) :
    Effect w (w.insert left) .insert := by
  have hbatch : w.phase.batch = left := by rw [hphase]; rfl
  cases left with
  | nil =>
      have hspares : w.Spares .insert := by
        intro _ emission rest hcons
        rw [hbatch] at hcons
        cases hcons
      refine .moved rfl rfl ?_ hspares
      rw [pending, pending, hbatch]
      rfl
  | cons emission rest =>
      cases hinsert : insertEvent emission with
      | ok row =>
          have hrow : emission.row? = some row := by
            rw [Emission.row?, hinsert]
            rfl
          simp only [insert, hinsert]
          refine .inserted hbatch hrow rfl ?_
          rw [pending, hbatch]
          rfl
      | error error =>
          have hrow : emission.row? = none := by
            rw [Emission.row?, hinsert]
            rfl
          simp only [insert, hinsert]
          refine .failed hbatch hrow rfl ?_
          rw [pending, hbatch]
          rfl

/-- Every step has one of these effects. -/
theorem step_effect {w w' : Writer} {action : WriterAction}
    (h : w.step action = some w') : Effect w w' action := by
  cases step_took h with
  | emit emission => exact .sent emission rfl (List.append_assoc _ _ _).symm
  | dropSenders =>
      exact .moved rfl rfl rfl (spares_of_ne fun heq => by cases heq)
  | recv hphase hqueue =>
      refine .moved rfl rfl ?_ (spares_of_ne fun heq => by cases heq)
      rw [pending, pending, hphase, hqueue]
      rfl
  | stop hphase =>
      refine .moved rfl rfl ?_ (spares_of_ne fun heq => by cases heq)
      rw [pending, pending, hphase]
      rfl
  | tryRecv hphase => exact tryRecv_effect hphase
  | insert hphase => exact insert_effect hphase

/-- The log has grown by some of the events that the writer is done with whose
own INSERT succeeds, and by all of them exactly when every step of the run
spares its batch. -/
structure Accounted (rows : List AuditRow)
    (steps : List (Taken Writer WriterAction)) (w : Writer)
    (handled : List Emission) (kept : List AuditRow) : Prop where
  emitted : emissions steps = handled ++ w.pending
  rows_eq : w.rows = rows ++ kept
  sublist : kept.Sublist (handled.filterMap Emission.row?)
  all_iff : kept = handled.filterMap Emission.row? ↔
    ∀ taken ∈ steps, taken.before.Spares taken.action

theorem emissions_snoc (steps : List (Taken Writer WriterAction))
    (w w' : Writer) (action : WriterAction) :
    emissions (steps ++ [⟨w, action, w'⟩]) =
      emissions steps ++ action.emission?.toList := by
  unfold emissions
  rw [List.filterMap_append]
  cases haction : action.emission? <;> simp [haction]

theorem forall_snoc_iff {P : Taken Writer WriterAction → Prop}
    {steps : List (Taken Writer WriterAction)}
    {last : Taken Writer WriterAction} :
    (∀ taken ∈ steps ++ [last], P taken) ↔
      (∀ taken ∈ steps, P taken) ∧ P last := by
  simp only [List.forall_mem_append, List.forall_mem_singleton]

/-- A failed INSERT loses the events behind it in the batch. -/
theorem kept_eq_append_iff {kept before lost : List AuditRow}
    (h : kept.Sublist before) :
    kept = before ++ lost ↔ kept = before ∧ lost = [] := by
  constructor
  · intro heq
    have hle := h.length_le
    rw [heq, List.length_append] at hle
    have hlost : lost = [] := List.length_eq_zero_iff.mp (by omega)
    rw [hlost, List.append_nil] at heq
    exact ⟨heq, hlost⟩
  · rintro ⟨rfl, rfl⟩
    exact (List.append_nil _).symm

theorem Accounted.step {rows : List AuditRow}
    {steps : List (Taken Writer WriterAction)} {w w' : Writer}
    {action : WriterAction} {handled : List Emission} {kept : List AuditRow}
    (h : Accounted rows steps w handled kept) (heffect : Effect w w' action) :
    ∃ handled' kept', Accounted rows (steps ++ [⟨w, action, w'⟩]) w'
      handled' kept' := by
  obtain ⟨hemitted, hrows, hsublist, hall⟩ := h
  cases heffect with
  | sent emission hsame hpending =>
      refine ⟨handled, kept, ?_, hsame.trans hrows, hsublist, ?_⟩
      · rw [emissions_snoc, hemitted, hpending, List.append_assoc]
        rfl
      · rw [forall_snoc_iff, hall]
        exact (and_iff_left (spares_of_ne fun heq => by cases heq)).symm
  | moved hnone hsame hpending hspares =>
      refine ⟨handled, kept, ?_, hsame.trans hrows, hsublist, ?_⟩
      · rw [emissions_snoc, hnone, hemitted, hpending]
        exact List.append_nil _
      · rw [forall_snoc_iff, hall]
        exact (and_iff_left hspares).symm
  | @inserted emission rest row hbatch hrow hadded hpending =>
      have hvalues : (handled ++ [emission]).filterMap Emission.row? =
          handled.filterMap Emission.row? ++ [row] := by
        rw [List.filterMap_append, List.filterMap_cons, hrow]
        rfl
      have hspares : w.Spares .insert := by
        intro _ emission' rest' hbatch' hrow'
        rw [hbatch] at hbatch'
        cases hbatch'
        rw [hrow] at hrow'
        cases hrow'
      refine ⟨handled ++ [emission], kept ++ [row], ?_, ?_, ?_, ?_⟩
      · rw [emissions_snoc, hemitted, hpending, List.append_cons]
        exact List.append_nil _
      · rw [hadded, hrows, List.append_assoc]
      · rw [hvalues]
        exact hsublist.append (List.Sublist.refl [row])
      · rw [hvalues, List.append_cancel_right_eq, hall, forall_snoc_iff]
        exact (and_iff_left hspares).symm
  | @failed emission rest hbatch hrow hsame hpending =>
      have hvalues : (handled ++ emission :: rest).filterMap Emission.row? =
          handled.filterMap Emission.row? ++ rest.filterMap Emission.row? := by
        rw [List.filterMap_append, List.filterMap_cons, hrow]
      have hspares : rest.filterMap Emission.row? = [] ↔
          w.Spares .insert := by
        rw [List.filterMap_eq_nil_iff]
        constructor
        · intro hnone _ emission' rest' hbatch' _
          rw [hbatch] at hbatch'
          cases hbatch'
          exact hnone
        · intro hspared
          exact hspared rfl emission rest hbatch hrow
      refine ⟨handled ++ emission :: rest, kept, ?_, hsame.trans hrows, ?_, ?_⟩
      · rw [emissions_snoc, hemitted, hpending]
        simp [WriterAction.emission?]
      · rw [hvalues]
        exact hsublist.trans (List.sublist_append_left _ _)
      · rw [hvalues, kept_eq_append_iff hsublist, hall, hspares,
          forall_snoc_iff]

/-- Over any run of the writer, by its steps. -/
theorem accounted {rows : List AuditRow}
    {steps : List (Taken Writer WriterAction)} {w : Writer}
    (trail : Trail step (start rows) steps w) :
    ∃ handled kept, Accounted rows steps w handled kept := by
  induction trail with
  | nil =>
      exact ⟨[], [], rfl, (List.append_nil _).symm, List.Sublist.refl [],
        by simp⟩
  | snoc trail taken ih =>
      obtain ⟨handled, kept, haccounted⟩ := ih
      exact haccounted.step (step_effect taken)

/-- Nothing else is ever in the log: it grows by events whose own INSERT
succeeds, once each and in the order they were sent. -/
theorem rows_sublist {rows : List AuditRow}
    {steps : List (Taken Writer WriterAction)} {w : Writer}
    (trail : Trail step (start rows) steps w) :
    ∃ kept, w.rows = rows ++ kept ∧
      kept.Sublist ((emissions steps).filterMap Emission.row?) := by
  obtain ⟨handled, kept, hemitted, hrows, hsublist, _⟩ := accounted trail
  refine ⟨kept, hrows, ?_⟩
  rw [hemitted, List.filterMap_append]
  exact hsublist.trans (List.sublist_append_left _ _)

/-- Once nothing is left to come, the log is what it should be as a whole. -/
theorem persisted_iff_of_pending {rows : List AuditRow}
    {emitted : List Emission} {w : Writer} (h : w.pending = []) :
    w.Persisted rows emitted ↔
      w.rows = rows ++ emitted.filterMap Emission.row? := by
  unfold Persisted
  rw [h]
  simp

theorem tryRecv_batch_le {w : Writer} {batch : List Emission}
    (h : batch.length ≤ maxBatchSize) :
    (w.tryRecv batch).phase.batch.length ≤ maxBatchSize := by
  unfold tryRecv
  split
  · rename_i hroom
    split
    · simp only [Phase.batch, List.length_append, List.length_singleton]
      exact hroom
    · exact h
  · exact h

theorem insert_batch_le {w : Writer} {left : List Emission}
    (h : left.length ≤ maxBatchSize) :
    (w.insert left).phase.batch.length ≤ maxBatchSize := by
  cases left with
  | nil => exact Nat.zero_le _
  | cons emission rest =>
      simp only [insert]
      split
      · exact Nat.le_of_succ_le h
      · exact Nat.zero_le _

/-- No batch is longer than `maxBatchSize`. -/
theorem batch_le {rows : List AuditRow}
    {steps : List (Taken Writer WriterAction)} {w : Writer}
    (trail : Trail step (start rows) steps w) :
    w.phase.batch.length ≤ maxBatchSize := by
  have hone : 1 ≤ maxBatchSize := by decide
  induction trail with
  | nil => exact Nat.zero_le _
  | snoc trail taken ih =>
      cases step_took taken with
      | emit => exact ih
      | dropSenders => exact ih
      | recv => exact hone
      | stop => exact Nat.zero_le _
      | tryRecv hphase =>
          rw [hphase] at ih
          exact tryRecv_batch_le ih
      | insert hphase =>
          rw [hphase] at ih
          exact insert_batch_le ih

/-- What the writer has left to do, with every event of the queue to be drained
and then inserted. -/
def work (w : Writer) : Nat :=
  4 * w.queue.length + w.phase.batch.length + w.phase.rank

theorem tryRecv_work {w : Writer} {batch : List Emission}
    (hphase : w.phase = .draining batch) :
    (w.tryRecv batch).work < w.work ∧
      (w.tryRecv batch).phase ≠ .stopped := by
  unfold work tryRecv
  rw [hphase]
  split
  · split
    · rename_i event rest hqueue
      rw [hqueue]
      simp only [Phase.batch, Phase.rank, List.length_cons,
        List.length_append, List.length_nil]
      exact ⟨by omega, fun heq => by cases heq⟩
    · exact ⟨Nat.lt_succ_self _, fun heq => by cases heq⟩
  · exact ⟨Nat.lt_succ_self _, fun heq => by cases heq⟩

theorem insert_work {w : Writer} {left : List Emission}
    (hphase : w.phase = .inserting left) :
    (w.insert left).work < w.work ∧ (w.insert left).phase ≠ .stopped := by
  unfold work
  rw [hphase]
  cases left with
  | nil => exact ⟨Nat.lt_succ_self _, fun heq => by cases heq⟩
  | cons emission rest =>
      simp only [insert]
      split
      · simp only [Phase.batch, Phase.rank, List.length_cons]
        exact ⟨by omega, fun heq => by cases heq⟩
      · simp only [Phase.batch, Phase.rank, List.length_cons, List.length_nil]
        exact ⟨by omega, fun heq => by cases heq⟩

/-- A step of the writer itself brings it closer to an empty channel. -/
theorem exists_step {w : Writer} (hstopped : w.phase = .stopped → w.queue = [])
    (hpending : w.pending ≠ []) :
    ∃ action w', w.step action = some w' ∧ action.emission? = none ∧
      w'.work < w.work ∧ w'.phase ≠ .stopped := by
  cases hphase : w.phase with
  | receiving =>
      cases hqueue : w.queue with
      | nil => simp [pending, hphase, hqueue, Phase.batch] at hpending
      | cons first rest =>
          refine ⟨.recv, { w with queue := rest, phase := .draining [first] },
            ?_, rfl, ?_, fun heq => by cases heq⟩
          · simp only [step, hphase, recv, hqueue]
          · simp only [work, hphase, hqueue, Phase.batch, Phase.rank,
              List.length_cons, List.length_nil]
            omega
  | draining batch =>
      obtain ⟨hless, hrunning⟩ := tryRecv_work hphase
      refine ⟨.tryRecv, w.tryRecv batch, ?_, rfl, hless, hrunning⟩
      simp only [step, hphase]
  | inserting left =>
      obtain ⟨hless, hrunning⟩ := insert_work hphase
      refine ⟨.insert, w.insert left, ?_, rfl, hless, hrunning⟩
      simp only [step, hphase]
  | stopped => simp [pending, hphase, hstopped hphase, Phase.batch] at hpending

/-- The loop ends only when the channel is closed and empty. -/
theorem stopped_empty {rows : List AuditRow}
    {steps : List (Taken Writer WriterAction)} {w : Writer}
    (trail : Trail step (start rows) steps w) :
    w.phase = .stopped → w.sendersDropped = true ∧ w.queue = [] := by
  induction trail with
  | nil => exact fun heq => by cases heq
  | snoc trail taken ih =>
      intro hstopped
      cases step_took taken with
      | emit emission hopen => exact absurd (ih hstopped).1 hopen
      | dropSenders => exact ⟨rfl, (ih hstopped).2⟩
      | recv => cases hstopped
      | stop _ hqueue hclosed => exact ⟨hclosed, hqueue⟩
      | tryRecv hphase => exact absurd hstopped (tryRecv_work hphase).2
      | insert hphase => exact absurd hstopped (insert_work hphase).2

/-- Once no more events are sent, the writer comes to the end of the
channel. -/
theorem settles {w : Writer} (hstopped : w.phase = .stopped → w.queue = []) :
    ∃ steps w', Trail step w steps w' ∧ emissions steps = [] ∧
      w'.pending = [] := by
  induction hwork : w.work using Nat.strong_induction_on generalizing w with
  | _ n ih =>
      by_cases hpending : w.pending = []
      · exact ⟨[], w, .nil w, rfl, hpending⟩
      · obtain ⟨action, w', taken, hnone, hless, hrunning⟩ :=
          exists_step hstopped hpending
        obtain ⟨steps, w'', trail, hsilent, hdone⟩ :=
          ih w'.work (hwork ▸ hless) (fun heq => absurd heq hrunning) rfl
        refine ⟨_, w'', trail.cons taken, ?_, hdone⟩
        simp only [emissions, List.filterMap_cons, hnone]
        exact hsilent

/-- So every run of the writer can be run to the end. -/
theorem settles_of_trail {rows : List AuditRow}
    {steps : List (Taken Writer WriterAction)} {w : Writer}
    (trail : Trail step (start rows) steps w) :
    ∃ rest w', Trail step w rest w' ∧ emissions rest = [] ∧
      w'.pending = [] :=
  settles fun hphase => (stopped_empty trail hphase).2

end Writer

/-- However the writer cuts its events into batches, the log holds exactly the
events whose own INSERT succeeds if and only if every INSERT that fails has
only failing ones behind it in its batch. -/
theorem persisted_iff {rows : List AuditRow}
    {steps : List (Taken Writer WriterAction)} {w : Writer}
    (trail : Trail Writer.step (Writer.start rows) steps w) :
    w.Persisted rows (emissions steps) ↔
      ∀ taken ∈ steps, taken.before.Spares taken.action := by
  obtain ⟨handled, kept, hemitted, hrows, _, hall⟩ := Writer.accounted trail
  rw [← hall]
  constructor
  · rintro ⟨handled', hemitted', hrows'⟩
    rw [hemitted, List.append_cancel_right_eq] at hemitted'
    subst hemitted'
    rw [hrows, List.append_cancel_left_eq] at hrows'
    exact hrows'
  · intro hkept
    exact ⟨handled, hemitted, by rw [hrows, hkept]⟩

namespace Sample

/-- The event that receiving a request emits, when the database has no agents
and no keys. -/
def receivedWithout (which : Which) (forAgent : Bool) : Emission :=
  ⟨receivedEvent externals (request which forAgent false), .empty, false⟩

/-- With an agent, the event names one that does not exist. -/
theorem receivedWithout_references_iff (which : Which) (forAgent : Bool) :
    (receivedWithout which forAgent).References ↔ forAgent = false := by
  have hagent : externals.parseUuid agentText = some agentId := by
    decide
  cases forAgent with
  | false =>
      simp [Emission.References, receivedWithout, receivedEvent, request]
  | true =>
      simp [Emission.References, receivedWithout, receivedEvent, request,
        hagent, Db.empty, KeyedTable.HasKey, KeyedTable.empty]

theorem receivedWithout_row?_isSome (which : Which) (forAgent : Bool) :
    (receivedWithout which forAgent).row?.isSome = !forAgent := by
  have hiff := (receivedWithout which forAgent).row?_isSome_iff
  rw [receivedWithout_references_iff] at hiff
  cases forAgent <;> simp_all [receivedWithout]

theorem insertEvent_of_row? {emission : Emission}
    (h : emission.row? = none) :
    ∃ error, insertEvent emission = .error error := by
  unfold Emission.row? at h
  cases hinsert : insertEvent emission with
  | ok row =>
      rw [hinsert] at h
      cases h
  | error error => exact ⟨error, rfl⟩

/-- Two events are sent, and then received in one batch. -/
theorem trail_oneBatch (first second : Emission) : ∃ steps,
    Trail Writer.step (Writer.start []) steps
      ⟨[], false, .inserting [first, second], []⟩ ∧
    emissions steps = [first, second] := by
  have hexec : ∃ steps, execTrail Writer.step (Writer.start [])
      [.emit first, .emit second, .recv, .tryRecv, .tryRecv] =
        some (steps, ⟨[], false, .inserting [first, second], []⟩) ∧
      emissions steps = [first, second] := ⟨_, rfl, rfl⟩
  obtain ⟨steps, hexec, hemitted⟩ := hexec
  exact ⟨steps, trail_of_execTrail hexec, hemitted⟩

theorem step_insert_error {w : Writer} {emission : Emission}
    {rest : List Emission} {error : DbError}
    (hphase : w.phase = .inserting (emission :: rest))
    (h : insertEvent emission = .error error) :
    w.step .insert = some { w with phase := .receiving } := by
  simp [Writer.step, hphase, Writer.insert, h]

theorem step_insert_ok {w : Writer} {emission : Emission}
    {rest : List Emission} {row : AuditRow}
    (hphase : w.phase = .inserting (emission :: rest))
    (h : insertEvent emission = .ok row) :
    w.step .insert = some
      { w with phase := .inserting rest, rows := w.rows ++ [row] } := by
  simp [Writer.step, hphase, Writer.insert, h]

theorem emissions_snoc_insert (steps : List (Taken Writer WriterAction))
    (before after : Writer) :
    emissions (steps ++ [⟨before, .insert, after⟩]) = emissions steps := by
  simp [emissions, WriterAction.emission?]

/-- If the first one fails, nothing becomes of the second. -/
theorem second_lost {first : Emission} (second : Emission)
    (h : first.row? = none) :
    ∃ steps w, Trail Writer.step (Writer.start []) steps w ∧
      emissions steps = [first, second] ∧ w.pending = [] ∧ w.rows = [] := by
  obtain ⟨error, hinsert⟩ := insertEvent_of_row? h
  obtain ⟨steps, trail, hemitted⟩ := trail_oneBatch first second
  refine ⟨_, _, trail.snoc (step_insert_error rfl hinsert), ?_, rfl, rfl⟩
  rw [emissions_snoc_insert, hemitted]

/-- If only the second one fails, the row of the first is there. -/
theorem first_kept {first second : Emission} {row : AuditRow}
    (h : insertEvent first = .ok row) (h' : second.row? = none) :
    ∃ steps w, Trail Writer.step (Writer.start []) steps w ∧
      emissions steps = [first, second] ∧ w.pending = [] ∧
      w.rows = [row] := by
  obtain ⟨error, hinsert⟩ := insertEvent_of_row? h'
  obtain ⟨steps, trail, hemitted⟩ := trail_oneBatch first second
  have trail' := trail.snoc (step_insert_ok rfl h)
  refine ⟨_, _, trail'.snoc (step_insert_error rfl hinsert), ?_, rfl, rfl⟩
  rw [emissions_snoc_insert, emissions_snoc_insert, hemitted]

theorem receivedWithout_row?_eq_none (which : Which) :
    (receivedWithout which true).row? = none := by
  have hisSome := receivedWithout_row?_isSome which true
  cases hrow : (receivedWithout which true).row? with
  | none => rfl
  | some row =>
      rw [hrow] at hisSome
      cases hisSome

end Sample

/-- The event of a request without an agent is persisted, and that of one for
an agent that does not exist is not. -/
theorem persisted_sample : ∃ steps w,
    Trail Writer.step (Writer.start []) steps w ∧ w.pending = [] ∧
    w.rows.length = 1 ∧
    (w.Persisted [] (emissions steps) ↔
      ∀ taken ∈ steps, taken.before.Spares taken.action) := by
  obtain ⟨row, hrow⟩ : ∃ row, insertEvent
      (Sample.receivedWithout .first false) = .ok row := by
    have hisSome := Sample.receivedWithout_row?_isSome .first false
    unfold Emission.row? at hisSome
    cases hinsert : insertEvent (Sample.receivedWithout .first false) with
    | ok row => exact ⟨row, rfl⟩
    | error error =>
        rw [hinsert] at hisSome
        cases hisSome
  obtain ⟨steps, w, trail, _, hpending, hrows⟩ := Sample.first_kept hrow
    (Sample.receivedWithout_row?_eq_none .second)
  exact ⟨steps, w, trail, hpending, by rw [hrows]; rfl, persisted_iff trail⟩

/-- A request for an agent that does not exist makes the event of another
request be lost. -/
theorem not_persisted : ∃ steps w,
    Trail Writer.step (Writer.start []) steps w ∧
    emissions steps = [Sample.receivedWithout .first true,
      Sample.receivedWithout .second false] ∧ w.pending = [] ∧
    ¬ w.Persisted [] (emissions steps) := by
  obtain ⟨steps, w, trail, hemitted, hpending, hrows⟩ :=
    Sample.second_lost (Sample.receivedWithout .second false)
      (Sample.receivedWithout_row?_eq_none .first)
  refine ⟨steps, w, trail, hemitted, hpending, ?_⟩
  rw [Writer.persisted_iff_of_pending hpending, hemitted, hrows]
  intro hempty
  have hisSome := Sample.receivedWithout_row?_isSome .second false
  have hnone := List.filterMap_eq_nil_iff.mp
    (List.append_eq_nil_iff.mp hempty.symm).2
    (Sample.receivedWithout .second false) (by simp)
  rw [hnone] at hisSome
  cases hisSome

end X402Guard

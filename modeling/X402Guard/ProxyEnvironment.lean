/-
The world the handlers run in: the clock, PostgreSQL, Redis, the audit channel,
the rate limiter's counter and the targets.  Everything a handler awaits or
shares is one operation.
-/
import X402Guard.DatabaseChanges
import X402Guard.InterleavedCalls
import X402Guard.RedisStore

namespace X402Guard

open Interaction

/-- What became of an outgoing request. -/
inductive HttpReply
  | notSent (cause : String)
  | noResponse (cause : String)
  /-- The body is `none` when it is not JSON. -/
  | response (status : Nat) (body : Option Value)

/-- Did the request leave for the target? -/
def HttpReply.sent : HttpReply → Bool
  | .notSent _ => false
  | _ => true

inductive Op
  /-- `SystemTime::now`, `Utc::now`. -/
  | clock
  | emit (event : AuditEvent)
  | postgres (query : Query)
  | redisConnect
  | redis (command : Command)
  /-- `COUNTER.fetch_add(1)`. -/
  | nextCounter
  | httpGet (url payment : String)

@[reducible] def Reply : Op → Type
  | .clock => Micros
  | .emit _ => Bool
  | .postgres query => Except DbError query.Answer
  | .redisConnect => Except String Unit
  | .redis command => Except String command.Answer
  | .nextCounter => Nat
  | .httpGet .. => HttpReply

/-- The choices of the environment: whether the operation fails, the next
`gen_random_uuid()`, and the target's reply. -/
structure Outcome where
  fails : Bool
  freshId : Uuid
  http : HttpReply

structure Shared where
  now : Micros
  db : Db
  redis : RedisDb
  counter : Nat
  /-- Events sent to the audit writer. -/
  audit : List AuditEvent

def Shared.start (now : Micros) (db : Db) : Shared :=
  ⟨now, db, .empty, 0, []⟩

def redisError : String := "broken pipe"

/-- An operation that fails changes nothing; a reply that is lost after its
statement has run is not among the outcomes.  The redirects that the HTTP client
follows belong to the one `httpGet`. -/
def perform : (op : Op) → Outcome → Shared → Reply op × Shared
  | .clock, _, s => (s.now, s)
  | .emit event, outcome, s =>
      if outcome.fails then (false, s)
      else (true, { s with audit := s.audit ++ [event] })
  | .postgres query, outcome, s =>
      if outcome.fails then (.error .connection, s)
      else match query.run s.now outcome.freshId s.db with
        | .ok (answer, db) => (.ok answer, { s with db })
        | .error error => (.error error, s)
  | .redisConnect, outcome, s =>
      (if outcome.fails then .error redisError else .ok (), s)
  | .redis command, outcome, s =>
      if outcome.fails then (.error redisError, s)
      else
        let (answer, redis) := command.run s.now s.redis
        (.ok answer, { s with redis })
  | .nextCounter, _, s =>
      (s.counter, { s with counter := (s.counter + 1) % 2 ^ 64 })
  | .httpGet .., outcome, s => (outcome.http, s)

/-- The outside world only lets time pass, by any number of microseconds. -/
def proxySemantics : Semantics Op Reply Shared Outcome Micros where
  perform := perform
  external elapsed s := { s with now := s.now + elapsed }
  clock := Shared.now

@[simp] theorem proxySemantics_perform (op : Op) (outcome : Outcome)
    (s : Shared) : proxySemantics.perform op outcome s = perform op outcome s :=
  rfl

@[simp] theorem proxySemantics_external (elapsed : Micros) (s : Shared) :
    proxySemantics.external elapsed s = { s with now := s.now + elapsed } :=
  rfl

@[simp] theorem proxySemantics_clock (s : Shared) :
    proxySemantics.clock s = s.now := rfl

/-- A query fails without a trace, or does one of the changes it can do. -/
theorem perform_postgres (query : Query) (outcome : Outcome) (s : Shared) :
    (∃ error, perform (.postgres query) outcome s = (.error error, s)) ∨
      ∃ answer db', perform (.postgres query) outcome s =
        (.ok answer, { s with db := db' }) ∧ s.db.Change query answer db' := by
  simp only [perform]
  split
  · exact Or.inl ⟨_, rfl⟩
  · split
    · rename_i answer db' hrun
      exact Or.inr ⟨answer, db', rfl, Query.run_change hrun⟩
    · exact Or.inl ⟨_, rfl⟩

/-- A query that answered did so by one of the changes it can do. -/
theorem perform_postgres_ok {query : Query} {outcome : Outcome} {s : Shared}
    {answer : query.Answer}
    (h : (perform (.postgres query) outcome s).1 = .ok answer) :
    s.db.Change query answer (perform (.postgres query) outcome s).2.db := by
  rcases perform_postgres query outcome s with
    ⟨error, heq⟩ | ⟨answer', db', heq, hchange⟩
  · rw [heq] at h
    cases h
  · rw [heq] at h ⊢
    cases h
    exact hchange

theorem perform_postgres_run {query : Query} {outcome : Outcome} {s : Shared}
    {answer : query.Answer}
    (h : (perform (.postgres query) outcome s).1 = .ok answer) :
    ∃ db', query.run s.now outcome.freshId s.db = .ok (answer, db') := by
  simp only [perform] at h
  split at h
  · cases h
  · split at h
    · rename_i db' hrun
      cases h
      exact ⟨db', hrun⟩
    · cases h

/-- The snapshot of an INSERT that begins. -/
theorem perform_beginSpend {outcome : Outcome} {s : Shared}
    {snapshot : Snapshot}
    (h : (perform (.postgres .beginSpend) outcome s).1 = .ok snapshot) :
    snapshot = ⟨s.db.spendLedger.rows, s.now⟩ := by
  obtain ⟨db', hrun⟩ := perform_postgres_run h
  cases hrun
  rfl

/-- The session key that a lookup finds. -/
theorem perform_selectSessionKey {id : Uuid} {outcome : Outcome} {s : Shared}
    {row? : Option SessionKeyRow}
    (h : (perform (.postgres (.selectSessionKey id)) outcome s).1 = .ok row?) :
    s.db.sessionKeys.find? id = row? := by
  obtain ⟨db', hrun⟩ := perform_postgres_run h
  cases hrun
  rfl

/-- The agent that a lookup finds. -/
theorem perform_selectAgent {id : Uuid} {outcome : Outcome} {s : Shared}
    {agent? : Option Agent}
    (h : (perform (.postgres (.selectAgent id)) outcome s).1 = .ok agent?) :
    s.db.agents.find? id = agent? := by
  obtain ⟨db', hrun⟩ := perform_postgres_run h
  cases hrun
  rfl

/-- Only queries touch the database. -/
theorem perform_db_of_ne {op : Op} (hop : ∀ query, op ≠ .postgres query)
    (outcome : Outcome) (s : Shared) : (perform op outcome s).2.db = s.db := by
  cases op with
  | postgres query => exact absurd rfl (hop query)
  | emit event =>
      simp only [perform]
      split <;> rfl
  | redis command =>
      simp only [perform]
      split <;> rfl
  | _ => rfl

/-- What every change of the database keeps, every operation keeps. -/
theorem perform_keeps_db {P : Db → Prop} {s : Shared}
    (hchange : ∀ query answer db', s.db.Change query answer db' → P db')
    (h : P s.db) (op : Op) (outcome : Outcome) :
    P (perform op outcome s).2.db := by
  by_cases hop : ∃ query, op = .postgres query
  · obtain ⟨query, rfl⟩ := hop
    rcases perform_postgres query outcome s with
      ⟨error, heq⟩ | ⟨answer, db', heq, hstep⟩
    · rwa [heq]
    · rw [heq]
      exact hchange query answer db' hstep
  · rw [perform_db_of_ne (fun query heq => hop ⟨query, heq⟩)]
    exact h

@[simp] theorem perform_now (op : Op) (outcome : Outcome) (s : Shared) :
    (perform op outcome s).2.now = s.now := by
  cases op with
  | postgres query =>
      rcases perform_postgres query outcome s with
        ⟨error, heq⟩ | ⟨answer, db', heq, _⟩ <;> rw [heq]
  | emit event =>
      simp only [perform]
      split <;> rfl
  | redis command =>
      simp only [perform]
      split <;> rfl
  | _ => rfl

/-- A command that fails does not reach Redis. -/
theorem perform_redis_failed {command : Command} {outcome : Outcome}
    (h : outcome.fails = true) (s : Shared) :
    perform (.redis command) outcome s = (.error redisError, s) := by
  rw [perform, if_pos h]

/-- A query that answered did not fail. -/
theorem fine_of_postgres_ok {query : Query} {outcome : Outcome} {s : Shared}
    {answer : query.Answer}
    (h : (perform (.postgres query) outcome s).1 = .ok answer) :
    outcome.fails = false := by
  cases hfails : outcome.fails with
  | false => rfl
  | true => simp [perform, hfails] at h

theorem fine_of_redis_ok {command : Command} {outcome : Outcome} {s : Shared}
    {answer : command.Answer}
    (h : (perform (.redis command) outcome s).1 = .ok answer) :
    outcome.fails = false := by
  cases hfails : outcome.fails with
  | false => rfl
  | true => simp [perform, hfails] at h

theorem perform_redis_ok {command : Command} {outcome : Outcome}
    (h : outcome.fails = false) (s : Shared) :
    perform (.redis command) outcome s = (.ok (command.run s.now s.redis).1,
      { s with redis := (command.run s.now s.redis).2 }) := by
  rw [perform, if_neg (by simp [h])]

theorem proxySemantics_clockMonotone : proxySemantics.ClockMonotone where
  perform op outcome s := by simp
  external elapsed s := by simp

/-- A reserved Redis key stays reserved. -/
theorem perform_keeps_reserved {key : String} {instant : Micros} {s : Shared}
    (h : s.redis.ReservedUntil key instant) (op : Op) (outcome : Outcome) :
    (perform op outcome s).2.redis.ReservedUntil key instant := by
  cases op with
  | postgres query =>
      rcases perform_postgres query outcome s with
        ⟨error, heq⟩ | ⟨answer, db', heq, _⟩ <;> rwa [heq]
  | emit event =>
      simp only [perform]
      split <;> exact h
  | redis command =>
      simp only [perform]
      split
      · exact h
      · exact h.run command
  | _ => exact h

/-- A SET NX that answered `true` found the key free and took it. -/
theorem perform_setNxEx {key : String} {ttlSecs : Nat} {outcome : Outcome}
    {s : Shared}
    (h : (perform (.redis (.setNxEx key ttlSecs)) outcome s).1 = .ok true) :
    (∀ instant, s.redis.ReservedUntil key instant → instant ≤ s.now) ∧
      (perform (.redis (.setNxEx key ttlSecs)) outcome s).2.redis.ReservedUntil
        key (s.now + ttlSecs * microsPerSecond) := by
  simp only [perform] at h ⊢
  split at h
  · cases h
  · rename_i hok
    rw [ite_cond_eq_false _ _ (eq_false hok)]
    exact RedisDb.setNxEx_true (Except.ok.inj h)

end X402Guard

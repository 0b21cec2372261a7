/-
Any number of concurrent calls of `RateLimiter::check` for one key.  A call
reads the clock, draws a number, runs its pipeline and, over the limit, takes
its entry out again in a separate command.  What each step of a call does to the
sorted set and to the verdicts is said once.
-/
import X402Guard.CallReplay
import X402Guard.ForwardRequest

namespace X402Guard

namespace RateLimiter

open Interaction

/-- The calls that are served: all for one key, under one limit. -/
def check (key : String) (maxRequests windowSecs : ℕ) : Unit → RepoM Bool :=
  fun _ => rateLimiterCheck key maxRequests windowSecs

def redisKey (key : String) : String := s!"x402:rate:{key}"

/-- The member that a call adds to the sorted set. -/
def memberOf (nowMs counter : ℕ) : String := s!"{nowMs}:{counter}"

/-- A call whose pipeline was answered: what it read off the clock in
milliseconds, the number it drew, and the entries that were counted. -/
structure Verdict where
  timestamp : ℕ
  counter : ℕ
  count : ℕ

def Verdict.entry (verdict : Verdict) : ℕ × String :=
  (verdict.timestamp, memberOf verdict.timestamp verdict.counter)

/-- The pipeline of a call: evict what is older than the window, add the call,
count. -/
def slide (key : String) (windowSecs timestamp counter : ℕ) : Command :=
  .slideWindow (redisKey key) (timestamp - windowSecs * 1000) timestamp
    (memberOf timestamp counter) (windowSecs * 2 % 2 ^ 64)

/-- Take the entry of a call out again. -/
def undo (key : String) (timestamp counter : ℕ) : Command :=
  .zrem (redisKey key) (memberOf timestamp counter)

/-- The number a call has drawn. -/
def counter? : List (Event Op Reply) → Option ℕ
  | _ :: _ :: ⟨.nextCounter, counter, _, _⟩ :: _ => some counter
  | _ => none

def verdict? : List (Event Op Reply) → Option Verdict
  | _ :: ⟨.clock, now, _, _⟩ :: ⟨.nextCounter, counter, _, _⟩ ::
      ⟨.redis (.slideWindow ..), .ok counts, _, _⟩ :: _ =>
        some ⟨now / 1000, counter, counts.head?.getD 0⟩
  | _ => none

section Progress

variable (key : String) (maxRequests windowSecs : ℕ)

/-- How far a call can be: what it has done, and what is left of it. -/
inductive Progress : List (Event Op Reply) → RepoM Bool → Prop
  | connecting {next : Reply .redisConnect → RepoM Bool} :
      Progress [] (.call .redisConnect next)
  | disconnected {connected : Event Op Reply} {error : String} :
      Progress [connected] (.throw error)
  | dating {connected : Event Op Reply} {next : Reply .clock → RepoM Bool} :
      Progress [connected] (.call .clock next)
  | numbering {connected : Event Op Reply} {now order time : ℕ}
      {next : Reply .nextCounter → RepoM Bool} :
      Progress [connected, ⟨.clock, now, order, time⟩]
        (.call .nextCounter next)
  | sliding {connected : Event Op Reply}
      {now order time counter order' time' : ℕ}
      {next : Reply (.redis (slide key windowSecs (now / 1000) counter)) →
        RepoM Bool} :
      Progress [connected, ⟨.clock, now, order, time⟩,
          ⟨.nextCounter, counter, order', time'⟩]
        (.call (.redis (slide key windowSecs (now / 1000) counter)) next)
  | failed {trace : List (Event Op Reply)} {error : String}
      (hverdict : verdict? trace = none) : Progress trace (.throw error)
  | allowed {trace : List (Event Op Reply)} {verdict : Verdict}
      (hverdict : verdict? trace = some verdict)
      (hcount : verdict.count ≤ maxRequests) : Progress trace (.ret true)
  | limited {trace : List (Event Op Reply)} {verdict : Verdict}
      {next : Reply (.redis (undo key verdict.timestamp verdict.counter)) →
        RepoM Bool}
      (hverdict : verdict? trace = some verdict)
      (hcount : maxRequests < verdict.count) :
      Progress trace (.call
        (.redis (undo key verdict.timestamp verdict.counter)) next)
  | denied {trace : List (Event Op Reply)} {verdict : Verdict}
      (hverdict : verdict? trace = some verdict)
      (hcount : maxRequests < verdict.count) : Progress trace (.ret false)

variable {key maxRequests windowSecs}

theorem rateLimiterCheck_eq :
    rateLimiterCheck key maxRequests windowSecs =
      .call .redisConnect fun connected => .lift connected >>= fun _ =>
      .call .clock fun now => .call .nextCounter fun counter =>
      .call (.redis (slide key windowSecs (now / 1000) counter))
        fun results => .lift results >>= fun counts =>
      if maxRequests < counts.head?.getD 0 then
        .call (.redis (undo key (now / 1000) counter)) fun _ => .ret false
      else .ret true := rfl

theorem progress_of_reaches {trace : List (Event Op Reply)}
    {rest : RepoM Bool}
    (h : (rateLimiterCheck key maxRequests windowSecs).Reaches trace rest) :
    Progress key maxRequests windowSecs trace rest := by
  rw [rateLimiterCheck_eq] at h
  rcases Prog.reaches_call_iff.mp h with
    ⟨rfl, rfl⟩ | ⟨connected, _, _, trace, rfl, hconnected⟩
  · exact .connecting
  rcases connected with error | _
  · obtain ⟨rfl, rfl⟩ := Prog.reaches_throw_iff.mp hconnected
    exact .disconnected
  rcases Prog.reaches_call_iff.mp hconnected with
    ⟨rfl, rfl⟩ | ⟨now, _, _, trace, rfl, hdated⟩
  · exact .dating
  rcases Prog.reaches_call_iff.mp hdated with
    ⟨rfl, rfl⟩ | ⟨counter, _, _, trace, rfl, hnumbered⟩
  · exact .numbering
  rcases Prog.reaches_call_iff.mp hnumbered with
    ⟨rfl, rfl⟩ | ⟨results, _, _, trace, rfl, hslid⟩
  · exact .sliding
  rcases results with error | counts
  · obtain ⟨rfl, rfl⟩ := Prog.reaches_throw_iff.mp hslid
    exact .failed rfl
  rw [Prog.lift_ok, Prog.ret_bind] at hslid
  let verdict : Verdict := ⟨now / 1000, counter, counts.head?.getD 0⟩
  by_cases hcount : maxRequests < counts.head?.getD 0
  · rw [if_pos hcount] at hslid
    rcases Prog.reaches_call_iff.mp hslid with
      ⟨rfl, rfl⟩ | ⟨_, _, _, trace, rfl, hremoved⟩
    · exact @Progress.limited _ _ _ _ verdict _ rfl hcount
    · obtain ⟨rfl, rfl⟩ := Prog.reaches_ret_iff.mp hremoved
      exact @Progress.denied _ _ _ _ verdict rfl hcount
  · rw [if_neg hcount] at hslid
    obtain ⟨rfl, rfl⟩ := Prog.reaches_ret_iff.mp hslid
    exact @Progress.allowed _ _ _ _ verdict rfl (not_lt.mp hcount)

theorem verdict?_append {trace more : List (Event Op Reply)}
    {verdict : Verdict} (h : verdict? trace = some verdict) :
    verdict? (trace ++ more) = some verdict := by
  unfold verdict? at h
  split at h
  · exact h
  · cases h

theorem counter?_append {trace more : List (Event Op Reply)} {counter : ℕ}
    (h : counter? trace = some counter) :
    counter? (trace ++ more) = some counter := by
  unfold counter? at h
  split at h
  · exact h
  · cases h

theorem counter?_of_verdict? {trace : List (Event Op Reply)}
    {verdict : Verdict} (h : verdict? trace = some verdict) :
    counter? trace = some verdict.counter := by
  unfold verdict? at h
  split at h
  · cases h
    rfl
  · cases h

end Progress

theorem digits_inj {a b : ℕ} (h : Nat.toDigits 10 a = Nat.toDigits 10 b) :
    a = b := by
  rw [← Nat.ofDigitChars_ten_toDigits (n := a), h,
    Nat.ofDigitChars_ten_toDigits]

theorem colon_not_mem_digits (n : ℕ) : ':' ∉ Nat.toDigits 10 n :=
  not_mem_digits (by decide) n

theorem toList_memberOf (timestamp counter : ℕ) :
    (memberOf timestamp counter).toList =
      Nat.toDigits 10 timestamp ++ ':' :: Nat.toDigits 10 counter := by
  simp only [memberOf, String.toList_append, toList_toString]
  simp [toString]

/-- Members of different numbers are different. -/
theorem memberOf_inj {timestamp counter timestamp' counter' : ℕ}
    (h : memberOf timestamp counter = memberOf timestamp' counter') :
    counter = counter' := by
  have hlist := congrArg String.toList h
  rw [toList_memberOf, toList_memberOf, List.append_cons_inj_of_notMem
    (colon_not_mem_digits _) (colon_not_mem_digits _)] at hlist
  exact digits_inj hlist.2.2

section Steps

variable {key : String} {maxRequests windowSecs : ℕ}

/-- The verdicts so far, by call. -/
def verdicts (w : World (check key maxRequests windowSecs) Shared) :
    List Verdict :=
  w.calls.flatMap fun call => (verdict? call.trace).toList

/-- The numbers drawn so far, by call. -/
def drawn (w : World (check key maxRequests windowSecs) Shared) : List ℕ :=
  w.calls.flatMap fun call => (counter? call.trace).toList

theorem mem_verdicts
    {w : World (check key maxRequests windowSecs) Shared}
    {call : Call (check key maxRequests windowSecs)} {verdict : Verdict}
    (hcall : call ∈ w.calls) (hverdict : verdict? call.trace = some verdict) :
    verdict ∈ verdicts w := by
  apply List.mem_flatMap.mpr
  refine ⟨call, hcall, ?_⟩
  rw [hverdict]
  exact List.mem_singleton_self verdict

/-- What an operation of a call can do: nothing to the sorted set, slide the
window and pass a verdict, or take out the entry of a call that was denied. -/
inductive Moves (op : Op) (outcome : Outcome)
    (w w' : World (check key maxRequests windowSecs) Shared) : Prop
  | quiet (hredis : w'.shared.redis = w.shared.redis)
      (hverdicts : verdicts w' = verdicts w)
  | slid {timestamp counter : ℕ}
      (hop : op = .redis (slide key windowSecs timestamp counter))
      (hsent : outcome.fails = false)
      (hredis : w'.shared.redis = ((slide key windowSecs timestamp
        counter).run w.shared.now w.shared.redis).2)
      (hverdicts : (verdicts w').Perm (⟨timestamp, counter,
        (w.shared.redis.kept w.shared.now (redisKey key)
          (timestamp - windowSecs * 1000)
          (memberOf timestamp counter)).length + 1⟩ :: verdicts w))
  | undone {verdict : Verdict} (hmem : verdict ∈ verdicts w)
      (hcount : maxRequests < verdict.count)
      (hredis : w'.shared.redis = ((undo key verdict.timestamp
        verdict.counter).run w.shared.now w.shared.redis).2)
      (hverdicts : verdicts w' = verdicts w)

variable {w : World (check key maxRequests windowSecs) Shared} {index : ℕ}
variable {call : Call (check key maxRequests windowSecs)} {op : Op}
variable {next : Reply op → RepoM Bool}

theorem verdicts_of_same (hrest : call.rest = .call op next)
    (hcall : w.calls[index]? = some call) {outcome : Outcome}
    (hsame : verdict? (call.trace ++ [w.stamp proxySemantics op outcome]) =
      verdict? call.trace) :
    verdicts (w.perform proxySemantics index call hrest outcome) =
      verdicts w := by
  apply flatMap_set_of_eq _ _ hcall
  exact congrArg Option.toList hsame

theorem verdicts_of_new (hrest : call.rest = .call op next)
    (hcall : w.calls[index]? = some call) {outcome : Outcome}
    {verdict : Verdict} (hnone : verdict? call.trace = none)
    (hnew : verdict? (call.trace ++ [w.stamp proxySemantics op outcome]) =
      some verdict) :
    (verdicts (w.perform proxySemantics index call hrest outcome)).Perm
      (verdict :: verdicts w) := by
  apply flatMap_set_snoc_perm _ _ hcall
  rw [hnone]
  exact congrArg Option.toList hnew

theorem perform_moves (hrest : call.rest = .call op next)
    (hcall : w.calls[index]? = some call) (outcome : Outcome) :
    Moves op outcome w (w.perform proxySemantics index call hrest outcome) := by
  have hprogress := progress_of_reaches call.reached
  rw [hrest] at hprogress
  generalize htrace : call.trace = trace at hprogress
  cases hprogress with
  | connecting =>
      refine .quiet rfl (verdicts_of_same hrest hcall ?_)
      rw [htrace]
      rfl
  | dating =>
      refine .quiet rfl (verdicts_of_same hrest hcall ?_)
      rw [htrace]
      rfl
  | numbering =>
      refine .quiet rfl (verdicts_of_same hrest hcall ?_)
      rw [htrace]
      rfl
  | @sliding _ now _ _ counter =>
      cases hfails : outcome.fails with
      | true =>
          refine .quiet ?_ (verdicts_of_same hrest hcall ?_)
          · simp only [World.perform, proxySemantics_perform,
              perform_redis_failed hfails]
          · rw [htrace, World.stamp, proxySemantics_perform,
              perform_redis_failed hfails]
            rfl
      | false =>
          refine .slid rfl hfails ?_ (verdicts_of_new hrest hcall ?_ ?_)
          · simp only [World.perform, proxySemantics_perform,
              perform_redis_ok hfails]
          · rw [htrace]
            rfl
          · rw [htrace, World.stamp, proxySemantics_perform,
              perform_redis_ok hfails]
            exact congrArg (fun count => some (Verdict.mk _ counter count))
              RedisDb.slideWindow_count
  | @limited _ verdict _ hverdict hcount =>
      have hmem : verdict ∈ verdicts w :=
        mem_verdicts (List.mem_of_getElem? hcall) (htrace ▸ hverdict)
      have hsame : verdicts (w.perform proxySemantics index call hrest
          outcome) = verdicts w := by
        apply verdicts_of_same hrest hcall
        rw [htrace, hverdict, verdict?_append hverdict]
      cases hfails : outcome.fails with
      | true =>
          refine .quiet ?_ hsame
          simp only [World.perform, proxySemantics_perform,
            perform_redis_failed hfails]
      | false =>
          refine .undone hmem hcount ?_ hsame
          simp only [World.perform, proxySemantics_perform,
            perform_redis_ok hfails]

/-- A number is drawn off the counter, or the counter stays. -/
theorem perform_draws (hrest : call.rest = .call op next)
    (hcall : w.calls[index]? = some call) (outcome : Outcome) :
    (drawn (w.perform proxySemantics index call hrest outcome) = drawn w ∧
      (w.perform proxySemantics index call hrest outcome).shared.counter =
        w.shared.counter) ∨
    ((drawn (w.perform proxySemantics index call hrest outcome)).Perm
        (w.shared.counter :: drawn w) ∧
      (w.perform proxySemantics index call hrest outcome).shared.counter =
        (w.shared.counter + 1) % 2 ^ 64) := by
  have hprogress := progress_of_reaches call.reached
  rw [hrest] at hprogress
  generalize htrace : call.trace = trace at hprogress
  have hsame : counter? (call.trace ++ [w.stamp proxySemantics op outcome]) =
      counter? call.trace →
      drawn (w.perform proxySemantics index call hrest outcome) =
        drawn w := by
    intro h
    apply flatMap_set_of_eq _ _ hcall
    exact congrArg Option.toList h
  have hredis : ∀ command, (perform (.redis command) outcome
      w.shared).2.counter = w.shared.counter := by
    intro command
    cases hfails : outcome.fails with
    | true => rw [perform_redis_failed hfails]
    | false => rw [perform_redis_ok hfails]
  cases hprogress with
  | connecting => exact Or.inl ⟨hsame (by rw [htrace]; rfl), rfl⟩
  | dating => exact Or.inl ⟨hsame (by rw [htrace]; rfl), rfl⟩
  | numbering =>
      refine Or.inr ⟨?_, rfl⟩
      apply flatMap_set_snoc_perm _ _ hcall
      rw [Call.resume_trace, htrace]
      rfl
  | sliding => exact Or.inl ⟨hsame (by rw [htrace]; rfl), hredis _⟩
  | limited hverdict =>
      have hcounter := counter?_of_verdict? hverdict
      refine Or.inl ⟨hsame ?_, hredis _⟩
      rw [htrace, hcounter, counter?_append hcounter]

variable {Allowed : World (check key maxRequests windowSecs) Shared →
  Action Unit Micros Outcome → Prop}
variable {now : Micros} {db : Db}

theorem drawn_arrive (w : World (check key maxRequests windowSecs) Shared) :
    drawn (w.arrive ()) = drawn w := by
  simp [drawn, World.arrive, Call.start, counter?]

theorem verdicts_arrive (w : World (check key maxRequests windowSecs) Shared) :
    verdicts (w.arrive ()) = verdicts w := by
  simp [verdicts, World.arrive, Call.start, verdict?]

/-- Until the counter wraps around, no number is drawn twice. -/
theorem drawn_nodup
    (run : Run (World.step proxySemantics) Allowed
      (World.start (check key maxRequests windowSecs)
        (Shared.start now db)) w) (hsteps : w.steps < 2 ^ 64) :
    (drawn w).Nodup := by
  suffices h : w.steps < 2 ^ 64 → w.shared.counter ≤ w.steps ∧
      (∀ number ∈ drawn w, number < w.shared.counter) ∧ (drawn w).Nodup from
    (h hsteps).2.2
  refine World.invariant (I := fun w => w.steps < 2 ^ 64 →
    w.shared.counter ≤ w.steps ∧
      (∀ number ∈ drawn w, number < w.shared.counter) ∧ (drawn w).Nodup)
    run ?_ ?_ ?_ ?_
  · intro _
    exact ⟨Nat.le_refl _, by simp [drawn, World.start],
      by simp [drawn, World.start]⟩
  · intro w _ h _
    rw [drawn_arrive]
    exact h
  · intro w _ h _
    exact h
  · intro w index call op next outcome hrest hcall h _ hlt
    have hlt : w.steps + 1 < 2 ^ 64 := hlt
    obtain ⟨hle, hbelow, hnodup⟩ := h (Nat.lt_of_succ_lt hlt)
    rcases perform_draws hrest hcall outcome with
      ⟨hdrawn, hcounter⟩ | ⟨hdrawn, hcounter⟩
    · rw [hdrawn, hcounter]
      exact ⟨Nat.le_succ_of_le hle, hbelow, hnodup⟩
    · rw [hcounter, Nat.mod_eq_of_lt (by omega)]
      refine ⟨Nat.succ_le_succ hle, ?_, ?_⟩
      · intro number hnumber
        rcases List.mem_cons.mp (hdrawn.mem_iff.mp hnumber) with rfl | hold
        · exact Nat.lt_succ_self _
        · exact Nat.lt_succ_of_lt (hbelow number hold)
      · rw [hdrawn.nodup_iff, List.nodup_cons]
        exact ⟨fun hmem => Nat.lt_irrefl _ (hbelow _ hmem), hnodup⟩

/-- The numbers that verdicts bear were drawn. -/
theorem verdicts_sublist_drawn
    (w : World (check key maxRequests windowSecs) Shared) :
    ((verdicts w).map Verdict.counter).Sublist (drawn w) := by
  unfold verdicts drawn
  induction w.calls with
  | nil => exact .refl _
  | cons call rest ih =>
      rw [List.flatMap_cons, List.flatMap_cons, List.map_append]
      apply List.Sublist.append _ ih
      cases hverdict : verdict? call.trace with
      | none => exact List.nil_sublist _
      | some verdict =>
          rw [counter?_of_verdict? hverdict]
          exact .refl _

theorem verdicts_nodup
    (run : Run (World.step proxySemantics) Allowed
      (World.start (check key maxRequests windowSecs)
        (Shared.start now db)) w) (hsteps : w.steps < 2 ^ 64) :
    ((verdicts w).map Verdict.counter).Nodup :=
  (verdicts_sublist_drawn w).nodup (drawn_nodup run hsteps)

end Steps

end RateLimiter

end X402Guard

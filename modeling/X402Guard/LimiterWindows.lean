/-
The rate limit over sliding windows.  No window holds more allowed calls than
the limit, as long as no pipeline comes after the set has expired; and a call is
only denied for calls that were allowed, as long as the entries of denied calls
and of later ones do not make the difference.
-/
import X402Guard.LimiterCalls
import X402Guard.SlidingWindow

namespace X402Guard

namespace RateLimiter

open Interaction

variable {key : String} {maxRequests windowSecs : ℕ}

/-- The clock of a call that was allowed, in milliseconds. -/
def allowedAt? (call : Call (check key maxRequests windowSecs)) : Option ℕ :=
  match call.rest, verdict? call.trace with
  | .ret true, some verdict => some verdict.timestamp
  | _, _ => none

/-- The clock of a call that was denied, whether or not it has taken its entry
out again. -/
def deniedAt? (call : Call (check key maxRequests windowSecs)) : Option ℕ :=
  (verdict? call.trace).bind fun verdict =>
    if maxRequests < verdict.count then some verdict.timestamp else none

/-- The calls that were allowed in the half-open window that ends at `t`. -/
def allowedIn (t : ℤ) (w : World (check key maxRequests windowSecs) Shared) :
    List (Call (check key maxRequests windowSecs)) :=
  w.calls.filter fun call => (allowedAt? call).any fun timestamp : ℕ =>
    decide (t - windowSecs * 1000 < timestamp ∧ timestamp ≤ t)

/-- The verdicts that allowed a call. -/
def allowed (w : World (check key maxRequests windowSecs) Shared) :
    List Verdict :=
  (verdicts w).filter fun verdict => verdict.count ≤ maxRequests

def Verdict.time (verdict : Verdict) : ℤ := verdict.timestamp

/-- How many of the verdicts fall into the window that ends at `t`. -/
def countIn (windowSecs : ℕ) (t : ℤ) (verdicts : List Verdict) : ℕ :=
  SlidingWindow.windowSum Verdict.time (windowSecs * 1000) (fun _ => 1) t
    verdicts

theorem allowedAt?_eq (call : Call (check key maxRequests windowSecs)) :
    allowedAt? call = (verdict? call.trace).bind fun verdict =>
      if verdict.count ≤ maxRequests then some verdict.timestamp
      else none := by
  have hprogress := progress_of_reaches call.reached
  unfold allowedAt?
  generalize call.trace = trace at hprogress
  generalize call.rest = rest at hprogress
  cases hprogress with
  | connecting => rfl
  | disconnected => rfl
  | dating => rfl
  | numbering => rfl
  | sliding => rfl
  | failed hverdict => simp [hverdict]
  | allowed hverdict hcount => simp [hverdict, hcount]
  | limited hverdict hcount => simp [hverdict, hcount]
  | denied hverdict hcount => simp [hverdict, hcount]

/-- One verdict for each call that was allowed. -/
theorem length_allowedIn (t : ℤ)
    (w : World (check key maxRequests windowSecs) Shared) :
    (allowedIn t w).length = countIn windowSecs t (allowed w) := by
  unfold allowedIn allowed verdicts
  induction w.calls with
  | nil => rfl
  | cons call rest ih =>
      rw [List.flatMap_cons, List.filter_append, countIn,
        SlidingWindow.windowSum_append, ← countIn, ← countIn, ← ih,
        List.filter_cons, allowedAt?_eq]
      cases hverdict : verdict? call.trace with
      | none => simp [countIn]
      | some verdict =>
          by_cases hcount : verdict.count ≤ maxRequests
          · by_cases hin : t < verdict.timestamp + windowSecs * 1000 ∧
                verdict.timestamp ≤ t
            · simp [hcount, sub_lt_iff_lt_add, hin, countIn,
                SlidingWindow.windowSum, Verdict.time, Nat.add_comm]
            · simp [hcount, sub_lt_iff_lt_add, hin, countIn,
                SlidingWindow.windowSum, Verdict.time]
          · simp [hcount, countIn]

/-- What holds whenever a pipeline is about to reach Redis. -/
def AtPipelines
    (P : World (check key maxRequests windowSecs) Shared → ℕ → String → Prop)
    (w : World (check key maxRequests windowSecs) Shared) :
    Action Unit Micros Outcome → Prop
  | .advance index outcome => ∀ call timestamp counter,
      w.calls[index]? = some call →
      call.rest.op? = some (.redis (slide key windowSecs timestamp counter)) →
      outcome.fails = false → P w timestamp (memberOf timestamp counter)
  | _ => True

theorem AtPipelines.of_slide
    {P : World (check key maxRequests windowSecs) Shared → ℕ → String → Prop}
    {w : World (check key maxRequests windowSecs) Shared} {index : ℕ}
    {outcome : Outcome} (h : AtPipelines P w (.advance index outcome))
    {call : Call (check key maxRequests windowSecs)} {op : Op}
    {next : Reply op → RepoM Bool} (hrest : call.rest = .call op next)
    (hcall : w.calls[index]? = some call) (timestamp counter : ℕ)
    (hop : op = .redis (slide key windowSecs timestamp counter))
    (hsent : outcome.fails = false) :
    P w timestamp (memberOf timestamp counter) := by
  subst hop
  exact h call timestamp counter hcall (congrArg Prog.op? hrest) hsent

namespace Sample

/-- One request a second, at a whole second. -/
def world : World (check "global" 1 1) Shared :=
  World.start _ (Shared.start 1_750_000_000_000_000 .empty)

/-- Steps of the call at `index`, nothing failing. -/
def steps (index count : ℕ) : List (Action Unit Micros Outcome) :=
  List.replicate count (.advance index ⟨false, 0, .notSent ""⟩)

/-- Does each pipeline pass the test? -/
def ok (test : World (check "global" 1 1) Shared → ℕ → String → Bool)
    (w : World (check "global" 1 1) Shared) :
    Action Unit Micros Outcome → Bool
  | .advance index _ =>
      match (w.calls[index]?).bind fun call => call.rest.op? with
      | some (.redis (.slideWindow _ _ timestamp member _)) =>
          test w timestamp member
      | _ => true
  | _ => true

/-- When the calls of a world were allowed, and when denied. -/
def seen (w : World (check "global" 1 1) Shared) :
    List (Option ℕ × Option ℕ) :=
  w.calls.map fun call => (allowedAt? call, deniedAt? call)

/-- A list of steps whose pipelines pass the test is a run. -/
theorem exists_run
    (P : World (check "global" 1 1) Shared → ℕ → String → Prop)
    [∀ w timestamp member, Decidable (P w timestamp member)]
    (actions : List (Action Unit Micros Outcome)) (count : ℕ)
    (results : List (Option ℕ × Option ℕ))
    (h : (exec (World.step proxySemantics)
      (ok fun w timestamp member => decide (P w timestamp member)) world
      actions).map (fun w => (w.steps, seen w)) = some (count, results)) :
    ∃ w, Run (World.step proxySemantics) (AtPipelines P) world w ∧
      w.steps = count ∧ seen w = results := by
  obtain ⟨w, hexec, hseen⟩ := Option.map_eq_some_iff.mp h
  refine ⟨w, (run_of_exec hexec).mono ?_, congrArg Prod.fst hseen,
    congrArg Prod.snd hseen⟩
  intro w action hok
  cases action with
  | advance index outcome =>
      intro call timestamp counter hcall hop _
      simp only [ok, hcall, Option.bind_some, hop] at hok
      exact of_decide_eq_true hok
  | arrive => trivial
  | external => trivial

theorem length_allowedIn (t : ℤ) (w : World (check "global" 1 1) Shared) :
    (allowedIn t w).length = (seen w).countP fun result =>
      result.1.any fun timestamp : ℕ =>
        decide (t - (1 : ℕ) * 1000 < timestamp ∧ timestamp ≤ t) := by
  rw [seen, List.countP_map, List.countP_eq_length_filter]
  rfl

end Sample

/-! ### At most the limit in every window -/

/-- The pipelines come in the order of their timestamps, and none comes after
the set has expired while an allowed call is still in its window. -/
structure OnTime (w : World (check key maxRequests windowSecs) Shared)
    (timestamp : ℕ) (member : String) : Prop where
  inOrder : ∀ verdict ∈ verdicts w, verdict.timestamp ≤ timestamp
  notExpired : ∀ verdict ∈ allowed w,
    timestamp < verdict.timestamp + windowSecs * 1000 →
    w.shared.redis.SetLive w.shared.now (redisKey key)

instance (w : World (check key maxRequests windowSecs) Shared)
    (timestamp : ℕ) (member : String) :
    Decidable (OnTime w timestamp member) :=
  decidable_of_iff
    ((∀ verdict ∈ verdicts w, verdict.timestamp ≤ timestamp) ∧
      ∀ verdict ∈ allowed w,
        timestamp < verdict.timestamp + windowSecs * 1000 →
        w.shared.redis.SetLive w.shared.now (redisKey key))
    ⟨fun h => ⟨h.1, h.2⟩, fun h => ⟨h.1, h.2⟩⟩

/-- The entry of an allowed call is in the set until a pipeline a window later
has evicted it or the set has expired. -/
def EntriesHeld (w : World (check key maxRequests windowSecs) Shared) :
    Prop :=
  ∀ verdict ∈ allowed w,
    verdict.entry ∈ w.shared.redis.members w.shared.now (redisKey key) ∨
    (∃ later ∈ verdicts w,
      verdict.timestamp + windowSecs * 1000 ≤ later.timestamp) ∨
    ¬ w.shared.redis.SetLive w.shared.now (redisKey key)

variable {w : World (check key maxRequests windowSecs) Shared}
variable {timestamp counter : ℕ}

/-- A pipeline on time finds the allowed calls of its window. -/
theorem EntriesHeld.kept (h : EntriesHeld w)
    (hontime : OnTime w timestamp (memberOf timestamp counter))
    (hnew : counter ∉ (verdicts w).map Verdict.counter) {verdict : Verdict}
    (hverdict : verdict ∈ allowed w)
    (hwindow : timestamp < verdict.timestamp + windowSecs * 1000) :
    verdict.entry ∈ w.shared.redis.kept w.shared.now (redisKey key)
      (timestamp - windowSecs * 1000) (memberOf timestamp counter) := by
  have hmem : verdict ∈ verdicts w := (List.mem_filter.mp hverdict).1
  rw [RedisDb.kept, List.mem_filter, decide_eq_true_eq]
  refine ⟨?_, ?_, ?_⟩
  · rcases h verdict hverdict with hheld | ⟨later, hlater, hevicted⟩ | hexpired
    · exact hheld
    · have hle := hontime.inOrder later hlater
      omega
    · exact absurd (hontime.notExpired verdict hverdict hwindow) hexpired
  · rw [Verdict.entry]
    omega
  · intro hsame
    apply hnew
    rw [← memberOf_inj hsame]
    exact List.mem_map_of_mem hmem

/-- Different numbers make different entries. -/
theorem entries_nodup {verdicts : List Verdict}
    (h : (verdicts.map Verdict.counter).Nodup) :
    (verdicts.map Verdict.entry).Nodup := by
  apply List.pairwise_map.mpr
  apply (List.pairwise_map.mp h).imp
  intro first second hne heq
  exact hne (memberOf_inj (congrArg Prod.snd heq))

/-- What a pipeline on time counts is at least what was allowed. -/
theorem EntriesHeld.recent_le (h : EntriesHeld w)
    (hontime : OnTime w timestamp (memberOf timestamp counter))
    (hnew : counter ∉ (verdicts w).map Verdict.counter)
    (hnodup : ((verdicts w).map Verdict.counter).Nodup) :
    SlidingWindow.recentSum Verdict.time (windowSecs * 1000) (fun _ => 1)
      timestamp (allowed w) ≤
    (w.shared.redis.kept w.shared.now (redisKey key)
      (timestamp - windowSecs * 1000) (memberOf timestamp counter)).length := by
  have hentries : (((allowed w).filter fun verdict =>
      decide ((timestamp : ℤ) < verdict.time + windowSecs * 1000)).map
        Verdict.entry).Nodup := by
    apply List.Sublist.nodup _ (entries_nodup hnodup)
    exact (List.filter_sublist.trans List.filter_sublist).map _
  rw [SlidingWindow.recentSum_one, ← List.length_map Verdict.entry]
  apply (List.subperm_of_subset hentries _).length_le
  intro entry hentry
  obtain ⟨verdict, hverdict, rfl⟩ := List.mem_map.mp hentry
  rw [List.mem_filter, decide_eq_true_eq, Verdict.time] at hverdict
  exact h.kept hontime hnew hverdict.1 (by omega)

section Moves

variable {w' : World (check key maxRequests windowSecs) Shared} {op : Op}
variable {outcome : Outcome}

/-- A new verdict is one more of those that allow a call, or changes none. -/
theorem allowed_perm {verdict : Verdict}
    (hverdicts : (verdicts w').Perm (verdict :: verdicts w)) :
    verdict.count ≤ maxRequests ∧ (allowed w').Perm (verdict :: allowed w) ∨
      (allowed w').Perm (allowed w) := by
  have hallowed := hverdicts.filter fun verdict =>
    decide (verdict.count ≤ maxRequests)
  rw [List.filter_cons] at hallowed
  split at hallowed
  · rename_i hcount
    exact Or.inl ⟨of_decide_eq_true hcount, hallowed⟩
  · exact Or.inr hallowed

theorem EntriesHeld.moves (h : EntriesHeld w) (hmoves : Moves op outcome w w')
    (hnow : w'.shared.now = w.shared.now)
    (hontime : ∀ timestamp counter,
      op = .redis (slide key windowSecs timestamp counter) →
      outcome.fails = false →
      OnTime w timestamp (memberOf timestamp counter))
    (hnodup : ((verdicts w').map Verdict.counter).Nodup) :
    EntriesHeld w' := by
  cases hmoves with
  | quiet hredis hverdicts =>
      unfold EntriesHeld allowed
      rw [hverdicts, hredis, hnow]
      exact h
  | @slid timestamp counter hop hsent hredis hverdicts =>
      rw [(hverdicts.map Verdict.counter).nodup_iff, List.map_cons,
        List.nodup_cons] at hnodup
      have hontime := hontime timestamp counter hop hsent
      intro verdict hverdict
      obtain ⟨hmem, hcount⟩ := List.mem_filter.mp hverdict
      by_cases hlive : w'.shared.redis.SetLive w'.shared.now (redisKey key)
      · have hmembers : w'.shared.redis.members w'.shared.now (redisKey key) =
            w.shared.redis.kept w.shared.now (redisKey key)
              (timestamp - windowSecs * 1000) (memberOf timestamp counter) ++
            [(timestamp, memberOf timestamp counter)] := by
          rw [hredis, slide, RedisDb.setLive_slideWindow_iff] at hlive
          rw [hredis, slide, RedisDb.members_slideWindow, if_pos hlive]
        rw [hmembers, List.mem_append]
        rcases List.mem_cons.mp (hverdicts.mem_iff.mp hmem) with rfl | hold
        · exact Or.inl (Or.inr (List.mem_singleton_self _))
        · by_cases hwindow : timestamp < verdict.timestamp + windowSecs * 1000
          · exact Or.inl (Or.inl (h.kept hontime hnodup.1
              (List.mem_filter.mpr ⟨hold, hcount⟩) hwindow))
          · exact Or.inr (Or.inl ⟨_, hverdicts.mem_iff.mpr
              List.mem_cons_self, not_lt.mp hwindow⟩)
      · exact Or.inr (Or.inr hlive)
  | @undone denied hmem hcount hredis hverdicts =>
      rw [hverdicts] at hnodup
      unfold EntriesHeld allowed
      rw [hverdicts, hredis, hnow, undo, RedisDb.members_zrem]
      intro verdict hverdict
      refine (h verdict hverdict).imp ?_
        (Or.imp_right (mt RedisDb.SetLive.of_zrem))
      intro hheld
      rw [List.mem_filter, decide_eq_true_eq]
      refine ⟨hheld, ?_⟩
      intro hsame
      obtain ⟨hold, hle⟩ := List.mem_filter.mp hverdict
      obtain rfl := List.inj_on_of_nodup_map hnodup hold hmem
        (memberOf_inj hsame)
      exact absurd (of_decide_eq_true hle) (not_le.mpr hcount)

/-- A verdict that allows a call is one more in its windows, any other step
changes none. -/
theorem countIn_moves (h : EntriesHeld w) (hmoves : Moves op outcome w w')
    (hontime : ∀ timestamp counter,
      op = .redis (slide key windowSecs timestamp counter) →
      outcome.fails = false →
      OnTime w timestamp (memberOf timestamp counter))
    (hnodup : ((verdicts w').map Verdict.counter).Nodup)
    (hbound : ∀ t, countIn windowSecs t (allowed w) ≤ maxRequests) (t : ℤ) :
    countIn windowSecs t (allowed w') ≤ maxRequests := by
  cases hmoves with
  | quiet _ hverdicts =>
      rw [allowed, hverdicts]
      exact hbound t
  | @slid timestamp counter hop hsent _ hverdicts =>
      rw [(hverdicts.map Verdict.counter).nodup_iff, List.map_cons,
        List.nodup_cons] at hnodup
      have hrecent := h.recent_le (hontime timestamp counter hop hsent)
        hnodup.1 hnodup.2
      rcases allowed_perm hverdicts with ⟨hcount, hnew⟩ | hsame
      · have hsnoc := hnew.trans (List.perm_append_singleton _ _).symm
        rw [countIn, SlidingWindow.windowSum_perm _ _ _ hsnoc]
        apply SlidingWindow.windowSum_snoc_le _ _ (fun _ => Nat.zero_le 1) _
          hbound t
        exact (Nat.add_le_add_right hrecent 1).trans hcount
      · rw [countIn, SlidingWindow.windowSum_perm _ _ _ hsame]
        exact hbound t
  | undone _ _ _ hverdicts =>
      rw [allowed, hverdicts]
      exact hbound t

end Moves

theorem EntriesHeld.external (h : EntriesHeld w) (elapsed : Micros) :
    EntriesHeld { w with shared :=
      { w.shared with now := w.shared.now + elapsed } } := by
  intro verdict hverdict
  have hle : w.shared.now ≤ w.shared.now + elapsed := Nat.le_add_right _ _
  by_cases hlive : w.shared.redis.SetLive (w.shared.now + elapsed)
      (redisKey key)
  · rw [RedisDb.members_of_live hle hlive]
    apply (h verdict hverdict).imp_right
    intro hgone
    apply hgone.imp_right
    intro hexpired
    exact absurd (hlive.earlier hle) hexpired
  · exact Or.inr (Or.inr hlive)

variable {now : Micros} {db : Db}

/-- In no half-open window are more calls allowed than the limit, when the
pipelines are on time and the counter does not wrap around. -/
theorem allowedIn_le
    (run : Run (World.step proxySemantics) (AtPipelines OnTime)
      (World.start (check key maxRequests windowSecs)
        (Shared.start now db)) w)
    (hsteps : w.steps < 2 ^ 64) (t : ℤ) :
    (allowedIn t w).length ≤ maxRequests := by
  rw [length_allowedIn]
  suffices h : w.steps < 2 ^ 64 → EntriesHeld w ∧
      ∀ t, countIn windowSecs t (allowed w) ≤ maxRequests from (h hsteps).2 t
  refine World.reachable_invariant (I := fun w => w.steps < 2 ^ 64 →
    EntriesHeld w ∧ ∀ t, countIn windowSecs t (allowed w) ≤ maxRequests)
    run ?_ ?_ ?_ ?_
  · intro _
    constructor
    · rintro _ ⟨⟩
    · intro t
      exact Nat.zero_le _
  · intro w _ _ h _
    unfold EntriesHeld allowed
    rw [verdicts_arrive]
    exact h
  · intro w elapsed _ h _ hlt
    obtain ⟨hheld, hbound⟩ := h hlt
    exact ⟨hheld.external elapsed, hbound⟩
  · intro w index call op next outcome hrest hcall hrun h hguard hlt
    obtain ⟨hheld, hbound⟩ := h (Nat.lt_of_succ_lt hlt)
    have hmoves := perform_moves hrest hcall outcome
    have hnodup := verdicts_nodup (hrun.snoc hguard
      (World.step_perform hrest hcall outcome)) hlt
    have hontime := hguard.of_slide hrest hcall
    exact ⟨hheld.moves hmoves (perform_now _ _ _) hontime hnodup,
      countIn_moves hheld hmoves hontime hnodup hbound⟩

/-- Two calls in one millisecond: one is allowed. -/
theorem allowedIn_le_sample : ∃ w,
    Run (World.step proxySemantics) (AtPipelines OnTime) Sample.world w ∧
    Sample.seen w = [(some 1_750_000_000_000, none),
      (none, some 1_750_000_000_000)] ∧
    ∀ t, (allowedIn t w).length ≤ 1 := by
  obtain ⟨w, run, hsteps, hseen⟩ := Sample.exists_run OnTime
    ([.arrive (), .arrive ()] ++ (Sample.steps 0 4 ++ Sample.steps 1 5)) 9
    [(some 1_750_000_000_000, none), (none, some 1_750_000_000_000)]
    (by decide)
  exact ⟨w, run, hseen, allowedIn_le run (by omega)⟩

/-- A pipeline that is two seconds late finds the set expired: two calls of one
millisecond are allowed. -/
theorem not_allowedIn_le : ¬ ∀ key maxRequests windowSecs now db w,
    Run (World.step proxySemantics)
      (AtPipelines fun w timestamp _ =>
        ∀ verdict ∈ verdicts w, verdict.timestamp ≤ timestamp)
      (World.start (check key maxRequests windowSecs)
        (Shared.start now db)) w →
    ∀ t, (allowedIn t w).length ≤ maxRequests := by
  intro h
  obtain ⟨w, run, _, hseen⟩ := Sample.exists_run
    (fun w timestamp _ => ∀ verdict ∈ verdicts w,
      verdict.timestamp ≤ timestamp)
    ([.arrive (), .arrive ()] ++ (Sample.steps 0 3 ++ (Sample.steps 1 3 ++
      (Sample.steps 0 1 ++ (.external 2_000_000 :: Sample.steps 1 1))))) 8
    [(some 1_750_000_000_000, none), (some 1_750_000_000_000, none)]
    (by decide)
  have hle := h _ _ _ _ _ w run 1_750_000_000_000
  rw [Sample.length_allowedIn, hseen] at hle
  exact absurd hle (by decide)

/-! ### Denied only for calls that were allowed -/

/-- An entry that no call allowed by `timestamp` accounts for: it is dated
later, or a denied call has left it. -/
def Stray (w : World (check key maxRequests windowSecs) Shared)
    (timestamp : ℕ) (entry : ℕ × String) : Prop :=
  timestamp < entry.1 ∨
    ∃ verdict ∈ verdicts w, maxRequests < verdict.count ∧
      verdict.entry = entry

instance (w : World (check key maxRequests windowSecs) Shared)
    (timestamp : ℕ) (entry : ℕ × String) : Decidable (Stray w timestamp entry) :=
  inferInstanceAs (Decidable (_ ∨ _))

/-- The stray entries do not make the difference: the limit is not reached with
them, or is reached without them. -/
def NotTipped (w : World (check key maxRequests windowSecs) Shared)
    (timestamp : ℕ) (member : String) : Prop :=
  let counted := w.shared.redis.kept w.shared.now (redisKey key)
    (timestamp - windowSecs * 1000) member
  counted.length < maxRequests ∨
    maxRequests ≤ (counted.filter fun entry =>
      ¬ Stray w timestamp entry).length

instance (w : World (check key maxRequests windowSecs) Shared)
    (timestamp : ℕ) (member : String) :
    Decidable (NotTipped w timestamp member) :=
  inferInstanceAs (Decidable (_ ∨ _))

/-- The entries of the set are those of calls, each of them once. -/
structure EntriesOwned (w : World (check key maxRequests windowSecs) Shared) :
    Prop where
  owned : ∀ entry ∈ w.shared.redis.members w.shared.now (redisKey key),
    ∃ verdict ∈ verdicts w, verdict.entry = entry
  nodup : (w.shared.redis.members w.shared.now (redisKey key)).Nodup

/-- For every denied call the limit was reached by calls allowed in its
window. -/
def DeniedForAllowed (w : World (check key maxRequests windowSecs) Shared) :
    Prop :=
  ∀ verdict ∈ verdicts w, maxRequests < verdict.count →
    maxRequests ≤ countIn windowSecs verdict.timestamp (allowed w)

/-- What is counted and not stray was allowed in the window. -/
theorem EntriesOwned.count_le (h : EntriesOwned w) :
    ((w.shared.redis.kept w.shared.now (redisKey key)
        (timestamp - windowSecs * 1000) (memberOf timestamp counter)).filter
      fun entry => ¬ Stray w timestamp entry).length ≤
      countIn windowSecs timestamp (allowed w) := by
  rw [countIn, SlidingWindow.windowSum_one, ← List.length_map Verdict.entry]
  apply (List.subperm_of_subset ((h.nodup.filter _).filter _) _).length_le
  intro entry hentry
  rw [List.mem_filter, decide_eq_true_eq] at hentry
  obtain ⟨hkept, hstray⟩ := hentry
  rw [List.mem_filter, decide_eq_true_eq] at hkept
  obtain ⟨verdict, hverdict, rfl⟩ := h.owned entry hkept.1
  rw [Stray, not_or, not_lt] at hstray
  have hcount : verdict.count ≤ maxRequests := by
    by_contra hover
    exact hstray.2 ⟨verdict, hverdict, not_le.mp hover, rfl⟩
  apply List.mem_map_of_mem
  rw [List.mem_filter, decide_eq_true_eq, allowed, List.mem_filter,
    decide_eq_true_eq]
  have hafter := hkept.2.1
  have hbefore := hstray.1
  rw [Verdict.entry] at hafter hbefore
  refine ⟨⟨hverdict, hcount⟩, ?_, ?_⟩
  · rw [Verdict.time]
    omega
  · rw [Verdict.time]
    omega

section Moves

variable {w' : World (check key maxRequests windowSecs) Shared} {op : Op}
variable {outcome : Outcome}

theorem EntriesOwned.moves (h : EntriesOwned w)
    (hmoves : Moves op outcome w w') (hnow : w'.shared.now = w.shared.now) :
    EntriesOwned w' := by
  cases hmoves with
  | quiet hredis hverdicts =>
      constructor
      · rw [hverdicts, hredis, hnow]
        exact h.owned
      · rw [hredis, hnow]
        exact h.nodup
  | @slid timestamp counter hop hsent hredis hverdicts =>
      rw [slide] at hredis
      constructor
      · rw [hredis, RedisDb.members_slideWindow]
        split
        · intro entry hentry
          rcases List.mem_append.mp hentry with hkept | hnew
          · obtain ⟨verdict, hverdict, hsame⟩ :=
              h.owned entry (List.mem_filter.mp hkept).1
            exact ⟨verdict, hverdicts.mem_iff.mpr
              (List.mem_cons_of_mem _ hverdict), hsame⟩
          · rw [List.mem_singleton] at hnew
            exact ⟨_, hverdicts.mem_iff.mpr List.mem_cons_self, hnew.symm⟩
        · simp
      · rw [hredis, RedisDb.members_slideWindow]
        split
        · apply List.Nodup.append (h.nodup.filter _) (List.nodup_singleton _)
          intro entry hkept hnew
          rw [List.mem_singleton] at hnew
          rw [List.mem_filter, decide_eq_true_eq, hnew] at hkept
          exact hkept.2.2 rfl
        · exact List.nodup_nil
  | undone _ _ hredis hverdicts =>
      rw [undo] at hredis
      constructor
      · rw [hverdicts, hredis, hnow, RedisDb.members_zrem]
        intro entry hentry
        exact h.owned entry (List.mem_filter.mp hentry).1
      · rw [hredis, hnow, RedisDb.members_zrem]
        exact h.nodup.filter _

theorem EntriesOwned.external (h : EntriesOwned w) (elapsed : Micros) :
    EntriesOwned { w with shared :=
      { w.shared with now := w.shared.now + elapsed } } := by
  by_cases hlive : w.shared.redis.SetLive (w.shared.now + elapsed)
      (redisKey key)
  · have hmembers := RedisDb.members_of_live (Nat.le_add_right _ _) hlive
    constructor
    · rw [hmembers]
      exact h.owned
    · rw [hmembers]
      exact h.nodup
  · have hmembers := RedisDb.members_eq_nil hlive
    constructor
    · rw [hmembers]
      simp
    · rw [hmembers]
      exact List.nodup_nil

/-- A verdict is only added: no window loses an allowed call. -/
theorem countIn_mono (hmoves : Moves op outcome w w') (t : ℤ) :
    countIn windowSecs t (allowed w) ≤ countIn windowSecs t (allowed w') := by
  cases hmoves with
  | quiet _ hverdicts => rw [allowed, allowed, hverdicts]
  | slid _ _ _ hverdicts =>
      rw [countIn, countIn]
      rcases allowed_perm hverdicts with ⟨_, hnew⟩ | hsame
      · rw [SlidingWindow.windowSum_perm _ _ _ hnew,
          ← List.singleton_append, SlidingWindow.windowSum_append]
        exact Nat.le_add_left _ _
      · exact (SlidingWindow.windowSum_perm _ _ _ hsame).ge
  | undone _ _ _ hverdicts => rw [allowed, allowed, hverdicts]

theorem DeniedForAllowed.moves (h : DeniedForAllowed w)
    (howned : EntriesOwned w) (hmoves : Moves op outcome w w')
    (hnottipped : ∀ timestamp counter,
      op = .redis (slide key windowSecs timestamp counter) →
      outcome.fails = false →
      NotTipped w timestamp (memberOf timestamp counter)) :
    DeniedForAllowed w' := by
  intro verdict hverdict hover
  apply Nat.le_trans _ (countIn_mono hmoves verdict.timestamp)
  cases hmoves with
  | quiet _ hverdicts =>
      rw [hverdicts] at hverdict
      exact h verdict hverdict hover
  | @slid timestamp counter hop hsent _ hverdicts =>
      rcases List.mem_cons.mp (hverdicts.mem_iff.mp hverdict) with rfl | hold
      · have hreached := hnottipped timestamp counter hop hsent
        rcases hreached with hbelow | hreached
        · exact absurd (Nat.lt_succ_iff.mp hover) (not_le.mpr hbelow)
        · exact hreached.trans howned.count_le
      · exact h verdict hold hover
  | undone _ _ _ hverdicts =>
      rw [hverdicts] at hverdict
      exact h verdict hverdict hover

end Moves

/-- A call is denied only if the limit was reached by other calls allowed in its
window, when stray entries never make the difference. -/
theorem deniedAt_of_allowedIn
    (run : Run (World.step proxySemantics) (AtPipelines NotTipped)
      (World.start (check key maxRequests windowSecs)
        (Shared.start now db)) w) :
    ∀ call ∈ w.calls, ∀ timestamp ∈ deniedAt? call,
      call ∉ allowedIn timestamp w ∧
        maxRequests ≤ (allowedIn timestamp w).length := by
  have hinvariant : EntriesOwned w ∧ DeniedForAllowed w := by
    refine World.invariant (I := fun w => EntriesOwned w ∧
      DeniedForAllowed w) run ?_ ?_ ?_ ?_
    · constructor
      · exact ⟨fun _ h => absurd h List.not_mem_nil, List.nodup_nil⟩
      · exact fun _ h => absurd h List.not_mem_nil
    · intro w _ h _
      constructor
      · constructor
        · rw [verdicts_arrive]
          exact h.1.owned
        · exact h.1.nodup
      · unfold DeniedForAllowed allowed
        rw [verdicts_arrive]
        exact h.2
    · intro w elapsed h _
      exact ⟨h.1.external elapsed, h.2⟩
    · intro w index call op next outcome hrest hcall h hguard
      have hmoves := perform_moves hrest hcall outcome
      exact ⟨h.1.moves hmoves (perform_now _ _ _),
        h.2.moves h.1 hmoves (hguard.of_slide hrest hcall)⟩
  intro call hcall timestamp htimestamp
  rw [Option.mem_def, deniedAt?, Option.bind_eq_some_iff] at htimestamp
  obtain ⟨verdict, hverdict, hdenied⟩ := htimestamp
  rw [Option.ite_none_right_eq_some] at hdenied
  obtain ⟨hover, heq⟩ := hdenied
  cases heq
  have hmem := mem_verdicts hcall hverdict
  constructor
  · rw [allowedIn, List.mem_filter, allowedAt?_eq, hverdict]
    simp [not_le.mpr hover]
  · rw [length_allowedIn]
    exact hinvariant.2 verdict hmem hover

/-- The second of two calls in one millisecond is denied for the first. -/
theorem deniedAt_of_allowedIn_sample : ∃ w,
    Run (World.step proxySemantics) (AtPipelines NotTipped) Sample.world w ∧
    Sample.seen w = [(some 1_750_000_000_000, none),
      (none, some 1_750_000_000_000)] ∧
    ∀ call ∈ w.calls, ∀ timestamp ∈ deniedAt? call,
      call ∉ allowedIn timestamp w ∧ 1 ≤ (allowedIn timestamp w).length := by
  obtain ⟨w, run, _, hseen⟩ := Sample.exists_run NotTipped
    ([.arrive (), .arrive ()] ++ (Sample.steps 0 4 ++ Sample.steps 1 5)) 9
    [(some 1_750_000_000_000, none), (none, some 1_750_000_000_000)]
    (by decide)
  exact ⟨w, run, hseen, deniedAt_of_allowedIn run⟩

/-- A denied call whose entry is not yet out again when the window of the
allowed one is over: the next call is denied, and nothing was allowed. -/
theorem not_deniedAt_of_allowedIn : ¬ ∀ key maxRequests windowSecs now db w,
    Run (World.step proxySemantics) always
      (World.start (check key maxRequests windowSecs)
        (Shared.start now db)) w →
    ∀ call ∈ w.calls, ∀ timestamp ∈ deniedAt? call,
      call ∉ allowedIn timestamp w ∧
        maxRequests ≤ (allowedIn timestamp w).length := by
  intro h
  obtain ⟨w, run, _, hseen⟩ := Sample.exists_run (fun _ _ _ => True)
    ([.arrive (), .arrive (), .arrive ()] ++ (Sample.steps 0 4 ++
      (.external 1_000 :: (Sample.steps 1 4 ++ (.external 999_000 ::
        Sample.steps 2 4))))) 12
    [(some 1_750_000_000_000, none), (none, some 1_750_000_000_001),
      (none, some 1_750_000_001_000)] (by decide)
  have hmem : (none, some 1_750_000_001_000) ∈ Sample.seen w := by
    rw [hseen]
    simp
  obtain ⟨call, hcall, hsame⟩ := List.mem_map.mp hmem
  have hle := (h _ _ _ _ _ w (run.mono fun _ _ _ => trivial) call hcall
    1_750_000_001_000 (congrArg Prod.snd hsame)).2
  rw [Sample.length_allowedIn, hseen] at hle
  exact absurd hle (by decide)

end RateLimiter

end X402Guard

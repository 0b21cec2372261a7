/-
The Redis database behind the nonce store and the rate limiter: string keys
with a time to live and sorted sets.  A command, or a MULTI pipeline, is one
step.
-/
import X402Guard.ServerTypes

namespace X402Guard

/-- A string key and the instant it disappears. -/
structure StringEntry where
  key : String
  expiresAt : Micros
deriving DecidableEq, Repr

structure SortedSet where
  key : String
  /-- Scores with their members. -/
  members : List (Nat × String)
  expiresAt : Micros
deriving DecidableEq, Repr

structure RedisDb where
  strings : List StringEntry
  sortedSets : List SortedSet
deriving DecidableEq, Repr

inductive Command
  /-- `SET key 1 NX EX ttl`. -/
  | setNxEx (key : String) (ttlSecs : Nat)
  /-- The pipeline ZREMRANGEBYSCORE 0 windowStart, ZADD, ZCARD, EXPIRE. -/
  | slideWindow (key : String) (windowStart : Int) (score : Nat)
      (member : String) (ttlSecs : Nat)
  | zrem (key member : String)
deriving DecidableEq, Repr

@[reducible] def Command.Answer : Command → Type
  | .setNxEx .. => Bool
  | .slideWindow .. => List Nat
  | .zrem .. => Nat

namespace RedisDb

def empty : RedisDb := ⟨[], []⟩

/-- The key exists at `now`. -/
def Live (now : Micros) (redis : RedisDb) (key : String) : Prop :=
  ∃ entry ∈ redis.strings, entry.key = key ∧ now < entry.expiresAt

instance (now : Micros) (redis : RedisDb) (key : String) :
    Decidable (redis.Live now key) :=
  inferInstanceAs (Decidable (∃ entry ∈ redis.strings, _))

/-- The members of a sorted set, none if it does not exist. -/
def members (now : Micros) (redis : RedisDb) (key : String) :
    List (Nat × String) :=
  match redis.sortedSets.find? fun set => set.key = key with
  | some set => if now < set.expiresAt then set.members else []
  | none => []

def removeSet (redis : RedisDb) (key : String) : RedisDb :=
  { redis with sortedSets :=
      redis.sortedSets.filter fun other => other.key ≠ key }

def putSet (redis : RedisDb) (set : SortedSet) : RedisDb :=
  { redis with sortedSets := set :: (redis.removeSet set.key).sortedSets }

end RedisDb

def Command.run (now : Micros) (redis : RedisDb) :
    (command : Command) → command.Answer × RedisDb
  | .setNxEx key ttlSecs =>
      if redis.Live now key then (false, redis)
      else (true, { redis with strings :=
        ⟨key, now + ttlSecs * microsPerSecond⟩ :: redis.strings })
  | .slideWindow key windowStart score member ttlSecs =>
      let kept := (redis.members now key).filter fun entry =>
        windowStart < entry.1 ∧ entry.2 ≠ member
      let all := kept ++ [(score, member)]
      ([all.length],
        redis.putSet ⟨key, all, now + ttlSecs * microsPerSecond⟩)
  | .zrem key member =>
      let all := redis.members now key
      let kept := all.filter fun entry => entry.2 ≠ member
      match redis.sortedSets.find? fun set => set.key = key with
      | some set =>
          -- a set that loses its last member is removed with it
          (all.length - kept.length,
            if kept = [] then redis.removeSet key
            else redis.putSet { set with members := kept })
      | none => (0, redis)

namespace RedisDb

/-- `key` is taken at least until `instant`. -/
def ReservedUntil (redis : RedisDb) (key : String) (instant : Micros) : Prop :=
  ∃ entry ∈ redis.strings, entry.key = key ∧ instant ≤ entry.expiresAt

/-- No command removes a key before its time. -/
theorem ReservedUntil.run {redis : RedisDb} {key : String}
    {instant now : Micros} (h : redis.ReservedUntil key instant)
    (command : Command) :
    (command.run now redis).2.ReservedUntil key instant := by
  obtain ⟨entry, hentry, hkey, hle⟩ := h
  refine ⟨entry, ?_, hkey, hle⟩
  cases command with
  | setNxEx key' ttlSecs =>
      simp only [Command.run]
      split
      · exact hentry
      · exact List.mem_cons_of_mem _ hentry
  | slideWindow => exact hentry
  | zrem key' member =>
      simp only [Command.run]
      split
      · split <;> exact hentry
      · exact hentry

/-- SET NX succeeds only once every earlier reservation has run out, and takes
the key for its time to live. -/
theorem setNxEx_true {redis : RedisDb} {key : String} {ttlSecs : Nat}
    {now : Micros}
    (h : ((Command.setNxEx key ttlSecs).run now redis).1 = true) :
    (∀ instant, redis.ReservedUntil key instant → instant ≤ now) ∧
      ((Command.setNxEx key ttlSecs).run now redis).2.ReservedUntil key
        (now + ttlSecs * microsPerSecond) := by
  simp only [Command.run] at h ⊢
  split at h
  · cases h
  · rename_i hfree
    refine ⟨?_, ?_⟩
    · rintro instant ⟨entry, hentry, hkey, hle⟩
      by_contra hlt
      exact hfree ⟨entry, hentry, hkey,
        Nat.lt_of_lt_of_le (Nat.not_le.mp hlt) hle⟩
    · rw [ite_cond_eq_false _ _ (eq_false hfree)]
      exact ⟨_, List.mem_cons_self, rfl, Nat.le_refl _⟩

/-- SET NX takes its own key, and only when it answers `true`. -/
theorem setNxEx_reservedUntil_iff {redis : RedisDb} {key key' : String}
    {ttlSecs : Nat} {now instant : Micros} :
    ((Command.setNxEx key' ttlSecs).run now redis).2.ReservedUntil key
        instant ↔
      redis.ReservedUntil key instant ∨ (key' = key ∧
        ((Command.setNxEx key' ttlSecs).run now redis).1 = true ∧
        instant ≤ now + ttlSecs * microsPerSecond) := by
  simp only [Command.run]
  split
  · simp
  · simp only [ReservedUntil, List.mem_cons, or_and_right, exists_or,
      exists_eq_left, true_and]
    exact or_comm

theorem live_iff {redis : RedisDb} {key : String} {now : Micros} :
    redis.Live now key ↔ redis.ReservedUntil key (now + 1) :=
  Iff.rfl

/-! ### Sorted sets -/

/-- The sorted set exists at `now`. -/
def SetLive (now : Micros) (redis : RedisDb) (key : String) : Prop :=
  ∃ set ∈ redis.sortedSets.find? fun set => set.key = key,
    now < set.expiresAt

instance (now : Micros) (redis : RedisDb) (key : String) :
    Decidable (redis.SetLive now key) :=
  inferInstanceAs (Decidable (∃ set ∈ _, _))

theorem members_of_find? {redis : RedisDb} {key : String} {set : SortedSet}
    (h : redis.sortedSets.find? (fun set => set.key = key) = some set)
    (now : Micros) :
    redis.members now key = if now < set.expiresAt then set.members else [] := by
  rw [members, h]

theorem setLive_of_find? {redis : RedisDb} {key : String} {set : SortedSet}
    (h : redis.sortedSets.find? (fun set => set.key = key) = some set)
    (now : Micros) : redis.SetLive now key ↔ now < set.expiresAt := by
  simp [SetLive, h]

theorem members_eq_nil {redis : RedisDb} {key : String} {now : Micros}
    (h : ¬ redis.SetLive now key) : redis.members now key = [] := by
  cases hset : redis.sortedSets.find? (fun set => set.key = key) with
  | none => rw [members, hset]
  | some set =>
      rw [members_of_find? hset]
      exact if_neg fun hlive => h ⟨set, hset, hlive⟩

/-- A set that is still there has not changed by itself. -/
theorem members_of_live {redis : RedisDb} {key : String} {now later : Micros}
    (hle : now ≤ later) (h : redis.SetLive later key) :
    redis.members later key = redis.members now key := by
  obtain ⟨set, hset, hlive⟩ := h
  rw [members_of_find? hset, members_of_find? hset, if_pos hlive,
    if_pos (Nat.lt_of_le_of_lt hle hlive)]

theorem SetLive.earlier {redis : RedisDb} {key : String} {now later : Micros}
    (h : redis.SetLive later key) (hle : now ≤ later) :
    redis.SetLive now key := by
  obtain ⟨set, hset, hlive⟩ := h
  exact ⟨set, hset, Nat.lt_of_le_of_lt hle hlive⟩

theorem find?_putSet {redis : RedisDb} {set : SortedSet} {key : String}
    (h : set.key = key) :
    (redis.putSet set).sortedSets.find? (fun other => other.key = key) =
      some set := by
  subst h
  simp [putSet]

theorem find?_removeSet {redis : RedisDb} {key : String} :
    (redis.removeSet key).sortedSets.find? (fun set => set.key = key) =
      none := by
  rw [removeSet, List.find?_eq_none]
  intro set hset
  simpa using (List.mem_filter.mp hset).2

section SlideWindow

variable {now later : Micros} {redis : RedisDb} {key member : String}
variable {windowStart : Int} {score ttlSecs : Nat}

/-- What a pipeline leaves of the set before it adds its own entry. -/
def kept (now : Micros) (redis : RedisDb) (key : String) (windowStart : Int)
    (member : String) : List (Nat × String) :=
  (redis.members now key).filter fun entry =>
    windowStart < entry.1 ∧ entry.2 ≠ member

theorem slideWindow_count :
    ((Command.slideWindow key windowStart score member ttlSecs).run now
      redis).1.head?.getD 0 =
      (redis.kept now key windowStart member).length + 1 := by
  simp [Command.run, kept]

theorem members_slideWindow :
    ((Command.slideWindow key windowStart score member ttlSecs).run now
      redis).2.members later key =
      if later < now + ttlSecs * microsPerSecond then
        redis.kept now key windowStart member ++ [(score, member)]
      else [] :=
  members_of_find? (find?_putSet rfl) later

theorem setLive_slideWindow_iff :
    ((Command.slideWindow key windowStart score member ttlSecs).run now
      redis).2.SetLive later key ↔
      later < now + ttlSecs * microsPerSecond :=
  setLive_of_find? (find?_putSet rfl) later

end SlideWindow

section Zrem

variable {now : Micros} {redis : RedisDb} {key member : String}

/-- There is no set to remove from, or nothing is left of it, or what is left
keeps its time to live. -/
theorem zrem_cases :
    (redis.sortedSets.find? (fun set => set.key = key) = none ∧
      ((Command.zrem key member).run now redis).2 = redis) ∨
    ((redis.members now key).filter (fun entry => entry.2 ≠ member) = [] ∧
      ((Command.zrem key member).run now redis).2 = redis.removeSet key) ∨
    ∃ set after,
      redis.sortedSets.find? (fun set => set.key = key) = some set ∧
      ((Command.zrem key member).run now redis).2 = redis.putSet after ∧
      after.key = key ∧ after.expiresAt = set.expiresAt ∧ after.members =
        (redis.members now key).filter fun entry => entry.2 ≠ member := by
  simp only [Command.run]
  cases hset : redis.sortedSets.find? (fun set => set.key = key) with
  | none => exact Or.inl ⟨rfl, rfl⟩
  | some set =>
      have hkey : set.key = key := by simpa using List.find?_some hset
      by_cases hempty :
          (redis.members now key).filter (fun entry => entry.2 ≠ member) = []
      · exact Or.inr (Or.inl ⟨hempty, if_pos hempty⟩)
      · exact Or.inr (Or.inr ⟨set, _, rfl, if_neg hempty, hkey, rfl, rfl⟩)

theorem members_zrem :
    ((Command.zrem key member).run now redis).2.members now key =
      (redis.members now key).filter fun entry => entry.2 ≠ member := by
  rcases zrem_cases with ⟨hset, heq⟩ | ⟨hempty, heq⟩ |
    ⟨set, after, hset, heq, hkey, hexpires, hmembers⟩
  · rw [heq]
    simp [members, hset]
  · rw [heq, hempty, members, find?_removeSet]
  · rw [heq, members_of_find? (find?_putSet hkey), hexpires, hmembers]
    split
    · rfl
    · rename_i hexpired
      rw [members_of_find? hset, if_neg hexpired]
      rfl

/-- Removing a member creates no set. -/
theorem SetLive.of_zrem
    (h : ((Command.zrem key member).run now redis).2.SetLive now key) :
    redis.SetLive now key := by
  rcases zrem_cases with
    ⟨_, heq⟩ | ⟨_, heq⟩ | ⟨set, after, hset, heq, hkey, hexpires, _⟩
  · rwa [heq] at h
  · rw [heq] at h
    simp [SetLive, find?_removeSet] at h
  · rw [heq, setLive_of_find? (find?_putSet hkey), hexpires] at h
    exact (setLive_of_find? hset now).mpr h

end Zrem

end RedisDb

end X402Guard

import FleetBoard.Proofs.Usage.CacheRuns
import Mathlib.Data.List.Dedup
import Mathlib.Data.List.Perm.Subperm

/-!
# How large the cache of samples gets

Nothing is removed from the cache when it grows old, but only by a put that leaves more entries than
the threshold. That the cache stays small all the same rests on what ties its entries to the puts of
a run: no key is held twice, and an entry carries the time of a put of its key (`Accounts`). If a
put prunes, then what is left was put within the retention window, so there are at most as many
entries as keys that were put then; if it does not, there were few entries in the first place.
-/

namespace FleetBoard

namespace CacheOp

/-- The keys that were put in a run, each with the time of the put. -/
def puts (now : Nat) : List CacheOp → List (CacheKey × Nat)
  | [] => []
  | .put key _ :: ops => (key, now) :: puts now ops
  | op :: ops => puts (now + op.time) ops

/-- The keys that were put in a run at times between two others, each of them once. -/
def keysPutBetween (start : Nat) (ops : List CacheOp) (first last : Nat) : List CacheKey :=
  (((puts start ops).filter fun p => first ≤ p.2 ∧ p.2 ≤ last).map (·.1)).dedup

theorem puts_append (start : Nat) (before after : List CacheOp) :
    puts start (before ++ after) = puts start before ++ puts (clock start before) after := by
  induction before generalizing start with
  | nil => rfl
  | cons op before ih =>
      cases op with
      | put key stats => exact congrArg ((key, start) :: ·) (ih start)
      | get key => exact ih start
      | advance time => exact ih (start + time)

theorem mem_keysPutBetween {start first last moment : Nat} {ops : List CacheOp} {key : CacheKey}
    (put : (key, moment) ∈ puts start ops) (late : first ≤ moment) (early : moment ≤ last) :
    key ∈ keysPutBetween start ops first last := by
  rw [keysPutBetween, List.mem_dedup, List.mem_map]
  exact ⟨(key, moment), List.mem_filter.mpr ⟨put, by simp [late, early]⟩, rfl⟩

end CacheOp

namespace StatsCache

variable {c : StatsCache} {now : Nat} {key : CacheKey} {stats : ContainerStats}

/-- A prune of a cache that is not crowded leaves it as it is. -/
theorem prune_of_uncrowded (uncrowded : ¬ c.config.threshold < c.size) : c.prune now = c :=
  if_neg uncrowded

/-- What a prune of a crowded cache leaves is not past retention. -/
theorem retains_of_mem_prune {e : CacheKey × CacheEntry} (crowded : c.config.threshold < c.size)
    (left : e ∈ (c.prune now).entries) : retains c.config now e.2 = true := by
  rw [prune, if_pos (by exact crowded)] at left
  exact (List.mem_filter.mp left).2

/-- A put takes away what is past retention if it leaves more than the threshold, and nothing
else. -/
theorem crowded_of_gone {other : CacheKey} {e : CacheEntry} (distinct : c.Distinct)
    (held : c.find? other = some e) (gone : (c.put now key stats).find? other = none) :
    c.config.threshold < (c.insert now key stats).size ∧
    c.config.retention < now - e.capturedAt := by
  have different : other ≠ key := by
    rintro rfl
    rw [find?_put_self now other stats distinct] at gone
    cases gone
  refine ⟨?_, ?_⟩
  · by_contra uncrowded
    rw [put, prune_of_uncrowded uncrowded, find?_insert_ne c now key stats different, held] at gone
    cases gone
  · by_contra young
    rw [find?_put_of_retains now key stats distinct different held
      (decide_eq_true (Nat.not_lt.mp young))] at gone
    cases gone

end StatsCache

namespace ClockedCache

/-- What a cache holds after some operations that began with an empty one. -/
structure Accounts (config : CacheConfig) (start : Nat) (ops : List CacheOp) (s : ClockedCache) :
    Prop where
  now : s.now = CacheOp.clock start ops
  config : s.cache.config = config
  distinct : s.cache.Distinct
  /-- An entry carries the time of a put of its key. -/
  put : ∀ e ∈ s.cache.entries, (e.1, e.2.capturedAt) ∈ CacheOp.puts start ops
  past : ∀ e ∈ s.cache.entries, e.2.capturedAt ≤ s.now

namespace Accounts

variable {config : CacheConfig} {start : Nat} {ops : List CacheOp} {s : ClockedCache}

theorem empty (config : CacheConfig) (start : Nat) :
    Accounts config start [] ⟨start, { config := config }⟩ where
  now := rfl
  config := rfl
  distinct := List.nodup_nil
  put := by simp
  past := by simp

/-- One operation keeps the account. -/
theorem step (accounts : Accounts config start ops s) (op : CacheOp) :
    Accounts config start (ops ++ [op]) (s.step op).2 := by
  have now : (s.step op).2.now = CacheOp.clock start (ops ++ [op]) := by
    rw [step_now, CacheOp.clock_concat, accounts.now]
  have earlier : ∀ p ∈ CacheOp.puts start ops, p ∈ CacheOp.puts start (ops ++ [op]) := by
    intro p inside
    rw [CacheOp.puts_append]
    exact List.mem_append_left _ inside
  cases op with
  | put key stats =>
      refine ⟨now, (StatsCache.put_config ..).trans accounts.config,
        StatsCache.distinct_put _ _ _ accounts.distinct, ?_, ?_⟩
      · intro e inside
        rcases StatsCache.mem_put _ _ _ inside with rfl | before
        · rw [CacheOp.puts_append, ← accounts.now]
          exact List.mem_append_right _ List.mem_cons_self
        · exact earlier _ (accounts.put e before)
      · intro e inside
        rcases StatsCache.mem_put _ _ _ inside with rfl | before
        · exact Nat.le_refl s.now
        · exact accounts.past e before
  | get key =>
      exact ⟨now, accounts.config, accounts.distinct, fun e inside =>
        earlier _ (accounts.put e inside), accounts.past⟩
  | advance time =>
      exact ⟨now, accounts.config, accounts.distinct, fun e inside =>
        earlier _ (accounts.put e inside), fun e inside =>
          Nat.le_trans (accounts.past e inside) (Nat.le_add_right s.now time)⟩

theorem run (config : CacheConfig) (start : Nat) (ops : List CacheOp) :
    Accounts config start ops (machine.feed ⟨start, { config := config }⟩ ops).2 := by
  induction ops using List.reverseRecOn with
  | nil => exact empty config start
  | append_singleton ops op ih =>
      rw [Transducer.feed_concat]
      exact ih.step op

/-- If nothing is held that is past retention, there is a recent put for every entry. -/
theorem size_le_of_retained (accounts : Accounts config start ops s)
    (retained : ∀ e ∈ s.cache.entries, StatsCache.retains config s.now e.2 = true) :
    s.cache.size ≤ (CacheOp.keysPutBetween start ops (s.now - config.retention) s.now).length := by
  have recent : s.cache.entries.map (·.1) ⊆
      CacheOp.keysPutBetween start ops (s.now - config.retention) s.now := by
    intro key inside
    obtain ⟨e, held, rfl⟩ := List.mem_map.mp inside
    have young := retained e held
    rw [StatsCache.retains, decide_eq_true_eq] at young
    exact CacheOp.mem_keysPutBetween (accounts.put e held) (by omega) (accounts.past e held)
  have fewer := (List.Nodup.subperm accounts.distinct recent).length_le
  rwa [List.length_map] at fewer

/-- After a put there are no more entries than the threshold, or than keys that were put
recently. -/
theorem size_put_le (accounts : Accounts config start ops s) (key : CacheKey)
    (stats : ContainerStats) :
    (s.cache.put s.now key stats).size ≤ max config.threshold
      (CacheOp.keysPutBetween start (ops ++ [.put key stats])
        (s.now - config.retention) s.now).length := by
  by_cases crowded : config.threshold < (s.cache.insert s.now key stats).size
  · rw [← accounts.config] at crowded
    have after := accounts.step (.put key stats)
    refine Nat.le_trans (after.size_le_of_retained ?_) (Nat.le_max_right config.threshold _)
    intro e (left : e ∈ ((s.cache.insert s.now key stats).prune s.now).entries)
    rw [← accounts.config]
    exact StatsCache.retains_of_mem_prune (c := s.cache.insert s.now key stats) crowded left
  · have unpruned : s.cache.put s.now key stats = s.cache.insert s.now key stats :=
      StatsCache.prune_of_uncrowded (accounts.config ▸ crowded)
    rw [unpruned]
    exact Nat.le_trans (Nat.not_lt.mp crowded) (Nat.le_max_left config.threshold _)

end Accounts

/-- What one more operation makes of what a cache holds after some operations. -/
structure BoundedByPuts (config : CacheConfig) (start : Nat) (ops : List CacheOp)
    (s : ClockedCache) : Prop where
  clock : s.now = CacheOp.clock start ops
  held : ∀ key stats, (s.step (.put key stats)).2.cache.find? key = some ⟨stats, s.now⟩
  /-- Of the keys that were put within the retention window each counts once, the key of the put
  included. -/
  few : ∀ key stats, (s.step (.put key stats)).2.cache.size ≤ max config.threshold
    (CacheOp.keysPutBetween start (ops ++ [.put key stats]) (s.now - config.retention) s.now).length
  unchanged : ∀ op, (∀ key stats, op ≠ .put key stats) → (s.step op).2.cache = s.cache
  gone : ∀ op other e, s.cache.find? other = some e → (s.step op).2.cache.find? other = none →
    ∃ key stats, op = .put key stats ∧
      config.threshold < (s.cache.insert s.now key stats).size ∧
      config.retention < s.now - e.capturedAt

/-- At any point of a run that began with an empty cache, whatever its settings: a put leaves the
key held with what has been put, and no more entries than the larger of the threshold and the number
of different keys that were put within the retention window, this one included. Other operations
change nothing that is held. And whatever operation makes an entry disappear is a put which after
its insertion found more entries than the threshold, at a time when this entry was past
retention. -/
theorem size_bounded_by_recent_puts (config : CacheConfig) (start : Nat) (ops : List CacheOp) :
    BoundedByPuts config start ops (machine.feed ⟨start, { config := config }⟩ ops).2 := by
  generalize left : (machine.feed ⟨start, { config := config }⟩ ops).2 = s
  have accounts : Accounts config start ops s := left ▸ .run config start ops
  refine {
    clock := accounts.now
    held := fun key stats => StatsCache.find?_put_self s.now key stats accounts.distinct
    few := accounts.size_put_le
    unchanged := ?_
    gone := ?_ }
  · intro op other
    cases op with
    | put key stats => exact absurd rfl (other key stats)
    | get key | advance time => rfl
  · intro op other e held gone
    cases op with
    | put key stats =>
        rw [← accounts.config]
        exact ⟨key, stats, rfl, StatsCache.crowded_of_gone accounts.distinct held gone⟩
    | get key | advance time =>
        rw [step, held] at gone
        cases gone

def longAgo (sample : ContainerStats) : List CacheOp := [.put "local:web" sample, .advance 20]

/-- A second entry is one more than the threshold allows, so the old one goes. -/
theorem size_bounded_by_recent_puts_longAgo :
    let config : CacheConfig := { ttl := 3, retention := 10, threshold := 1 }
    let sample : ContainerStats := ⟨"web", "local", 0, 0, 0, 0⟩
    let s := (machine.feed ⟨5, { config := config }⟩ (longAgo sample)).2
    let s' := (s.step (.put "local:db" sample)).2
    s.cache.find? "local:web" = some ⟨sample, 5⟩ ∧ s'.cache.find? "local:web" = none ∧
      s'.cache.find? "local:db" = some ⟨sample, 25⟩ ∧ s'.cache.size ≤ 1 ∧
      config.threshold < (s.cache.insert 25 "local:db" sample).size := by
  intro config sample s s'
  have bounded := size_bounded_by_recent_puts config 5 (longAgo sample)
  have left : s'.cache.find? "local:web" = none := rfl
  obtain ⟨key, stats, same, crowded, -⟩ :=
    bounded.gone (.put "local:db" sample) "local:web" ⟨sample, 5⟩ rfl left
  cases same
  exact ⟨rfl, left, bounded.held "local:db" sample, bounded.few "local:db" sample, crowded⟩

end ClockedCache

end FleetBoard

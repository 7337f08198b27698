import FleetBoard.Proofs.Usage.CacheRuns

/-!
# The cache is a map with expiry

A put removes old entries of other keys, with a window of its own. Nobody can tell: the cache
answers as a map does from which nothing is ever removed and which does not answer with what is too
old (`answers_eq`). For settings that are sound, what a prune takes away is past retention, so it is
not fresh and never becomes fresh again.
-/

namespace FleetBoard

/-- A map from which nothing is removed. What is held is answered until it is `ttl` old. -/
structure ExpiringMap where
  ttl : Nat
  now : Nat
  held : CacheKey → Option CacheEntry := fun _ => none

namespace ExpiringMap

def get (m : ExpiringMap) (key : CacheKey) : Option ContainerStats :=
  match m.held key with
  | some e => if m.now - e.capturedAt < m.ttl then some e.stats else none
  | none => none

def put (m : ExpiringMap) (key : CacheKey) (stats : ContainerStats) : ExpiringMap :=
  { m with held := fun other => if other = key then some ⟨stats, m.now⟩ else m.held other }

def step (m : ExpiringMap) : CacheOp → List (Option ContainerStats) × ExpiringMap
  | .put key stats => ([], m.put key stats)
  | .get key => ([m.get key], m)
  | .advance time => ([], { m with now := m.now + time })

def machine : Transducer ExpiringMap CacheOp (Option ContainerStats) where
  step := step
  finish _ := []

@[simp] theorem put_held_self (m : ExpiringMap) (key : CacheKey) (stats : ContainerStats) :
    (m.put key stats).held key = some ⟨stats, m.now⟩ := if_pos rfl

theorem put_held_ne (m : ExpiringMap) (stats : ContainerStats) {key other : CacheKey}
    (different : other ≠ key) : (m.put key stats).held other = m.held other := if_neg different

theorem get_eq_some_iff (m : ExpiringMap) (key : CacheKey) (stats : ContainerStats) :
    m.get key = some stats ↔
      ∃ moment, m.held key = some ⟨stats, moment⟩ ∧ m.now - moment < m.ttl := by
  unfold get
  cases found : m.held key with
  | none => simp
  | some e =>
      constructor
      · intro answered
        dsimp only at answered
        split at answered
        · next fresh =>
            cases answered
            exact ⟨e.capturedAt, rfl, fresh⟩
        · cases answered
      · rintro ⟨moment, same, fresh⟩
        cases same
        exact if_pos fresh

end ExpiringMap

/-! ### The simulation -/

/-- A cache and a map that have seen the same operations. What the cache holds, the map holds too;
what the cache no longer holds is past retention. -/
structure Mirrors (c : ClockedCache) (m : ExpiringMap) : Prop where
  /-- Entries are retained while they are fresh. -/
  sound : c.cache.config.ttl ≤ c.cache.config.retention
  sameTime : c.now = m.now
  sameTtl : c.cache.config.ttl = m.ttl
  distinct : c.cache.Distinct
  held : ∀ key e, c.cache.find? key = some e → m.held key = some e
  kept : ∀ key e, m.held key = some e → StatsCache.retains c.cache.config c.now e = true →
    c.cache.find? key = some e

namespace Mirrors

variable {c : ClockedCache} {m : ExpiringMap}

/-- At the start nothing is held. -/
theorem start {config : CacheConfig} (sound : config.ttl ≤ config.retention) (now : Nat) :
    Mirrors ⟨now, { config := config }⟩ ⟨config.ttl, now, fun _ => none⟩ where
  sound := sound
  sameTime := rfl
  sameTtl := rfl
  distinct := List.nodup_nil
  held := by
    intro key e found
    cases found
  kept := by
    intro key e found
    cases found

theorem put (mirrors : Mirrors c m) (key : CacheKey) (stats : ContainerStats) :
    Mirrors { c with cache := c.cache.put c.now key stats } (m.put key stats) where
  sound := by
    rw [StatsCache.put_config]
    exact mirrors.sound
  sameTime := mirrors.sameTime
  sameTtl := by
    rw [StatsCache.put_config]
    exact mirrors.sameTtl
  distinct := StatsCache.distinct_put c.now key stats mirrors.distinct
  held := by
    intro other e found
    by_cases same : other = key
    · subst same
      rw [StatsCache.find?_put_self c.now other stats mirrors.distinct] at found
      rw [ExpiringMap.put_held_self, ← mirrors.sameTime]
      exact found
    · rw [ExpiringMap.put_held_ne m stats same]
      exact mirrors.held other e
        (StatsCache.find?_of_put c.now key stats mirrors.distinct same found)
  kept := by
    intro other e found young
    rw [StatsCache.put_config] at young
    by_cases same : other = key
    · subst same
      rw [ExpiringMap.put_held_self, ← mirrors.sameTime] at found
      rw [StatsCache.find?_put_self c.now other stats mirrors.distinct]
      exact found
    · rw [ExpiringMap.put_held_ne m stats same] at found
      exact StatsCache.find?_put_of_retains c.now key stats mirrors.distinct same
        (mirrors.kept other e found young) young

/-- Time makes nothing younger, so what is gone stays past retention. -/
theorem advance (mirrors : Mirrors c m) (time : Nat) :
    Mirrors { c with now := c.now + time } { m with now := m.now + time } where
  sound := mirrors.sound
  sameTime := by
    change c.now + time = m.now + time
    rw [mirrors.sameTime]
  sameTtl := mirrors.sameTtl
  distinct := mirrors.distinct
  held := mirrors.held
  kept := by
    intro key e found young
    have before : StatsCache.retains c.cache.config c.now e = true := by
      simp only [StatsCache.retains, decide_eq_true_eq] at young ⊢
      omega
    exact mirrors.kept key e found before

/-- What the cache no longer holds is not fresh either. -/
theorem get_eq (mirrors : Mirrors c m) (key : CacheKey) : c.cache.get c.now key = m.get key := by
  unfold StatsCache.get ExpiringMap.get
  cases found : c.cache.find? key with
  | some e => rw [mirrors.held key e found, mirrors.sameTime, mirrors.sameTtl]
  | none =>
      cases last : m.held key with
      | none => rfl
      | some e =>
          have stale : ¬ m.now - e.capturedAt < m.ttl := by
            intro fresh
            have young : StatsCache.retains c.cache.config c.now e = true := by
              rw [StatsCache.retains, decide_eq_true_eq, mirrors.sameTime]
              have retained := mirrors.sound
              rw [mirrors.sameTtl] at retained
              omega
            rw [mirrors.kept key e last young] at found
            cases found
          exact (if_neg stale).symm

/-- One operation has the same answer in both, and they stay mirrors of each other. -/
theorem step (mirrors : Mirrors c m) (op : CacheOp) :
    (c.step op).1 = (m.step op).1 ∧ Mirrors (c.step op).2 (m.step op).2 := by
  cases op with
  | put key stats => exact ⟨rfl, mirrors.put key stats⟩
  | get key => exact ⟨congrArg ([·]) (mirrors.get_eq key), mirrors⟩
  | advance time => exact ⟨rfl, mirrors.advance time⟩

end Mirrors

/-! ### What the map holds -/

namespace CacheOp

/-- The last put of a key in a run is of some sample, at some time. -/
def LastPut (start : Nat) (ops : List CacheOp) (key : CacheKey) (stats : ContainerStats)
    (moment : Nat) : Prop :=
  ∃ before after, ops = before ++ .put key stats :: after ∧ (∀ later, .put key later ∉ after) ∧
    moment = clock start before

variable {start moment : Nat} {ops : List CacheOp} {key : CacheKey} {stats : ContainerStats}

theorem not_lastPut_nil : ¬ LastPut start [] key stats moment := by
  rintro ⟨before, after, made, -⟩
  cases before <;> cases made

/-- A place in a run with one more operation is that operation, or a place in the run. -/
theorem split_concat {op place : CacheOp} {before after : List CacheOp}
    (made : ops ++ [op] = before ++ place :: after) :
    (ops = before ∧ op = place ∧ after = []) ∨
      ∃ more, ops = before ++ place :: more ∧ after = more ++ [op] := by
  rcases List.eq_nil_or_concat after with rfl | ⟨more, last, rfl⟩
  · obtain ⟨same, atEnd⟩ := List.append_inj' made rfl
    cases atEnd
    exact .inl ⟨same, rfl, rfl⟩
  · rw [List.concat_eq_append, ← List.cons_append, ← List.append_assoc] at made
    obtain ⟨same, atEnd⟩ := List.append_inj' made rfl
    cases atEnd
    exact .inr ⟨more, same, List.concat_eq_append⟩

theorem lastPut_concat_put (latest : ContainerStats) :
    LastPut start (ops ++ [.put key latest]) key stats moment ↔
      latest = stats ∧ moment = clock start ops := by
  constructor
  · rintro ⟨before, after, made, alone, rfl⟩
    obtain ⟨rfl, same, -⟩ | ⟨more, -, rfl⟩ := split_concat made
    · cases same
      exact ⟨rfl, rfl⟩
    · exact absurd (List.mem_append_right more List.mem_cons_self) (alone latest)
  · rintro ⟨rfl, rfl⟩
    exact ⟨ops, [], rfl, fun _ => List.not_mem_nil, rfl⟩

theorem lastPut_concat_other {op : CacheOp} (other : ∀ later, op ≠ .put key later) :
    LastPut start (ops ++ [op]) key stats moment ↔ LastPut start ops key stats moment := by
  constructor
  · rintro ⟨before, after, made, alone, rfl⟩
    obtain ⟨-, same, -⟩ | ⟨more, rfl, rfl⟩ := split_concat made
    · exact absurd same (other stats)
    · refine ⟨before, more, rfl, ?_, rfl⟩
      intro later inside
      exact alone later (List.mem_append_left [op] inside)
  · rintro ⟨before, after, rfl, alone, rfl⟩
    refine ⟨before, after ++ [op], List.append_assoc .., ?_, rfl⟩
    intro later inside
    rcases List.mem_append.mp inside with earlier | last
    · exact alone later earlier
    · exact other later (List.mem_singleton.mp last).symm

end CacheOp

namespace ExpiringMap

theorem step_ttl (m : ExpiringMap) (op : CacheOp) : (m.step op).2.ttl = m.ttl := by
  cases op <;> rfl

theorem step_now (m : ExpiringMap) (op : CacheOp) : (m.step op).2.now = m.now + op.time := by
  cases op <;> rfl

/-- The map keeps its window, and its time is that of the run. -/
theorem feed_settings (m : ExpiringMap) (ops : List CacheOp) :
    (machine.feed m ops).2.ttl = m.ttl ∧
      (machine.feed m ops).2.now = CacheOp.clock m.now ops := by
  induction ops using List.reverseRecOn with
  | nil => exact ⟨rfl, rfl⟩
  | append_singleton ops op ih =>
      obtain ⟨ttl, now⟩ := ih
      rw [Transducer.feed_concat, CacheOp.clock_concat, ← ttl, ← now]
      exact ⟨step_ttl _ op, step_now _ op⟩

/-- The map holds the last put of each key. -/
theorem held_iff_lastPut (ttl start : Nat) (ops : List CacheOp) (key : CacheKey)
    (stats : ContainerStats) (moment : Nat) :
    (machine.feed ⟨ttl, start, fun _ => none⟩ ops).2.held key = some ⟨stats, moment⟩ ↔
      CacheOp.LastPut start ops key stats moment := by
  induction ops using List.reverseRecOn with
  | nil => simp [CacheOp.not_lastPut_nil]
  | append_singleton ops op ih =>
      have now := (feed_settings ⟨ttl, start, fun _ => none⟩ ops).2
      rw [Transducer.feed_concat]
      generalize (machine.feed ⟨ttl, start, fun _ => none⟩ ops).2 = m at ih now
      cases op with
      | put other latest =>
          change (m.put other latest).held key = _ ↔ _
          by_cases same : key = other
          · subst same
            rw [put_held_self, CacheOp.lastPut_concat_put, now]
            simp [eq_comm]
          · rw [put_held_ne m latest same, CacheOp.lastPut_concat_other (by simp [Ne.symm same])]
            exact ih
      | get other | advance time =>
          rw [CacheOp.lastPut_concat_other (by simp)]
          exact ih

end ExpiringMap

/-! ### The cache -/

theorem CacheConfig.validate_eq_ok {config : CacheConfig} :
    config.validate = .ok () ↔ 0 < config.ttl ∧ config.ttl ≤ config.retention := by
  unfold CacheConfig.validate
  split
  · next zero => simp [zero]
  · next positive =>
      split
      · next short => simp [short]
      · next long =>
          simp only [true_iff]
          omega

/-- With settings that pass validation, a cache answers every run of puts and gets as a map with
expiry does: a get is answered if the key has been put and its last put is less than `ttl` ago, and
then with the sample of that put, whatever has been pruned or put under other keys since. -/
theorem cache_answers_as_expiring_map {config : CacheConfig} (valid : config.validate = .ok ())
    (start : Nat) (ops : List CacheOp) :
    let run := ClockedCache.machine.feed ⟨start, { config := config }⟩ ops
    run.1 = (ExpiringMap.machine.feed ⟨config.ttl, start, fun _ => none⟩ ops).1 ∧
      run.2.now = CacheOp.clock start ops ∧
      ∀ key stats, run.2.cache.get run.2.now key = some stats ↔
        ∃ moment, CacheOp.LastPut start ops key stats moment ∧
          CacheOp.clock start ops - moment < config.ttl := by
  intro run
  have sound := (CacheConfig.validate_eq_ok.mp valid).2
  obtain ⟨answers, mirrors⟩ :=
    Transducer.feed_simulates (t := ClockedCache.machine) (u := ExpiringMap.machine)
      (fun _ _ op related => related.step op) ops (Mirrors.start sound start)
  obtain ⟨ttl, now⟩ := ExpiringMap.feed_settings ⟨config.ttl, start, fun _ => none⟩ ops
  refine ⟨answers, ClockedCache.feed_now _ ops, ?_⟩
  intro key stats
  rw [mirrors.get_eq key, ExpiringMap.get_eq_some_iff, ttl, now]
  simp only [ExpiringMap.held_iff_lastPut]

def twoPuts (sample : ContainerStats) : List CacheOp :=
  [.put "local:web" sample, .advance 2, .put "local:db" sample]

/-- Every put prunes here. The entry that is still fresh is served afterwards all the same. -/
theorem cache_answers_as_expiring_map_twoPuts :
    let config : CacheConfig := { ttl := 3, retention := 10, threshold := 0 }
    let sample : ContainerStats := ⟨"web", "local", 0, 0, 0, 0⟩
    let left := (ClockedCache.machine.feed ⟨5, { config := config }⟩ (twoPuts sample)).2
    config.validate = .ok () ∧ left.now = 7 ∧ left.cache.get 7 "local:web" = some sample := by
  intro config sample left
  have valid : config.validate = .ok () := rfl
  obtain ⟨-, now, served⟩ := cache_answers_as_expiring_map valid 5 (twoPuts sample)
  have last : CacheOp.LastPut 5 (twoPuts sample) "local:web" sample 5 := by
    refine ⟨[], [.advance 2, .put "local:db" sample], rfl, ?_, rfl⟩
    intro later inside
    simp at inside
  refine ⟨valid, now, ?_⟩
  exact (served "local:web" sample).mpr ⟨5, last, by decide⟩

end FleetBoard

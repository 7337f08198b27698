import FleetBoard.Transducer
import FleetBoard.Usage.Cache
import Mathlib.Data.List.Induction
import Mathlib.Data.List.Nodup

/-!
# Runs of the cache of samples

A cache is used by puts and gets while time goes on. What it holds is said by `find?` alone: a put
changes what is held under its own key, and a prune removes what has become too old. That a prune
can be seen as a filter on what is found rests on there being one entry for each key, which every
operation keeps.
-/

namespace FleetBoard

namespace StatsCache

/-- No key is held twice. -/
def Distinct (c : StatsCache) : Prop := (c.entries.map (·.1)).Nodup

section Lookup

variable {α : Type} {entries : List (CacheKey × α)} {key other : CacheKey}

theorem lookup_filter_ne (different : other ≠ key) :
    (entries.filter fun e => e.1 ≠ key).lookup other = entries.lookup other := by
  induction entries with
  | nil => rfl
  | cons e entries ih =>
      by_cases removed : e.1 = key
      · have passedOver : (other == e.1) = false := by simpa [removed] using different
        rw [List.filter_cons_of_neg (by simp [removed]), ih, List.lookup_cons, passedOver]
      · rw [List.filter_cons_of_pos (by simp [removed]), List.lookup_cons, List.lookup_cons, ih]

theorem lookup_eq_none_of_fresh (fresh : key ∉ entries.map (·.1)) : entries.lookup key = none := by
  rw [List.lookup_eq_none_iff]
  intro e member
  have differs : key ≠ e.1 := by
    intro same
    exact fresh (same ▸ List.mem_map_of_mem member)
  simpa using differs

/-- With one entry for each key, looking up in what is left is keeping what is looked up. -/
theorem lookup_filter (distinct : (entries.map (·.1)).Nodup) (keep : α → Bool) :
    (entries.filter fun e => keep e.2).lookup key = (entries.lookup key).filter keep := by
  induction entries with
  | nil => rfl
  | cons e entries ih =>
      obtain ⟨held, value⟩ := e
      obtain ⟨fresh, distinctLater⟩ := List.nodup_cons.mp distinct
      have later := ih distinctLater
      by_cases found : key = held
      · subst found
        rw [lookup_eq_none_of_fresh fresh] at later
        by_cases kept : keep value
        · rw [List.filter_cons_of_pos (by exact kept), List.lookup_cons_self, List.lookup_cons_self,
            Option.filter_some_pos kept]
        · rw [List.filter_cons_of_neg (by exact kept), later, List.lookup_cons_self,
            Option.filter_some_neg (by simpa using kept)]
          rfl
      · have passedOver : (key == held) = false := by simpa using found
        by_cases kept : keep value
        · rw [List.filter_cons_of_pos (by exact kept), List.lookup_cons, List.lookup_cons,
            passedOver]
          exact later
        · rw [List.filter_cons_of_neg (by exact kept), List.lookup_cons, passedOver]
          exact later

end Lookup

variable (c : StatsCache) (now : Nat) (key : CacheKey) (stats : ContainerStats)

/-! ### What is found after an operation -/

@[simp] theorem insert_config : (c.insert now key stats).config = c.config := rfl

@[simp] theorem prune_config : (c.prune now).config = c.config := by
  unfold prune
  split <;> rfl

@[simp] theorem put_config : (c.put now key stats).config = c.config := by
  rw [put, prune_config, insert_config]

@[simp] theorem find?_insert_self : (c.insert now key stats).find? key = some ⟨stats, now⟩ :=
  List.lookup_cons_self

theorem find?_insert_ne {other : CacheKey} (different : other ≠ key) :
    (c.insert now key stats).find? other = c.find? other := by
  have passedOver : (other == key) = false := by simpa using different
  rw [find?, insert, List.lookup_cons, passedOver]
  exact lookup_filter_ne different

def retains (config : CacheConfig) (now : Nat) (e : CacheEntry) : Bool :=
  now - e.capturedAt ≤ config.retention

variable {c}

/-- What a prune takes away is past retention. -/
theorem find?_prune (distinct : c.Distinct) :
    (c.prune now).find? key =
      if c.config.threshold < c.size then (c.find? key).filter (retains c.config now)
      else c.find? key := by
  unfold prune size
  split
  · exact lookup_filter distinct (retains c.config now)
  · rfl

theorem distinct_insert (distinct : c.Distinct) : (c.insert now key stats).Distinct := by
  refine List.nodup_cons.mpr ⟨?_, ?_⟩
  · intro member
    obtain ⟨e, inside, same⟩ := List.mem_map.mp member
    have differs := (List.mem_filter.mp inside).2
    exact absurd same (by simpa using differs)
  · exact distinct.sublist (List.filter_sublist.map _)

theorem distinct_prune (distinct : c.Distinct) : (c.prune now).Distinct := by
  unfold prune
  split
  · exact distinct.sublist (List.filter_sublist.map _)
  · exact distinct

theorem distinct_put (distinct : c.Distinct) : (c.put now key stats).Distinct :=
  distinct_prune now (distinct_insert now key stats distinct)

theorem find?_of_prune {e : CacheEntry} (distinct : c.Distinct)
    (found : (c.prune now).find? key = some e) : c.find? key = some e := by
  rw [find?_prune now key distinct] at found
  split at found
  · exact (Option.filter_eq_some_iff.mp found).1
  · exact found

theorem find?_prune_of_retains {e : CacheEntry} (distinct : c.Distinct)
    (found : c.find? key = some e) (kept : retains c.config now e = true) :
    (c.prune now).find? key = some e := by
  rw [find?_prune now key distinct]
  split
  · exact Option.filter_eq_some_iff.mpr ⟨found, kept⟩
  · exact found

/-- A put never takes away what it has just put. -/
theorem find?_put_self (distinct : c.Distinct) :
    (c.put now key stats).find? key = some ⟨stats, now⟩ := by
  apply find?_prune_of_retains now key (distinct_insert now key stats distinct)
  · exact find?_insert_self c now key stats
  · simp [retains]

theorem find?_of_put {other : CacheKey} {e : CacheEntry} (distinct : c.Distinct)
    (different : other ≠ key) (found : (c.put now key stats).find? other = some e) :
    c.find? other = some e := by
  have inserted := find?_of_prune now other (distinct_insert now key stats distinct) found
  rwa [find?_insert_ne c now key stats different] at inserted

theorem find?_put_of_retains {other : CacheKey} {e : CacheEntry} (distinct : c.Distinct)
    (different : other ≠ key) (found : c.find? other = some e)
    (kept : retains c.config now e = true) : (c.put now key stats).find? other = some e := by
  apply find?_prune_of_retains now other (distinct_insert now key stats distinct)
  · rwa [find?_insert_ne c now key stats different]
  · exact kept

/-! ### What is served after a put -/

theorem get_of_find? {e : CacheEntry} (found : c.find? key = some e) :
    c.get now key = if now - e.capturedAt < c.config.ttl then some e.stats else none := by
  rw [get, found]

/-- What is served is held under its key and fresh. -/
theorem exists_of_get {key : CacheKey} {stats : ContainerStats}
    (served : c.get now key = some stats) :
    ∃ e, (key, e) ∈ c.entries ∧ e.stats = stats ∧ now - e.capturedAt < c.config.ttl := by
  rw [get] at served
  split at served
  · next e found =>
      split at served
      · next fresh =>
          obtain ⟨before, after, split, -⟩ := List.lookup_eq_some_iff.mp found
          refine ⟨e, ?_, Option.some.inj served, fresh⟩
          rw [split]
          exact List.mem_append_right before List.mem_cons_self
      · cases served
  · cases served

/-- A put adds one entry and nothing else. -/
theorem mem_put {e : CacheKey × CacheEntry} (inside : e ∈ (c.put now key stats).entries) :
    e = (key, ⟨stats, now⟩) ∨ e ∈ c.entries := by
  have inserted : e ∈ (c.insert now key stats).entries := by
    rw [put, prune] at inside
    split at inside
    · exact (List.mem_filter.mp inside).1
    · exact inside
  rcases List.mem_cons.mp inserted with rfl | earlier
  · exact .inl rfl
  · exact .inr (List.mem_filter.mp earlier).1

theorem get_put_self (distinct : c.Distinct) (positive : 0 < c.config.ttl) :
    (c.put now key stats).get now key = some stats := by
  rw [get_of_find? now key (find?_put_self now key stats distinct), put_config, Nat.sub_self,
    if_pos positive]

/-- What is served under other keys at the time of a put is served after it too: a prune takes away
only what is not served any more. -/
theorem get_put_ne {other : CacheKey} (distinct : c.Distinct)
    (sound : c.config.ttl ≤ c.config.retention) (different : other ≠ key) :
    (c.put now key stats).get now other = c.get now other := by
  cases after : (c.put now key stats).find? other with
  | some e =>
      have before := find?_of_put now key stats distinct different after
      rw [get_of_find? now other after, get_of_find? now other before, put_config]
  | none =>
      have nothing : (c.put now key stats).get now other = none := by rw [get, after]
      rw [nothing]
      cases before : c.find? other with
      | none => rw [get, before]
      | some e =>
          have stale : ¬ now - e.capturedAt < c.config.ttl := by
            intro fresh
            have kept := find?_put_of_retains now key stats distinct different before
              (by rw [retains, decide_eq_true_eq]; omega)
            rw [kept] at after
            cases after
          rw [get_of_find? now other before, if_neg stale]

end StatsCache

/-- The keys of two containers differ if the names of their hosts have no colon. -/
theorem ContainerRef.key_injective {c d : ContainerRef} (plain : ':' ∉ c.host.toList)
    (plain' : ':' ∉ d.host.toList) (same : c.key = d.key) : c = d := by
  have upToColon : ∀ r : ContainerRef, ':' ∉ r.host.toList →
      r.key.toList.takeWhile (· ≠ ':') = r.host.toList ∧
        r.key.toList.dropWhile (· ≠ ':') = ':' :: r.id.toList := by
    intro r plain
    have before : ∀ x ∈ r.host.toList, decide (x ≠ ':') = true := by
      intro x inside
      rw [decide_eq_true_eq]
      rintro rfl
      exact plain inside
    have letters : r.key.toList = r.host.toList ++ ':' :: r.id.toList := by
      simp [key, String.toList_append]
    rw [letters, List.takeWhile_append_of_pos before, List.dropWhile_append_of_pos before]
    simp
  obtain ⟨host, rest⟩ := upToColon c plain
  obtain ⟨host', rest'⟩ := upToColon d plain'
  rw [same, host'] at host
  rw [same, rest', List.cons.injEq] at rest
  exact congrArg₂ ContainerRef.mk (String.toList_inj.mp host.symm)
    (String.toList_inj.mp rest.2.symm)

/-! ### Runs -/

/-- What happens to a cache. -/
inductive CacheOp where
  | put (key : CacheKey) (stats : ContainerStats)
  | get (key : CacheKey)
  /-- Time goes on. -/
  | advance (time : Nat)

namespace CacheOp

def time : CacheOp → Nat
  | .advance time => time
  | _ => 0

def clock (start : Nat) (ops : List CacheOp) : Nat := ops.foldl (fun now op => now + op.time) start

theorem clock_concat (start : Nat) (ops : List CacheOp) (op : CacheOp) :
    clock start (ops ++ [op]) = clock start ops + op.time := by
  rw [clock, List.foldl_append]
  rfl

end CacheOp

structure ClockedCache where
  now : Nat
  cache : StatsCache

namespace ClockedCache

def step (c : ClockedCache) : CacheOp → List (Option ContainerStats) × ClockedCache
  | .put key stats => ([], { c with cache := c.cache.put c.now key stats })
  | .get key => ([c.cache.get c.now key], c)
  | .advance time => ([], { c with now := c.now + time })

def machine : Transducer ClockedCache CacheOp (Option ContainerStats) where
  step := step
  finish _ := []

theorem step_now (c : ClockedCache) (op : CacheOp) : (c.step op).2.now = c.now + op.time := by
  cases op <;> rfl

theorem feed_now (c : ClockedCache) (ops : List CacheOp) :
    (machine.feed c ops).2.now = CacheOp.clock c.now ops := by
  induction ops using List.reverseRecOn with
  | nil => rfl
  | append_singleton ops op ih =>
      rw [Transducer.feed_concat, CacheOp.clock_concat, ← ih]
      exact step_now _ op

end ClockedCache

end FleetBoard

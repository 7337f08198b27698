import FleetBoard.Fleet.Pool
import Mathlib.Data.List.Nodup

/-!
# Pools that are built host by host

A pool keeps its hosts and its engines apart, and listing the pool joins them by name. That no host
is lost in the join, and none doubled, rests on an invariant of the pools that come of registering
hosts: the two sides hold the same names, each once.
-/

namespace FleetBoard.HostPool

variable {ε : Type} {p q : HostPool ε} {name : String}

/-- The pools that come of registering one host after the other. An engine may change in its place
while the pool is in use. -/
inductive Built : HostPool ε → Prop where
  | empty : Built {}
  | insert {p q : HostPool ε} {host : HostConfig} {engine : ε} (before : Built p)
      (accepted : p.insert host engine = .ok q) : Built q
  | modify {p : HostPool ε} {name : String} {f : ε → ε} (before : Built p) : Built (p.modify name f)

/-- Every host has one engine under its name, and no name is registered twice. Engines are held
newest first. -/
structure Paired (p : HostPool ε) : Prop where
  distinct : (p.hosts.map (·.name)).Nodup
  engines : p.engines.map (·.1) = (p.hosts.map (·.name)).reverse

theorem contains_iff : p.contains name = true ↔ name ∈ p.engines.map (·.1) := by
  simp [contains]

theorem insert_eq_ok {host : HostConfig} {engine : ε} :
    p.insert host engine = .ok q ↔ host.name ∉ p.engines.map (·.1) ∧
      q = { hosts := p.hosts ++ [host], engines := (host.name, engine) :: p.engines } := by
  rw [insert, ← contains_iff]
  split
  · next taken => simp [taken]
  · next free => simp [free, eq_comm]

@[simp] theorem modify_names (f : ε → ε) :
    (p.modify name f).engines.map (·.1) = p.engines.map (·.1) := by
  rw [modify, List.map_map]
  refine List.map_congr_left ?_
  intro e _
  dsimp only [Function.comp]
  split <;> rfl

/-- A change to one engine is a change to what is found under its name. -/
theorem find?_modify (f : ε → ε) (other : String) :
    (p.modify name f).find? other = (p.find? other).map (if other = name then f else id) := by
  rw [modify, find?, find?]
  dsimp only
  induction p.engines with
  | nil => rfl
  | cons e engines ih =>
      obtain ⟨key, engine⟩ := e
      have kept : (if key = name then (key, f engine) else (key, engine)) =
          (key, (if key = name then f else id) engine) := by
        split <;> rfl
      rw [List.map_cons, kept, List.lookup_cons, List.lookup_cons, ih]
      cases found : other == key with
      | false => rfl
      | true => rw [beq_iff_eq.mp found, Option.map_some]

theorem engine_eq_ok {engine : ε} : p.engine name = .ok engine ↔ p.find? name = some engine := by
  rw [HostPool.engine]
  split <;> simp_all

theorem engine_eq_error (unknown : p.find? name = none) :
    p.engine name = .error (.unknownHost name) := by
  rw [HostPool.engine, unknown]

theorem engine_modify_self {engine : ε} (f : ε → ε) (known : p.engine name = .ok engine) :
    (p.modify name f).engine name = .ok (f engine) := by
  rw [engine_eq_ok, find?_modify, if_pos rfl, engine_eq_ok.mp known, Option.map_some]

theorem engine_modify_ne {other : String} (f : ε → ε) (different : other ≠ name) :
    (p.modify name f).engine other = p.engine other := by
  rw [HostPool.engine, HostPool.engine, find?_modify, if_neg different, Option.map_id, id]

namespace Built

/-- Registering hosts keeps both sides of a pool together. -/
theorem paired (built : Built p) : p.Paired := by
  induction built with
  | empty => exact ⟨List.nodup_nil, rfl⟩
  | insert _ accepted ih =>
      obtain ⟨free, rfl⟩ := insert_eq_ok.mp accepted
      rw [ih.engines, List.mem_reverse] at free
      refine ⟨?_, ?_⟩
      · rw [List.map_append, List.map_singleton, List.nodup_append_comm]
        exact List.nodup_cons.mpr ⟨free, ih.distinct⟩
      · simp [ih.engines]
  | modify _ ih => exact ⟨ih.distinct, (modify_names _).trans ih.engines⟩

end Built

namespace Paired

/-- Every host has an engine. -/
theorem exists_engine (paired : p.Paired) {host : HostConfig} (registered : host ∈ p.hosts) :
    ∃ engine, p.find? host.name = some engine := by
  have held : host.name ∈ p.engines.map (·.1) := by
    rw [paired.engines, List.mem_reverse]
    exact List.mem_map_of_mem registered
  obtain ⟨e, inside, same⟩ := List.mem_map.mp held
  rw [find?]
  cases found : p.engines.lookup host.name with
  | some engine => exact ⟨engine, rfl⟩
  | none =>
      rw [List.lookup_eq_none_iff] at found
      have differs := found e inside
      simp [same] at differs

/-- Every engine has a host. -/
theorem exists_host (paired : p.Paired) {engine : ε} (known : p.engine name = .ok engine) :
    ∃ host ∈ p.hosts, host.name = name := by
  rw [engine_eq_ok, find?] at known
  have held : name ∈ p.engines.map (·.1) := by
    by_contra absent
    rw [List.lookup_eq_none_iff.mpr] at known
    · cases known
    · intro e inside
      rw [bne_iff_ne]
      rintro rfl
      exact absent (List.mem_map_of_mem inside)
  rw [paired.engines, List.mem_reverse, List.mem_map] at held
  exact held

/-- A listing of the pool has all hosts in their order. -/
theorem names_toList (paired : p.Paired) : p.toList.map (·.1) = p.hosts.map (·.name) := by
  have joined : ∀ host ∈ p.hosts, ∃ engine, p.find? host.name = some engine :=
    fun _ registered => paired.exists_engine registered
  rw [toList]
  generalize p.hosts = hosts at joined
  induction hosts with
  | nil => rfl
  | cons host hosts ih =>
      obtain ⟨engine, found⟩ := joined host List.mem_cons_self
      have later := ih fun other inside => joined other (List.mem_cons_of_mem host inside)
      rw [List.filterMap_cons_some (b := (host.name, engine)) (by rw [found]; rfl), List.map_cons,
        later, List.map_cons]

end Paired

/-- A listing of the pool names each host with its engine. -/
theorem mem_toList {engine : ε} : (name, engine) ∈ p.toList ↔
    (∃ host ∈ p.hosts, host.name = name) ∧ p.engine name = .ok engine := by
  rw [engine_eq_ok, toList, List.mem_filterMap]
  constructor
  · rintro ⟨host, registered, found⟩
    obtain ⟨e, held, same⟩ := Option.map_eq_some_iff.mp found
    cases same
    exact ⟨⟨host, registered, rfl⟩, held⟩
  · rintro ⟨⟨host, registered, rfl⟩, held⟩
    exact ⟨host, registered, by rw [held]; rfl⟩

/-- Hosts are registered one after the other as long as each has a new name. -/
theorem exists_foldlM_insert (p : HostPool ε) (entries : List (HostConfig × ε))
    (distinct : (entries.map (·.1.name)).Nodup)
    (fresh : ∀ e ∈ entries, e.1.name ∉ p.engines.map (·.1)) :
    ∃ q, entries.foldlM (fun pool e => pool.insert e.1 e.2) p = .ok q ∧
      q.hosts = p.hosts ++ entries.map (·.1) := by
  induction entries generalizing p with
  | nil => exact ⟨p, rfl, (List.append_nil _).symm⟩
  | cons e entries ih =>
      obtain ⟨different, distinct⟩ := List.nodup_cons.mp distinct
      obtain ⟨new, others⟩ := List.forall_mem_cons.mp fresh
      let next : HostPool ε := ⟨p.hosts ++ [e.1], (e.1.name, e.2) :: p.engines⟩
      have accepted : p.insert e.1 e.2 = .ok next := insert_eq_ok.mpr ⟨new, rfl⟩
      have still : ∀ other ∈ entries, other.1.name ∉ next.engines.map (·.1) := by
        intro other inside
        rw [List.map_cons, List.mem_cons, not_or]
        exact ⟨fun same => different (List.mem_map.mpr ⟨other, inside, same⟩), others other inside⟩
      obtain ⟨q, registered, hosts⟩ := ih next distinct still
      refine ⟨q, ?_, ?_⟩
      · rw [List.foldlM_cons, accepted]
        exact registered
      · rw [hosts, List.append_assoc]
        rfl

end FleetBoard.HostPool

import FleetBoard.Proofs.Fleet.Listing
import FleetBoard.Proofs.Fleet.Pool
import Mathlib.Data.List.Induction

/-!
# Registering hosts one after another

The hosts and the engines of a pool are kept apart, and a name that is taken turns a host away.
Whatever calls came before, the pool is what its accepted calls make of it (`HostPool.Lists`): every
question to it is answered from their list alone.
-/

namespace FleetBoard

/-- The pool that is left after some calls, if it is not lost, and the hosts and engines of the
calls that went well, in their order. -/
structure Registry (ε : Type) where
  pool : Option (HostPool ε) := some {}
  accepted : List (HostConfig × ε) := []

variable {ε : Type}

/-- A lost pool can not be called any more. -/
def Registry.step (r : Registry ε) (c : Registration ε) : Registry ε :=
  match r.pool with
  | none => r
  | some p =>
    match c.apply p with
    | (.ok (), left) => { pool := left, accepted := r.accepted ++ [(c.host, c.engine)] }
    | (.error _, left) => { r with pool := left }

def Registry.run (calls : List (Registration ε)) : Registry ε := calls.foldl step {}

namespace HostPool

/-- A pool with these hosts and engines, registered in this order, and no name twice. -/
structure Lists (p : HostPool ε) (accepted : List (HostConfig × ε)) : Prop where
  hosts : p.hosts = accepted.map (·.1)
  engines : p.engines = (accepted.map fun e => (e.1.name, e.2)).reverse
  distinct : (accepted.map (·.1.name)).Nodup

variable {p q : HostPool ε} {accepted : List (HostConfig × ε)} {host : HostConfig} {engine : ε}
    {name : String}

theorem insert_eq_error (taken : p.contains host.name = true) :
    p.insert host engine = .error (.duplicateHost host.name) := if_pos taken

/-- Nothing is changed before it is clear that the name is free. -/
theorem run_register (host : HostConfig) (engine : ε) (p : HostPool ε) :
    (register host engine).run.run p = match p.insert host engine with
      | .ok q => (.ok (), q)
      | .error e => (.error e, p) := by
  have opened : (register host engine).run.run p =
      (if p.contains host.name then throw (.duplicateHost host.name)
        else do
          modifyThe (HostPool ε) fun p => { p with engines := (host.name, engine) :: p.engines }
          modifyThe (HostPool ε) fun p => { p with hosts := p.hosts ++ [host] } :
            ExceptT FleetError (StateM (HostPool ε)) Unit).run.run p := rfl
  rw [opened, HostPool.insert]
  split <;> rfl

theorem withEngine_eq_insert : p.withEngine host engine = p.insert host engine := by
  rw [withEngine, run_register]
  cases p.insert host engine <;> rfl

/-- Both kinds of calls answer alike. They differ in what a failure leaves of the pool. -/
theorem apply_eq (c : Registration ε) (p : HostPool ε) :
    c.apply p = match p.insert c.host c.engine with
      | .ok q => (.ok (), some q)
      | .error e => (.error e, if c.handedOver then none else some p) := by
  rw [Registration.apply, withEngine_eq_insert, run_register]
  cases c.handedOver <;> cases p.insert c.host c.engine <;> rfl

theorem exists_insert (engine : ε) (free : p.contains host.name = false) :
    ∃ q, p.insert host engine = .ok q := by
  rw [HostPool.insert, free]
  exact ⟨_, rfl⟩

namespace Lists

theorem names (lists : p.Lists accepted) : p.hosts.map (·.name) = accepted.map (·.1.name) := by
  rw [lists.hosts, List.map_map]
  rfl

theorem keys (lists : p.Lists accepted) :
    p.engines.map (·.1) = (accepted.map (·.1.name)).reverse := by
  rw [lists.engines, List.map_reverse, List.map_map]
  rfl

theorem contains_iff (lists : p.Lists accepted) :
    p.contains name = true ↔ name ∈ p.hosts.map (·.name) := by
  rw [HostPool.contains_iff, lists.keys, lists.names, List.mem_reverse]

/-- An accepted call appends its host. -/
theorem insert (lists : p.Lists accepted) (done : p.insert host engine = .ok q) :
    q.Lists (accepted ++ [(host, engine)]) := by
  obtain ⟨free, rfl⟩ := insert_eq_ok.mp done
  rw [lists.keys, List.mem_reverse] at free
  refine ⟨?_, ?_, ?_⟩
  · rw [List.map_append, lists.hosts]
    rfl
  · rw [List.map_append, List.reverse_append, lists.engines]
    rfl
  · rw [List.map_append, List.map_singleton, List.nodup_append_comm]
    exact List.nodup_cons.mpr ⟨free, lists.distinct⟩

theorem engine_of_mem (lists : p.Lists accepted) (inside : (host, engine) ∈ accepted) :
    p.engine host.name = .ok engine := by
  rw [engine_eq_ok, find?]
  apply Listing.Collects.lookup_of_mem
  · rw [lists.keys, List.nodup_reverse]
    exact lists.distinct
  · rw [lists.engines, List.mem_reverse]
    exact List.mem_map_of_mem (f := fun e : HostConfig × ε => (e.1.name, e.2)) inside

theorem engine_of_not_mem (lists : p.Lists accepted) (absent : name ∉ p.hosts.map (·.name)) :
    p.engine name = .error (.unknownHost name) := by
  apply engine_eq_error
  rw [find?, List.lookup_eq_none_iff]
  intro e inside
  rw [bne_iff_ne]
  rintro rfl
  have held := List.mem_map_of_mem (f := Prod.fst) inside
  rw [lists.keys, List.mem_reverse, ← lists.names] at held
  exact absent held

/-- No host is dropped from the listing, and each stands with the engine it came with. -/
theorem toList (lists : p.Lists accepted) : p.toList = accepted.map fun e => (e.1.name, e.2) := by
  rw [HostPool.toList, lists.hosts, List.filterMap_map, ← List.filterMap_eq_map]
  apply List.filterMap_congr
  intro e inside
  have found := engine_eq_ok.mp (lists.engine_of_mem inside)
  simp [found]

end Lists

end HostPool

namespace Registry

open HostPool

variable {r : Registry ε} {p q : HostPool ε} {c : Registration ε}

theorem run_concat (calls : List (Registration ε)) (c : Registration ε) :
    run (calls ++ [c]) = (run calls).step c :=
  List.foldl_concat ..

theorem step_of_accepted (standing : r.pool = some p) (done : p.insert c.host c.engine = .ok q) :
    r.step c = { pool := some q, accepted := r.accepted ++ [(c.host, c.engine)] } := by
  rw [step, standing]
  dsimp only
  rw [apply_eq, done]

theorem step_of_rejected (standing : r.pool = some p) (taken : p.contains c.host.name = true) :
    r.step c = { r with pool := if c.handedOver then none else some p } := by
  rw [step, standing]
  dsimp only
  rw [apply_eq, insert_eq_error taken]

/-- One call keeps the pool and the list of the accepted calls together. -/
theorem lists_step (lists : ∀ p, r.pool = some p → p.Lists r.accepted) (c : Registration ε) :
    ∀ p, (r.step c).pool = some p → p.Lists (r.step c).accepted := by
  intro p left
  cases before : r.pool with
  | none =>
      rw [step, before] at left
      cases before.symm.trans left
  | some old =>
      cases taken : old.contains c.host.name with
      | true =>
          rw [step_of_rejected before taken] at left ⊢
          dsimp only at left
          split at left <;> cases left
          exact lists _ before
      | false =>
          obtain ⟨q, done⟩ := exists_insert c.engine taken
          rw [step_of_accepted before done] at left ⊢
          cases left
          exact (lists _ before).insert done

theorem lists_run (calls : List (Registration ε)) :
    ∀ p, (run calls).pool = some p → p.Lists (run calls).accepted := by
  induction calls using List.reverseRecOn with
  | nil =>
      rintro p ⟨⟩
      exact ⟨rfl, rfl, List.nodup_nil⟩
  | append_singleton calls c ih =>
      rw [run_concat]
      exact lists_step ih c

/-- A pool that is never handed over is never lost. -/
theorem exists_pool (calls : List (Registration ε)) (kept : ∀ c ∈ calls, c.handedOver = false) :
    ∃ p, (run calls).pool = some p := by
  induction calls using List.reverseRecOn with
  | nil => exact ⟨{}, rfl⟩
  | append_singleton calls c ih =>
      obtain ⟨p, standing⟩ := ih fun other inside => kept other (List.mem_append_left _ inside)
      rw [run_concat]
      cases taken : p.contains c.host.name with
      | true =>
          rw [step_of_rejected standing taken, kept c List.mem_concat_self]
          exact ⟨p, rfl⟩
      | false =>
          obtain ⟨q, done⟩ := exists_insert c.engine taken
          rw [step_of_accepted standing done]
          exact ⟨q, rfl⟩

/-- What a pool answers after some calls, and what it makes of a further one. -/
structure Keeps (calls : List (Registration ε)) (p : HostPool ε) : Prop where
  distinct : (p.hosts.map (·.name)).Nodup
  keysOnce : (p.engines.map (·.1)).Nodup
  keys : ∀ name, name ∈ p.engines.map (·.1) ↔ name ∈ p.hosts.map (·.name)
  size : p.size = (run calls).accepted.length
  hosts : p.hosts = (run calls).accepted.map (·.1)
  listed : p.toList = (run calls).accepted.map fun e => (e.1.name, e.2)
  found : ∀ host engine, (host, engine) ∈ (run calls).accepted → p.engine host.name = .ok engine
  unknown : ∀ name, name ∉ p.hosts.map (·.name) → p.engine name = .error (.unknownHost name)
  /-- A name that is there is turned away, and a pool that is not handed over is left as it was. -/
  rejects : ∀ c : Registration ε, c.host.name ∈ p.hosts.map (·.name) →
    p.insert c.host c.engine = .error (.duplicateHost c.host.name) ∧
      (c.apply p).1 = .error (.duplicateHost c.host.name) ∧
      (run (calls ++ [c])).accepted = (run calls).accepted ∧
      (run (calls ++ [c])).pool = if c.handedOver then none else some p
  accepts : ∀ c : Registration ε, c.host.name ∉ p.hosts.map (·.name) →
    ∃ q, p.insert c.host c.engine = .ok q ∧ c.apply p = (.ok (), some q) ∧
      (run (calls ++ [c])).accepted = (run calls).accepted ++ [(c.host, c.engine)] ∧
      (run (calls ++ [c])).pool = some q

theorem keeps_of_lists {calls : List (Registration ε)} (standing : (run calls).pool = some p)
    (lists : p.Lists (run calls).accepted) : Keeps calls p where
  distinct := by
    rw [lists.names]
    exact lists.distinct
  keysOnce := by
    rw [lists.keys, List.nodup_reverse]
    exact lists.distinct
  keys name := by rw [← HostPool.contains_iff, lists.contains_iff]
  size := by rw [HostPool.size, lists.hosts, List.length_map]
  hosts := lists.hosts
  listed := lists.toList
  found _ _ := lists.engine_of_mem
  unknown _ := lists.engine_of_not_mem
  rejects c taken := by
    rw [← lists.contains_iff] at taken
    rw [run_concat, step_of_rejected standing taken, apply_eq, insert_eq_error taken]
    exact ⟨rfl, rfl, rfl, rfl⟩
  accepts c free := by
    rw [← lists.contains_iff, Bool.not_eq_true] at free
    obtain ⟨q, done⟩ := exists_insert c.engine free
    rw [run_concat, step_of_accepted standing done, apply_eq, done]
    exact ⟨q, rfl, rfl, rfl, rfl⟩

/-- After any calls no name is there twice, the engines have the names of the hosts, and the pool
lists the hosts whose calls went well in their order, each with its own engine. A further call is
turned away just if its name is there. Only a call to which the pool is handed over can lose it. -/
theorem pool_lists_accepted (calls : List (Registration ε)) :
    ((∀ c ∈ calls, c.handedOver = false) → ∃ p, (run calls).pool = some p) ∧
      ∀ p, (run calls).pool = some p → Keeps calls p :=
  ⟨exists_pool calls, fun p standing => keeps_of_lists standing (lists_run calls p standing)⟩

theorem pool_lists_accepted_nameTaken :
    ∃ p, (run [⟨⟨"a", "local"⟩, 1, false⟩, ⟨⟨"b", "tcp://b:2375"⟩, 2, true⟩,
        ⟨⟨"a", "tcp://c:2375"⟩, 3, false⟩]).pool = some p ∧
      p.toList = [("a", 1), ("b", 2)] ∧ p.engine "a" = .ok 1 ∧
      p.engine "ghost" = .error (.unknownHost "ghost") := by
  have standing : (run [⟨⟨"a", "local"⟩, 1, false⟩, ⟨⟨"b", "tcp://b:2375"⟩, 2, true⟩,
      ⟨⟨"a", "tcp://c:2375"⟩, 3, false⟩]).pool = some
        ⟨[⟨"a", "local"⟩, ⟨"b", "tcp://b:2375"⟩], [("b", 2), ("a", 1)]⟩ := by rfl
  have keeps := (pool_lists_accepted _).2 _ standing
  exact ⟨_, standing, keeps.listed, keeps.found ⟨"a", "local"⟩ 1 (by decide),
    keeps.unknown "ghost" (by decide)⟩

end Registry

end FleetBoard

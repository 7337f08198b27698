import FleetBoard.Engine.Memory
import FleetBoard.Proofs.Fleet.FanOut
import FleetBoard.Proofs.Fleet.Listing
import Mathlib.Data.List.Perm.Basic

/-!
# A listing of a fleet is a partition of its hosts

Every host is asked in a task of its own, and the tasks end in any order. The listing does not show
that order: each host is in it once, with the list that its engine gave before the call ended, or
else with the error of its engine or of the call.
-/

namespace FleetBoard.Fleet

variable {ε : Type} [ContainerEngine ε] {f : Fleet ε} {life : Lifetime} {now : Nat}

/-- The answers of all hosts, in some order in which their tasks may end. -/
def Finishing (f : Fleet ε) (life : Lifetime) (now : Nat) (order : List HostAnswer) : Prop :=
  (order.map some).Perm
    (f.pool.toList.map fun host => (hostAnswer life now true host).map (·.value))

theorem finishing_iff {timed : List (Timed HostAnswer)}
    (made : f.pool.toList.map (hostAnswer life now true) = timed.map some)
    (order : List HostAnswer) :
    f.Finishing life now order ↔ order.Perm (timed.map (·.value)) := by
  have values : (f.pool.toList.map fun host => (hostAnswer life now true host).map (·.value)) =
      (timed.map (·.value)).map some := by
    have mapped :=
      congrArg (List.map fun answer : Option (Timed HostAnswer) => answer.map (·.value)) made
    rw [List.map_map, List.map_map] at mapped
    rw [List.map_map]
    exact mapped
  rw [Finishing, values]
  exact List.map_perm_map_iff fun _ _ => Option.some.inj

/-- What a host is shown with: what its engine gave while the call lived, else why the call
ended. -/
theorem shows_outcome {listing : Listing} {host : String × ε}
    (shows : ∀ t, hostAnswer life now true host = some t → listing.Shows host.1 t.value.2) :
    (∀ time, (ContainerEngine.list host.2 true).takes = some time →
        life.isEnded (now + time) = false →
        listing.Shows host.1 (ContainerEngine.list host.2 true).result) ∧
      (∀ ending, life.endsAt = some ending →
        (∀ time, (ContainerEngine.list host.2 true).takes = some time →
          life.isEnded (now + time) = true) →
        listing.Shows host.1 (.error (life.error (max now ending)))) := by
  refine ⟨?_, ?_⟩
  · intro time takes lives
    exact shows ⟨now + time, (host.1, _)⟩
      (hostAnswer_eq_some_iff.mpr ⟨rfl, Lifetime.run_of_live takes lives⟩)
  · intro ending ends slow
    exact shows ⟨max now ending, (host.1, _)⟩
      (hostAnswer_eq_some_iff.mpr ⟨rfl, Lifetime.run_of_ended ends slow⟩)

/-- A listing divides the hosts of a fleet into those with a list and those with an error. -/
structure Partitions (f : Fleet ε) (life : Lifetime) (now : Nat) (listing : Listing) : Prop where
  distinct : (f.hosts.map (·.name)).Nodup
  /-- Every host has one entry, and nobody else has. -/
  entries : (listing.byHost.map (·.1) ++ listing.errors.map (·.host)).Perm (f.hosts.map (·.name))
  listsOrdered : listing.byHost.Pairwise fun a b => a.1 < b.1
  errorsOrdered : listing.errors.Pairwise fun a b => a.host < b.host
  /-- A host whose engine answers while the call lives is shown with its list, each container marked
  with the host, or with its own error. A host that does not answer in time is shown with the reason
  for which the call ended. -/
  shown : ∀ host ∈ f.hosts, ∃ engine, f.pool.engine host.name = .ok engine ∧
    (∀ time, (ContainerEngine.list engine true).takes = some time →
      life.isEnded (now + time) = false →
      listing.Shows host.name (ContainerEngine.list engine true).result) ∧
    ∀ ending, life.endsAt = some ending →
      (∀ time, (ContainerEngine.list engine true).takes = some time →
        life.isEnded (now + time) = true) →
      listing.Shows host.name (.error (life.error (max now ending)))
  /-- Any order in which the tasks may end makes the same listing. -/
  same : ∀ order, f.Finishing life now order → Listing.ofAnswers order = listing

/-- Listing a fleet gives an answer unless a host and the call both go on for ever, and the answer
has all hosts in it, each as it answered. -/
theorem list_partitions_hosts (built : f.pool.Built) (life : Lifetime) (now : Nat)
    (ends : ∀ host ∈ f.pool.toList,
      (ContainerEngine.list host.2 true).takes ≠ none ∨ life.endsAt ≠ none) :
    ∃ moment listing, f.list life now = some ⟨moment, listing⟩ ∧ f.Partitions life now listing := by
  obtain ⟨timed, results, made, asked, same, names⟩ := askHosts_of_built built ends
  have paired := built.paired
  have once : (results.map (·.1)).Nodup := names.nodup_iff.mpr paired.distinct
  have listing := Listing.ofAnswers_collects once
  refine ⟨_, Listing.ofAnswers results, by rw [list, asked]; rfl, {
    distinct := paired.distinct
    entries := listing.names.trans names
    listsOrdered := listing.listsOrdered
    errorsOrdered := listing.failures_strict once
    shown := ?_
    same := ?_ }⟩
  · intro host registered
    obtain ⟨engine, held⟩ := paired.exists_engine registered
    have known : f.pool.engine host.name = .ok engine := by rw [HostPool.engine, held]
    refine ⟨engine, known, ?_⟩
    have inside : (host.name, engine) ∈ f.pool.toList :=
      HostPool.mem_toList.mpr ⟨⟨host, registered, rfl⟩, known⟩
    refine @shows_outcome ε _ life now _ (host.name, engine) ?_
    intro t answered
    have member := mem_of_hostAnswer made inside answered
    refine listing.shows once (same.mem_iff.mpr (List.mem_map.mpr ⟨t, member, ?_⟩))
    rw [← (hostAnswer_eq_some_iff.mp answered).1]
  · intro order finishing
    have reordered : order.Perm results := ((finishing_iff made order).mp finishing).trans same.symm
    have others := Listing.ofAnswers_collects ((reordered.map (·.1)).nodup_iff.mpr once)
    exact (listing.unique once reordered others).symm

def web : Container := { id := "web", state := "running" }

def quick : MemoryEngine := { containers := [⟨web, [], none⟩] }

def slow : MemoryEngine := { latency := 30_000 }

def quickAndSlow : Fleet MemoryEngine :=
  { pool := {
      hosts := [⟨"quick", "local"⟩, ⟨"slow", "local"⟩]
      engines := [("slow", slow), ("quick", quick)] } }

/-- With ten seconds' time the quick host is listed and the slow one is not. -/
theorem list_partitions_hosts_quickAndSlow :
    quickAndSlow.pool.Built ∧ ∃ moment listing,
      quickAndSlow.list { deadline := some 10_000 } 0 = some ⟨moment, listing⟩ ∧
      listing.Shows "quick" (.ok [web]) ∧ listing.Shows "slow" (.error .deadlineExceeded) := by
  have built : quickAndSlow.pool.Built :=
    @HostPool.Built.insert _ _ _ ⟨"slow", "local"⟩ slow
      (@HostPool.Built.insert _ _ _ ⟨"quick", "local"⟩ quick .empty rfl) rfl
  obtain ⟨moment, listing, listed, partitions⟩ :=
    list_partitions_hosts built { deadline := some 10_000 } 0 fun _ _ => .inr nofun
  refine ⟨built, moment, listing, listed, ?_, ?_⟩
  · obtain ⟨engine, known, inTime, -⟩ := partitions.shown ⟨"quick", "local"⟩ List.mem_cons_self
    cases known
    exact inTime 0 rfl rfl
  · obtain ⟨engine, known, -, late⟩ :=
      partitions.shown ⟨"slow", "local"⟩ (List.mem_cons_of_mem _ List.mem_cons_self)
    cases known
    refine late 10_000 rfl ?_
    rintro time takes
    cases takes
    rfl

end FleetBoard.Fleet

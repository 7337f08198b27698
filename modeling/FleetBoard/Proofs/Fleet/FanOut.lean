import FleetBoard.Fleet.Basic
import FleetBoard.Proofs.Call.Endings
import FleetBoard.Proofs.Fleet.Pool

/-!
# What comes of a fan-out

A fan-out waits for all of its tasks. If each of them comes to an end, what is gathered is the
result of each, in the order in which they ended, and the moment is that of the last.
-/

namespace FleetBoard

namespace Gathered

variable {α : Type}

theorem mapM_id_some (timed : List (Timed α)) : (timed.map some).mapM id = some timed := by
  induction timed with
  | nil => rfl
  | cons t timed ih =>
      rw [List.map_cons, List.mapM_cons, ih]
      rfl

@[simp] theorem ofTasks_nil (start : Nat) :
    ofTasks start ([] : List (Option (Timed α))) = some ⟨[], start⟩ := by
  simp [ofTasks]

/-- Tasks that all end leave their results, in some order. -/
theorem ofTasks_some (start : Nat) (timed : List (Timed α)) :
    ∃ results, ofTasks start (timed.map some) =
        some ⟨results, (timed.map (·.moment)).foldl max start⟩ ∧
      results.Perm (timed.map (·.value)) := by
  refine ⟨_, by rw [ofTasks, mapM_id_some], ?_⟩
  exact (List.mergeSort_perm timed _).map _

theorem eq_map_some_of_mapM {tasks : List (Option α)} {results : List α}
    (all : tasks.mapM id = some results) : tasks = results.map some := by
  induction tasks generalizing results with
  | nil =>
      cases all
      rfl
  | cons task tasks ih =>
      obtain ⟨result, here, rest, later, rfl⟩ : ∃ result, task = some result ∧
          ∃ rest, tasks.mapM id = some rest ∧ result :: rest = results := by
        simpa [List.mapM_cons, Option.bind_eq_some_iff] using all
      rw [here, ih later, List.map_cons]

/-- What is gathered is what all tasks have come to. -/
theorem exists_of_ofTasks {start : Nat} {tasks : List (Option (Timed α))} {g : Gathered α}
    (gathered : ofTasks start tasks = some g) :
    ∃ timed : List (Timed α), tasks = timed.map some ∧
      g.moment = (timed.map (·.moment)).foldl max start ∧
      g.results.Perm (timed.map (·.value)) := by
  rw [ofTasks] at gathered
  split at gathered
  · cases gathered
  · next timed all =>
      cases gathered
      exact ⟨timed, eq_map_some_of_mapM all, rfl, (List.mergeSort_perm timed _).map _⟩

theorem exists_map_some {tasks : List (Option α)} (ends : ∀ task ∈ tasks, task ≠ none) :
    ∃ results : List α, tasks = results.map some := by
  induction tasks with
  | nil => exact ⟨[], rfl⟩
  | cons task tasks ih =>
      obtain ⟨result, rfl⟩ := Option.ne_none_iff_exists'.mp (ends task List.mem_cons_self)
      obtain ⟨results, rfl⟩ := ih fun other inside => ends other (List.mem_cons_of_mem _ inside)
      exact ⟨result :: results, rfl⟩

/-- The moment of the last task is not before the start and not before any task. -/
theorem foldl_max_le_iff {start bound : Nat} {moments : List Nat} :
    moments.foldl max start ≤ bound ↔ start ≤ bound ∧ ∀ moment ∈ moments, moment ≤ bound := by
  induction moments generalizing start with
  | nil => simp
  | cons moment moments ih =>
      rw [List.foldl_cons, ih, Nat.max_le, List.forall_mem_cons, and_assoc]

end Gathered

namespace Fleet

variable {ε : Type} [ContainerEngine ε] {f : Fleet ε} {life : Lifetime} {now : Nat} {all : Bool}

def hostAnswer (life : Lifetime) (now : Nat) (all : Bool) (host : String × ε) :
    Option (Timed HostAnswer) :=
  (life.run now (ContainerEngine.list host.2 all)).map fun t => ⟨t.moment, (host.1, t.value)⟩

theorem hostAnswer_eq_some_iff {host : String × ε} {t : Timed HostAnswer} :
    hostAnswer life now all host = some t ↔
      t.value.1 = host.1 ∧
        life.run now (ContainerEngine.list host.2 all) = some ⟨t.moment, t.value.2⟩ := by
  obtain ⟨moment, name, result⟩ := t
  rw [hostAnswer, Option.map_eq_some_iff]
  constructor
  · rintro ⟨⟨m, r⟩, ran, same⟩
    cases same
    exact ⟨rfl, ran⟩
  · rintro ⟨rfl, ran⟩
    exact ⟨_, ran, rfl⟩

/-- Hosts that all answer are all heard, in the order in which they answer. -/
theorem askHosts_spec (ends : ∀ host ∈ f.pool.toList, hostAnswer life now all host ≠ none) :
    ∃ (timed : List (Timed HostAnswer)) (results : List HostAnswer),
      f.pool.toList.map (hostAnswer life now all) = timed.map some ∧
      f.askHosts life now all = some ⟨results, (timed.map (·.moment)).foldl max now⟩ ∧
      results.Perm (timed.map (·.value)) := by
  have answered : ∀ task ∈ f.pool.toList.map (hostAnswer life now all), task ≠ none := by
    intro task inside
    obtain ⟨host, there, rfl⟩ := List.mem_map.mp inside
    exact ends host there
  obtain ⟨timed, made⟩ := Gathered.exists_map_some answered
  obtain ⟨results, gathered, same⟩ := Gathered.ofTasks_some now timed
  refine ⟨timed, results, made, ?_, same⟩
  rw [← made] at gathered
  exact gathered

theorem mem_of_hostAnswer {timed : List (Timed HostAnswer)} {t : Timed HostAnswer}
    (made : f.pool.toList.map (hostAnswer life now all) = timed.map some) {host : String × ε}
    (inside : host ∈ f.pool.toList) (answered : hostAnswer life now all host = some t) :
    t ∈ timed := by
  have there : some t ∈ timed.map some := by
    rw [← made, ← answered]
    exact List.mem_map_of_mem inside
  obtain ⟨_, member, equal⟩ := List.mem_map.mp there
  cases equal
  exact member

theorem exists_hostAnswer {timed : List (Timed HostAnswer)} {t : Timed HostAnswer}
    (made : f.pool.toList.map (hostAnswer life now all) = timed.map some) (inside : t ∈ timed) :
    ∃ host ∈ f.pool.toList, hostAnswer life now all host = some t := by
  have there : some t ∈ timed.map some := List.mem_map_of_mem inside
  rw [← made] at there
  exact List.mem_map.mp there

/-- The names in the answers are those of the hosts. -/
theorem names_of_map_hostAnswer {timed : List (Timed HostAnswer)}
    (made : f.pool.toList.map (hostAnswer life now all) = timed.map some) :
    timed.map (fun t => t.value.1) = f.pool.toList.map (·.1) := by
  generalize f.pool.toList = hosts at made
  induction hosts generalizing timed with
  | nil =>
      cases timed with
      | nil => rfl
      | cons t timed => cases made
  | cons host hosts ih =>
      cases timed with
      | nil => cases made
      | cons t timed =>
          rw [List.map_cons, List.map_cons, List.cons.injEq] at made
          rw [List.map_cons, List.map_cons, ih made.2, (hostAnswer_eq_some_iff.mp made.1).1]

/-- Unless a host and the call both go on for ever, every host is heard, and nobody else. -/
theorem askHosts_of_built (built : f.pool.Built)
    (ends : ∀ host ∈ f.pool.toList, (ContainerEngine.list host.2 all).takes ≠ none ∨
      life.endsAt ≠ none) :
    ∃ (timed : List (Timed HostAnswer)) (results : List HostAnswer),
      f.pool.toList.map (hostAnswer life now all) = timed.map some ∧
      f.askHosts life now all = some ⟨results, (timed.map (·.moment)).foldl max now⟩ ∧
      results.Perm (timed.map (·.value)) ∧ (results.map (·.1)).Perm (f.hosts.map (·.name)) := by
  have answering : ∀ host ∈ f.pool.toList, hostAnswer life now all host ≠ none := by
    intro host inside silent
    rw [hostAnswer, Option.map_eq_none_iff, Lifetime.run_eq_none_iff] at silent
    rcases ends host inside with given | given
    · exact given silent.1
    · exact given silent.2
  obtain ⟨timed, results, made, asked, same⟩ := askHosts_spec answering
  refine ⟨timed, results, made, asked, same, ?_⟩
  have names := (names_of_map_hostAnswer made).trans built.paired.names_toList
  have mapped := same.map (·.1)
  rw [List.map_map] at mapped
  rw [hosts, ← names]
  exact mapped

end Fleet

end FleetBoard

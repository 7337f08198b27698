import FleetBoard.Proofs.Fleet.Schedules
import FleetBoard.Proofs.Fleet.Share

/-!
# Sampling many is sampling one by one

The tasks of a fan-out race for the cache: of two tasks for one container the later may be served
what the earlier has stored, or may have looked before and ask the engine again, and a sample that
is stored may push out others. As long as engines give the same answers and the clock of the cache
stands still, none of this can be seen. What a task comes to is what its container would have given
alone, and samples that have been given and samples that are still owed are together those of all
containers, after every step of every schedule.
-/

namespace FleetBoard

open StatsEvent (samples samples_nil samples_cons)
open Fleet (sampled)

variable {ε : Type} [ContainerEngine ε]

/-- The sample that a call for one container gives, if it gives one. -/
def Fleet.alone (f : Fleet ε) (life : Lifetime) (now : Nat) (c : ContainerRef) :
    Option ContainerStats :=
  (f.containerStats life now c).2.bind fun answer => answer.value.toOption

/-- The engines of a pool come to an answer about each of some containers, and always to the same
one. -/
def HostPool.Steady (p : HostPool ε) (containers : List ContainerRef)
    (answer : ContainerRef → Except EngineError UsageSnapshot) : Prop :=
  ∀ c ∈ containers, ∀ engine, p.engine c.host = .ok engine → ∀ times, ∃ time,
    ContainerEngine.sampleUsage (ContainerEngine.countSample^[times] engine) c.id =
    ⟨some time, answer c⟩

/-- A fan-out that nothing disturbs: the settings of the cache have passed validation, it holds one
entry for each key, the names of hosts have no colon, the call does not end, and engines are
steady. -/
structure Fleet.Undisturbed (f : Fleet ε) (life : Lifetime) (containers : List ContainerRef)
    (answer : ContainerRef → Except EngineError UsageSnapshot) : Prop where
  valid : f.cache.config.validate = .ok ()
  distinct : f.cache.Distinct
  plain : ∀ c ∈ containers, ':' ∉ c.host.toList
  unending : life.endsAt = none
  steady : f.pool.Steady containers answer

variable {f g : Fleet ε} {life : Lifetime} {now moment : Nat} {containers : List ContainerRef}
  {answer : ContainerRef → Except EngineError UsageSnapshot} {c : ContainerRef} {engine : ε}
  {stats : ContainerStats}

/-! ### One container alone -/

namespace Fleet

theorem alone_of_get (found : f.cache.get f.clock c.key = some stats) :
    f.alone life now c = some stats := by
  rw [alone, containerStats, beginStats_of_hit found]
  rfl

theorem alone_of_unknown {error : FleetError} (missing : f.cache.get f.clock c.key = none)
    (unknown : f.pool.engine c.host = .error error) : f.alone life now c = none := by
  rw [alone, containerStats, beginStats_of_unknown missing unknown]
  rfl

theorem get_eq_none_of_alone (nothing : f.alone life now c = none) :
    f.cache.get f.clock c.key = none := by
  cases found : f.cache.get f.clock c.key with
  | none => rfl
  | some stats =>
      rw [alone_of_get found] at nothing
      cases nothing

end Fleet

namespace HostPool.Steady

variable {p : HostPool ε}

/-- An engine that is asked while the call lives gives its answer. -/
theorem sampleUnder (steady : p.Steady containers answer) (unending : life.endsAt = none)
    (inside : c ∈ containers) (known : p.engine c.host = .ok engine) (now : Nat) :
    ∃ later, ContainerEngine.sampleUnder life now engine c.id =
      (ContainerEngine.countSample engine, some ⟨later, answer c⟩) := by
  obtain ⟨time, answers⟩ := steady c inside engine known 0
  have takes : (ContainerEngine.sampleUsage engine c.id).takes = some time :=
    congrArg Work.takes answers
  have result : (ContainerEngine.sampleUsage engine c.id).result = answer c :=
    congrArg Work.result answers
  refine ⟨now + time, ?_⟩
  rw [ContainerEngine.sampleUnder, Lifetime.isEnded_of_unending unending,
    Lifetime.run_of_live takes (Lifetime.isEnded_of_unending unending _), result]
  rfl

/-- Asking leaves engines as steady as they were. -/
theorem ask (steady : p.Steady containers answer) {host : String}
    (known : p.engine host = .ok engine) :
    (p.modify host fun _ => ContainerEngine.countSample engine).Steady containers answer := by
  intro c inside engine' known' times
  by_cases same : c.host = host
  · rw [same, engine_modify_self _ known] at known'
    cases known'
    rw [← Function.iterate_succ_apply]
    exact steady c inside engine (same ▸ known) (times + 1)
  · rw [engine_modify_ne _ same] at known'
    exact steady c inside engine' known' times

end HostPool.Steady

namespace Fleet.Undisturbed

/-- A container that is not in the cache gives what its engine gives. -/
theorem alone_of_known (still : f.Undisturbed life containers answer) (inside : c ∈ containers)
    (missing : f.cache.get f.clock c.key = none) (known : f.pool.engine c.host = .ok engine) :
    f.alone life now c = sampled c (answer c) := by
  obtain ⟨later, asked⟩ := still.steady.sampleUnder still.unending inside known now
  rw [alone, containerStats, beginStats_of_known missing known, asked]
  dsimp only
  cases answer c <;> rfl

end Fleet.Undisturbed

namespace Traffic

/-! ### What every step keeps -/

/-- One step of the tasks of a fan-out while nothing else goes on. An engine may change as long as
its answers do not. -/
inductive Calm (containers : List ContainerRef)
    (answer : ContainerRef → Except EngineError UsageSnapshot) :
    Traffic ε → Traffic ε → Prop
  | work {s s' : Traffic ε} (works : s.Works s') : Calm containers answer s s'
  | change {f : Fleet ε} {now : Nat} {tasks : List StatsTask}
      {history : List (Timed (StatsEvent ε))} {name : String} {h : ε → ε}
      (steady : (f.pool.modify name h).Steady containers answer) :
    Calm containers answer ⟨f, now, tasks, history⟩
      ⟨{ f with pool := f.pool.modify name h }, now, tasks, history⟩

/-- The sample that a task still owes. -/
def owed (share : ContainerRef → Option ContainerStats) (t : StatsTask) : Option ContainerStats :=
  match t.stage with
  | .served _ | .ended _ | .skipped => none
  | _ => share t.container

theorem owed_of_settled {share : ContainerRef → Option ContainerStats} {t : StatsTask}
    (settled : t.Settled) : owed share t = none := by
  rw [owed]
  rcases t.settled_iff.mp settled with ⟨answer, stage⟩ | ⟨answer, stage⟩ | stage <;> rw [stage]

/-- What a fleet is while a fan-out goes on that began with `f`: what is served from its cache was
served then or is what a container would have given alone. -/
structure Holds (f : Fleet ε) (life : Lifetime) (now : Nat) (containers : List ContainerRef)
    (answer : ContainerRef → Except EngineError UsageSnapshot) (g : Fleet ε) : Prop where
  clock : g.clock = f.clock
  config : g.cache.config = f.cache.config
  distinct : g.cache.Distinct
  steady : g.pool.Steady containers answer
  known : ∀ name, (g.pool.find? name).isSome = (f.pool.find? name).isSome
  cached : ∀ c ∈ containers, g.cache.get f.clock c.key = f.cache.get f.clock c.key ∨
    g.cache.get f.clock c.key = f.alone life now c

/-- A task that is on its way to what its container would have given alone. -/
structure OnWay (f : Fleet ε) (life : Lifetime) (now : Nat) (containers : List ContainerRef)
    (t : StatsTask) : Prop where
  named : t.container ∈ containers
  call : t.life = life
  stage : match t.stage with
    | .missed => f.cache.get f.clock t.container.key = none
    | .asked answer =>
        ∃ a, answer = some a ∧ sampled t.container a.value = f.alone life now t.container
    | .returned a => sampled t.container a = f.alone life now t.container
    | .skipped => False
    | _ => True

/-- The state of a fan-out that began with `f`: samples that have been given and samples that are
owed are together those of all containers. -/
structure Agrees (f : Fleet ε) (life : Lifetime) (now : Nat) (containers : List ContainerRef)
    (answer : ContainerRef → Except EngineError UsageSnapshot) (s : Traffic ε) : Prop where
  fleet : Holds f life now containers answer s.fleet
  tasks : ∀ t ∈ s.tasks, OnWay f life now containers t
  total : (samples s.history ++ s.tasks.filterMap (owed (f.alone life now))).Perm
    (containers.filterMap (f.alone life now))

namespace Holds

variable (holds : Holds f life now containers answer g)
include holds

theorem engine_iff {host : String} :
    (∃ engine, g.pool.engine host = .ok engine) ↔ ∃ engine, f.pool.engine host = .ok engine := by
  have same := holds.known host
  simp only [HostPool.engine_eq_ok]
  rw [← Option.isSome_iff_exists, ← Option.isSome_iff_exists, same]

theorem alone_of_get (inside : c ∈ containers) (found : g.cache.get g.clock c.key = some stats) :
    f.alone life now c = some stats := by
  rw [holds.clock] at found
  rcases holds.cached c inside with same | same
  · exact Fleet.alone_of_get (same ▸ found)
  · exact same ▸ found

theorem missed (inside : c ∈ containers) (missing : g.cache.get g.clock c.key = none) :
    f.cache.get f.clock c.key = none := by
  rw [holds.clock] at missing
  rcases holds.cached c inside with same | same
  · exact same ▸ missing
  · exact Fleet.get_eq_none_of_alone (same ▸ missing)

/-- To store what a container would have given alone changes nothing that can be seen. -/
theorem put (still : f.Undisturbed life containers answer) (inside : c ∈ containers)
    (share : f.alone life now c = some stats) :
    Holds f life now containers answer { g with cache := g.cache.put g.clock c.key stats } := by
  have settings := CacheConfig.validate_eq_ok.mp still.valid
  rw [← holds.config] at settings
  refine { holds with
    config := (StatsCache.put_config ..).trans holds.config
    distinct := StatsCache.distinct_put _ _ _ holds.distinct
    cached := ?_ }
  intro d inside'
  by_cases same : d = c
  · subst same
    right
    rw [share, ← holds.clock]
    exact StatsCache.get_put_self g.clock d.key stats holds.distinct settings.1
  · have different : d.key ≠ c.key := by
      intro keys
      exact same (ContainerRef.key_injective (still.plain d inside') (still.plain c inside) keys)
    have kept := StatsCache.get_put_ne g.clock c.key stats holds.distinct settings.2 different
    rw [holds.clock] at kept
    have before := holds.cached d inside'
    rw [← kept] at before
    dsimp only
    rw [holds.clock]
    exact before

/-- To ask an engine changes nothing that can be seen. -/
theorem ask {host : String} (known : g.pool.engine host = .ok engine) :
    Holds f life now containers answer
      { g with pool := g.pool.modify host fun _ => ContainerEngine.countSample engine } := by
  refine { holds with steady := holds.steady.ask known, known := ?_ }
  intro name
  rw [HostPool.find?_modify, Option.isSome_map]
  exact holds.known name

end Holds

/-- A step of a task keeps the fleet and the task as they should be, and what it gives is what it
owed. -/
theorem goes_spec {t t' : StatsTask} {e : StatsEvent ε} {g' : Fleet ε}
    (still : f.Undisturbed life containers answer) (holds : Holds f life now containers answer g)
    (way : OnWay f life now containers t) (goes : t.Goes g moment e g' t') :
    Holds f life now containers answer g' ∧ OnWay f life now containers t' ∧
      e.sample?.toList ++ (owed (f.alone life now) t').toList =
        (owed (f.alone life now) t).toList := by
  obtain ⟨named, call, stage⟩ := way
  cases goes with
  | skip gone =>
      obtain rfl := call
      rw [Lifetime.isEnded_of_unending still.unending] at gone
      cases gone
  | hit _ found =>
      refine ⟨holds, ⟨named, call, trivial⟩, ?_⟩
      rw [owed, owed, holds.alone_of_get named found]
      rfl
  | miss _ missing => exact ⟨holds, ⟨named, call, holds.missed named missing⟩, rfl⟩
  | @refuse c _ _ error unknown =>
      refine ⟨holds, ⟨named, call, trivial⟩, ?_⟩
      have stranger : f.alone life now c = none := by
        cases known : f.pool.engine c.host with
        | error e => exact Fleet.alone_of_unknown stage known
        | ok engine =>
            obtain ⟨_, known'⟩ := holds.engine_iff.mpr ⟨engine, known⟩
            rw [unknown] at known'
            cases known'
      rw [owed, owed, stranger]
      rfl
  | @ask c _ _ engine known =>
      obtain rfl := call
      obtain ⟨later, asked⟩ := holds.steady.sampleUnder still.unending named known moment
      obtain ⟨_, known'⟩ := holds.engine_iff.mp ⟨engine, known⟩
      rw [asked]
      exact ⟨holds.ask known, ⟨named, rfl, _, rfl, (still.alone_of_known named stage known').symm⟩,
        rfl⟩
  | hear _ =>
      obtain ⟨_, ⟨⟩, fits⟩ := stage
      exact ⟨holds, ⟨named, call, fits⟩, rfl⟩
  | fail =>
      refine ⟨holds, ⟨named, call, trivial⟩, ?_⟩
      rw [owed, owed, ← stage]
      rfl
  | store =>
      refine ⟨holds.put still named stage.symm, ⟨named, call, trivial⟩, ?_⟩
      rw [owed, owed, ← stage]
      rfl

namespace Agrees

variable {s s' : Traffic ε}

/-- In the beginning every task owes what its container gives alone. -/
theorem start (still : f.Undisturbed life containers answer) :
    Agrees f life now containers answer ⟨f, now, StatsTask.fanOut life containers, []⟩ where
  fleet := ⟨rfl, rfl, still.distinct, still.steady, fun _ => rfl, fun _ _ => .inl rfl⟩
  tasks := by
    intro t inside
    obtain ⟨c, named, rfl⟩ := List.mem_map.mp inside
    exact ⟨named, rfl, trivial⟩
  total := by
    rw [samples_nil, List.nil_append, StatsTask.fanOut, List.filterMap_map]
    exact List.Perm.refl _

theorem works (still : f.Undisturbed life containers answer)
    (agrees : Agrees f life now containers answer s) (works : s.Works s') :
    Agrees f life now containers answer s' := by
  cases works with
  | @task g g' moment before after t t' e history goes =>
      obtain ⟨holds, ways, total⟩ := agrees
      obtain ⟨holds', way, given⟩ := goes_spec still holds
        (ways t (List.mem_append_right before List.mem_cons_self)) goes
      refine ⟨holds', StatsTask.forall_moved ways way, List.Perm.trans ?_ total⟩
      -- One sample may go over from what is owed to what has been given; all others stay where they
      -- are.
      dsimp only
      simp only [samples_cons, List.filterMap_eq_flatMap_toList, List.flatMap_append,
        List.flatMap_cons]
      rw [← given, List.append_assoc, ← List.append_assoc (samples history)]
      refine (List.perm_append_comm_assoc ..).trans (List.Perm.of_eq ?_)
      simp only [List.append_assoc]
  | wait time => exact { agrees with }

theorem calm (still : f.Undisturbed life containers answer)
    (agrees : Agrees f life now containers answer s) (calm : Calm containers answer s s') :
    Agrees f life now containers answer s' := by
  cases calm with
  | work works => exact agrees.works still works
  | change steady =>
      refine { agrees with fleet := { agrees.fleet with steady := steady, known := ?_ } }
      intro host
      rw [HostPool.find?_modify, Option.isSome_map]
      exact agrees.fleet.known host

/-- Every schedule keeps the agreement. -/
theorem run (still : f.Undisturbed life containers answer)
    (agrees : Agrees f life now containers answer s)
    (run : Relation.ReflTransGen (Calm containers answer) s s') :
    Agrees f life now containers answer s' := by
  induction run with
  | refl => exact agrees
  | tail _ next ih => exact ih.calm still next

/-- When all tasks have ended, nothing is owed any more. -/
theorem samples_of_complete (agrees : Agrees f life now containers answer s)
    (complete : s.Complete) :
    (samples s.history).Perm (containers.filterMap (f.alone life now)) := by
  have paid : s.tasks.filterMap (owed (f.alone life now)) = [] := by
    rw [List.filterMap_eq_nil_iff]
    intro t inside
    exact owed_of_settled (complete t inside)
  have total := agrees.total
  rw [paid, List.append_nil] at total
  exact total

end Agrees

/-! ### Every schedule comes to an end -/

/-- How many steps a task still has before it. -/
def stepsLeft (t : StatsTask) : Nat :=
  match t.stage with
  | .ready => 4
  | .missed => 3
  | .asked _ => 2
  | .returned _ => 1
  | .served _ | .ended _ | .skipped => 0

/-- Every step of a task is one of the few that it has before it. -/
theorem stepsLeft_lt {t t' : StatsTask} {e : StatsEvent ε} {g' : Fleet ε}
    (goes : t.Goes g moment e g' t') :
    stepsLeft t' < stepsLeft t := by
  cases goes <;> simp [stepsLeft]

/-- A task that has not ended can go on, if need be after some time. -/
theorem exists_goes {t : StatsTask} (way : OnWay f life now containers t) (unsettled : ¬ t.Settled)
    (g : Fleet ε) (moment : Nat) : ∃ time e g' t', t.Goes g (moment + time) e g' t' := by
  obtain ⟨c, call, fanned, stage⟩ := t
  cases stage with
  | ready =>
      cases begins : (fanned && call.isEnded (moment + 0)) with
      | true =>
          obtain ⟨rfl, gone⟩ := Bool.and_eq_true_iff.mp begins
          exact ⟨0, _, _, _, .skip gone⟩
      | false =>
          cases found : g.cache.get g.clock c.key with
          | some stats => exact ⟨0, _, _, _, .hit begins found⟩
          | none => exact ⟨0, _, _, _, .miss begins found⟩
  | missed =>
      cases known : g.pool.engine c.host with
      | error e => exact ⟨0, _, _, _, .refuse known⟩
      | ok engine => exact ⟨0, _, _, _, .ask known⟩
  | asked answer =>
      obtain ⟨a, rfl, -⟩ := way.stage
      exact ⟨a.moment, _, _, _, .hear (Nat.le_add_left a.moment moment)⟩
  | returned answer =>
      cases answer with
      | error e => exact ⟨0, _, _, _, .fail⟩
      | ok snapshot => exact ⟨0, _, _, _, .store⟩
  | served answer => exact absurd (.inl nofun) unsettled
  | ended answer => exact absurd (.inl nofun) unsettled
  | skipped => exact absurd (.inr rfl) unsettled

/-- However far a schedule has come, all tasks can come to their ends. -/
theorem exists_complete {s : Traffic ε} (still : f.Undisturbed life containers answer)
    (agrees : Agrees f life now containers answer s) : ∃ s', s.Working s' ∧ s'.Complete := by
  -- By induction on the steps that all tasks together have before them.
  induction left : (s.tasks.map stepsLeft).sum using Nat.strong_induction_on generalizing s with
  | _ left' ih =>
      by_cases complete : s.Complete
      · exact ⟨s, .refl, complete⟩
      · obtain ⟨t, inside, unsettled⟩ : ∃ t ∈ s.tasks, ¬ t.Settled := by
          simpa [Complete] using complete
        obtain ⟨g, moment, tasks, history⟩ := s
        obtain ⟨before, after, rfl⟩ := List.append_of_mem inside
        obtain ⟨time, e, g', t', goes⟩ := exists_goes (agrees.tasks t inside) unsettled g moment
        have waited : Working _ _ :=
          .single (@Works.wait _ _ g moment (before ++ t :: after) history time)
        have gone := waited.tail (.task goes)
        have fewer := stepsLeft_lt goes
        obtain ⟨s', working, complete⟩ := ih _ (by
          rw [← left, List.map_append, List.map_append, List.map_cons, List.map_cons,
            List.sum_append, List.sum_append, List.sum_cons, List.sum_cons]
          omega) ((agrees.works still (.wait time)).works still (.task goes)) rfl
        exact ⟨s', gone.trans working, complete⟩

end Traffic

/-- Sampling many containers in a call that nothing disturbs gives, in some order, the samples that
calls for the containers one by one would have given, and nothing else. So does every schedule of
the tasks that has come to its end, and every other can come to its end. -/
theorem bulkStats_one_by_one (still : f.Undisturbed life containers answer) (now : Nat) :
    (∃ g result, f.bulkStats life now containers = (g, some result) ∧
      result.value.Perm (containers.filterMap (f.alone life now))) ∧
      ∀ s, Relation.ReflTransGen (Traffic.Calm containers answer)
          ⟨f, now, StatsTask.fanOut life containers, []⟩ s →
        (s.Complete → (samples s.history).Perm (containers.filterMap (f.alone life now))) ∧
          ∃ s', s.Working s' ∧ s'.Complete := by
  have start : Traffic.Agrees f life now containers answer
      ⟨f, now, StatsTask.fanOut life containers, []⟩ :=
    .start still
  refine ⟨?_, ?_⟩
  · obtain ⟨s, working, -, silent, answered⟩ :=
      Traffic.bulkStats_schedule f life now containers [] []
    have agrees := start.run still (Relation.ReflTransGen.mono (fun _ _ => .work) _ _ working)
    cases called : f.bulkStats life now containers with
    | mk g result =>
        rw [called] at silent answered
        cases result with
        | none =>
            obtain ⟨t, inside, waits⟩ := silent rfl
            have stage := (agrees.tasks t inside).stage
            rw [waits] at stage
            obtain ⟨_, ⟨⟩, -⟩ := stage
        | some result =>
            obtain ⟨-, given, mine, all, -, settled⟩ := answered result rfl
            refine ⟨g, result, rfl, ?_⟩
            have complete : s.Complete := by
              intro t inside
              rw [all] at inside
              exact settled t inside
            have total := agrees.samples_of_complete complete
            rw [given, samples_nil, List.append_nil] at total
            exact (List.reverse_perm _).symm.trans total
  · intro s run
    have agrees := start.run still run
    exact ⟨agrees.samples_of_complete, Traffic.exists_complete still agrees⟩

/-- A container named twice, one on an unknown host, and one that is not there. -/
def mixed : List ContainerRef :=
  [⟨"quick", "web"⟩, ⟨"nowhere", "web"⟩, ⟨"quick", "db"⟩, ⟨"quick", "web"⟩]

theorem undisturbed_quickAlone : Fleet.quickAlone.Undisturbed {} mixed
    fun c => (ContainerEngine.sampleUsage Fleet.quick c.id).result where
  valid := rfl
  distinct := List.nodup_nil
  plain := by decide
  unending := rfl
  steady := by
    intro c _ engine known times
    obtain ⟨h, registered, name⟩ := Fleet.sound_quickAlone.built.paired.exists_host known
    obtain rfl := List.mem_singleton.mp registered
    rw [← name] at known
    obtain rfl : Fleet.quick = engine := Except.ok.inj known
    exact ⟨0, ContainerEngine.sampleUsage_iterate MemoryEngine.indifferent times Fleet.quick c.id⟩

/-- The container that is there gives a sample each time that it is named. -/
theorem bulkStats_one_by_one_mixed :
    Fleet.quickAlone.Undisturbed {} mixed
      (fun c => (ContainerEngine.sampleUsage Fleet.quick c.id).result) ∧
      ∃ g result, Fleet.quickAlone.bulkStats {} 0 mixed = (g, some result) ∧
        result.value.map (fun stats => (stats.host, stats.id)) =
          [("quick", "web"), ("quick", "web")] := by
  obtain ⟨⟨g, result, called, same⟩, -⟩ := bulkStats_one_by_one undisturbed_quickAlone 0
  refine ⟨undisturbed_quickAlone, g, result, called, ?_⟩
  have given : (mixed.filterMap (Fleet.quickAlone.alone {} 0)).map
      (fun stats => (stats.host, stats.id)) =
      List.replicate 2 ("quick", "web") := rfl
  have named := same.map fun stats => (stats.host, stats.id)
  rw [given] at named
  exact List.perm_replicate.mp named

end FleetBoard

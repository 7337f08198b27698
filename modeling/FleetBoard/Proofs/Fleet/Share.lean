import FleetBoard.Proofs.Fleet.Partition
import FleetBoard.Proofs.Usage.Expiry
import Mathlib.Logic.Function.Iterate

/-!
# What one host contributes to the samples of a fleet

The samples of a fleet are taken in two steps: first every host lists its containers, then every
container is sampled, and both steps are under one call. In the second step hosts do not get into
each other's way. What a host that answers at once contributes is a function of its engine and of
what was in the cache (`share`): the tasks of other hosts write under other keys, and a prune takes
away nothing that is fresh. The first step is where one host can cost another its samples, since the
second does not begin before the slowest host has answered. If that takes until the end of the call,
no container is sampled at all.
-/

namespace FleetBoard

variable {ε : Type} [ContainerEngine ε]

namespace ContainerEngine

/-- What engines answer has nothing to do with how often they have been asked. -/
def Indifferent (ε : Type) [ContainerEngine ε] : Prop :=
  ∀ (engine : ε) (id : String), sampleUsage (countSample engine) id = sampleUsage engine id

theorem sampleUsage_iterate (indifferent : Indifferent ε) (times : Nat) (engine : ε) (id : String) :
    sampleUsage (countSample^[times] engine) id = sampleUsage engine id := by
  induction times with
  | zero => rfl
  | succ times ih => rw [Function.iterate_succ_apply', indifferent, ih]

end ContainerEngine

theorem MemoryEngine.indifferent : ContainerEngine.Indifferent MemoryEngine := fun _ _ => rfl

namespace Fleet

/-- An engine that answers at once, and answers the same however often it has been asked. -/
structure Prompt (engine : ε) : Prop where
  lists : (ContainerEngine.list engine false).takes = some 0
  samples : ∀ times id,
    ContainerEngine.sampleUsage (ContainerEngine.countSample^[times] engine) id =
      ⟨some 0, (ContainerEngine.sampleUsage engine id).result⟩

/-- What is held under the key of a container is about the host of the container. -/
def Labelled (f : Fleet ε) : Prop :=
  ∀ c : ContainerRef, ':' ∉ c.host.toList → ∀ stats,
    f.cache.get f.clock c.key = some stats → stats.host = c.host

/-- A fleet as it is set up and used: hosts are registered one by one under names without a colon,
the settings of the cache have passed validation, and what the cache holds it holds under the keys
of what it is about. -/
structure Sound (f : Fleet ε) : Prop where
  built : f.pool.Built
  plain : ∀ host ∈ f.hosts, ':' ∉ host.name.toList
  valid : f.cache.config.validate = .ok ()
  distinct : f.cache.Distinct
  labelled : f.Labelled

def sampled (c : ContainerRef) : Except EngineError UsageSnapshot → Option ContainerStats
  | .ok snapshot => some ⟨c.id, c.host, snapshot.sample⟩
  | .error _ => none

/-- What a container contributes: the fresh sample in the cache, else the one that its engine
gives. -/
def share (f : Fleet ε) (engine : ε) (c : ContainerRef) : Option ContainerStats :=
  match f.cache.get f.clock c.key with
  | some stats => some stats
  | none => sampled c (ContainerEngine.sampleUsage engine c.id).result

/-! ### What the tasks of one fan-out leave of a fleet -/

/-- What stays as it was in a fleet while samples are taken, seen from a host: its engine, but for
the number of requests, and what is fresh in the cache, but for shares of its own that have been
added. -/
structure Keeps (f : Fleet ε) (host : String) (engine : ε) (g : Fleet ε) : Prop where
  clock : g.clock = f.clock
  config : g.cache.config = f.cache.config
  distinct : g.cache.Distinct
  labelled : g.Labelled
  asked : ∃ times, g.pool.engine host = .ok (ContainerEngine.countSample^[times] engine)
  cached : ∀ c : ContainerRef, c.host = host →
    g.cache.get g.clock c.key = f.share engine c ∨
      (g.cache.get g.clock c.key = none ∧ f.cache.get f.clock c.key = none)

/-- A result that a task for a container may come to, seen from a host: it is about the host of the
container, and for containers of that host it is their share. -/
structure Fits (f : Fleet ε) (host : String) (engine : ε) (c : ContainerRef)
    (result : Except FleetError ContainerStats) : Prop where
  about : ∀ stats, result = .ok stats → stats.host = c.host
  share : c.host = host → result.toOption = f.share engine c

variable {f g : Fleet ε} {host : String} {engine : ε} {c : ContainerRef} {life : Lifetime}
    {now : Nat}

theorem share_of_miss (missed : f.cache.get f.clock c.key = none) :
    f.share engine c = sampled c (ContainerEngine.sampleUsage engine c.id).result := by
  rw [share, missed]

namespace Keeps

/-- In the beginning everything is as it was. -/
theorem start (sound : f.Sound) (known : f.pool.engine host = .ok engine) :
    Keeps f host engine f where
  clock := rfl
  config := rfl
  distinct := sound.distinct
  labelled := sound.labelled
  asked := ⟨0, known⟩
  cached := by
    intro c _
    cases found : f.cache.get f.clock c.key with
    | none => exact .inr ⟨rfl, rfl⟩
    | some stats => exact .inl (by rw [share, found])

/-- A container that is not found in the cache was not there in the beginning either. -/
theorem missed (keeps : Keeps f host engine g) (ours : c.host = host)
    (miss : g.cache.get g.clock c.key = none) : f.cache.get f.clock c.key = none := by
  rcases keeps.cached c ours with same | ⟨-, before⟩
  · rw [miss] at same
    cases found : f.cache.get f.clock c.key with
    | none => rfl
    | some stats =>
        rw [share, found] at same
        cases same
  · exact before

/-- A task that asks the engine of a host leaves all else alone. -/
theorem ask {engine' : ε} (keeps : Keeps f host engine g)
    (known : g.pool.engine c.host = .ok engine') :
    Keeps f host engine
      { g with pool := g.pool.modify c.host fun _ => ContainerEngine.countSample engine' } where
  clock := keeps.clock
  config := keeps.config
  distinct := keeps.distinct
  labelled := keeps.labelled
  asked := by
    obtain ⟨times, before⟩ := keeps.asked
    by_cases ours : c.host = host
    · rw [← ours, known] at before
      cases before
      refine ⟨times + 1, ?_⟩
      rw [← ours, Function.iterate_succ_apply']
      exact HostPool.engine_modify_self _ known
    · exact ⟨times, (HostPool.engine_modify_ne _ (Ne.symm ours)).trans before⟩
  cached := keeps.cached

/-- A sample goes into the cache under the key of its container. That changes nothing under the keys
of other containers, and for a container of the host it is the share that was missing. -/
theorem put {stats : ContainerStats} (sound : f.Sound) (keeps : Keeps f host engine g)
    (plain : ':' ∉ c.host.toList) (hostPlain : ':' ∉ host.toList) (about : stats.host = c.host)
    (fits : c.host = host → f.share engine c = some stats) :
    Keeps f host engine { g with cache := g.cache.put g.clock c.key stats } := by
  have settings := CacheConfig.validate_eq_ok.mp sound.valid
  rw [← keeps.config] at settings
  have self := StatsCache.get_put_self g.clock c.key stats keeps.distinct settings.1
  have others : ∀ d : ContainerRef, ':' ∉ d.host.toList → d ≠ c →
      (g.cache.put g.clock c.key stats).get g.clock d.key = g.cache.get g.clock d.key := by
    intro d plain' different
    refine StatsCache.get_put_ne g.clock c.key stats keeps.distinct settings.2 ?_
    intro same
    exact different (ContainerRef.key_injective plain' plain same)
  refine ⟨keeps.clock, (StatsCache.put_config ..).trans keeps.config,
    StatsCache.distinct_put _ _ _ keeps.distinct, ?_, keeps.asked, ?_⟩
  · intro d plain' theirs found
    by_cases same : d = c
    · subst same
      rw [self] at found
      cases found
      exact about
    · rw [others d plain' same] at found
      exact keeps.labelled d plain' theirs found
  · intro d ours
    by_cases same : d = c
    · subst same
      exact .inl (self.trans (fits ours).symm)
    · rw [others d (ours ▸ hostPlain) same]
      exact keeps.cached d ours

end Keeps

/-! ### The two halves of a task -/

/-- What a task that has begun can be: at its end, with a fitting result, or waiting for an engine.
The engine of the host answers at once, with what makes the share. -/
inductive BegunFits (f : Fleet ε) (host : String) (engine : ε) (now : Nat) (c : ContainerRef) :
    Begun → Prop
  | done {result : Except FleetError ContainerStats} (fits : Fits f host engine c result) :
      BegunFits f host engine now c (.done result)
  | asked (t : Timed (Except EngineError UsageSnapshot))
      (ours : c.host = host → t.moment = now ∧ sampled c t.value = f.share engine c) :
      BegunFits f host engine now c (.asked (some t))

theorem beginStats_spec (prompt : Prompt engine) (keeps : Keeps f host engine g)
    (plain : ':' ∉ c.host.toList) (ends : life.endsAt ≠ none) (lives : life.isEnded now = false) :
    Keeps f host engine (g.beginStats life now c).1 ∧
      BegunFits f host engine now c (g.beginStats life now c).2 := by
  rw [beginStats]
  cases found : g.cache.get g.clock c.key with
  | some stats =>
      refine ⟨keeps, .done ⟨?_, ?_⟩⟩
      · intro _ same
        cases same
        exact keeps.labelled c plain stats found
      · intro ours
        rcases keeps.cached c ours with same | ⟨missing, -⟩
        · rw [← same, found]
          rfl
        · rw [found] at missing
          cases missing
  | none =>
      obtain ⟨times, ourEngine⟩ := keeps.asked
      cases known : g.pool.engine c.host with
      | error e =>
          refine ⟨keeps, .done ⟨nofun, ?_⟩⟩
          intro ours
          rw [ours, ourEngine] at known
          cases known
      | ok engine' =>
          have reached : (ContainerEngine.sampleUnder life now engine' c.id) =
              (ContainerEngine.countSample engine',
                life.run now (ContainerEngine.sampleUsage engine' c.id)) := by
            rw [ContainerEngine.sampleUnder, if_neg (by simp [lives])]
          dsimp only
          rw [reached]
          refine ⟨keeps.ask known, ?_⟩
          obtain ⟨t, answered⟩ : ∃ t, life.run now (ContainerEngine.sampleUsage engine' c.id) =
              some t := by
            refine Option.ne_none_iff_exists'.mp ?_
            intro silent
            exact ends (Lifetime.run_eq_none_iff.mp silent).2
          rw [answered]
          refine .asked t ?_
          intro ours
          rw [ours, ourEngine] at known
          cases known
          have atOnce := prompt.samples times c.id
          have ran := @Lifetime.run_of_live _ life now 0 _ (congrArg Work.takes atOnce) lives
          rw [answered] at ran
          cases ran
          refine ⟨rfl, ?_⟩
          rw [share_of_miss (keeps.missed ours found), atOnce]

theorem endStats_spec {answer : Except EngineError UsageSnapshot} (sound : f.Sound)
    (keeps : Keeps f host engine g) (plain : ':' ∉ c.host.toList) (hostPlain : ':' ∉ host.toList)
    (fits : c.host = host → sampled c answer = f.share engine c) :
    Keeps f host engine (g.endStats c answer).1 ∧ Fits f host engine c (g.endStats c answer).2 := by
  cases answer with
  | error e =>
      refine ⟨keeps, nofun, ?_⟩
      intro ours
      exact fits ours
  | ok snapshot =>
      refine ⟨?_, ?_, ?_⟩
      · exact keeps.put sound plain hostPlain rfl fun ours => (fits ours).symm
      · intro _ same
        cases same
        rfl
      · intro ours
        exact fits ours

/-! ### The tasks of one fan-out -/

/-- How far a fan-out for samples has come, seen from a host: of the tasks that have begun, those
for its containers have ended, in order and each with its share. -/
structure Serves (f : Fleet ε) (host : String) (engine : ε) (begun : List ContainerRef)
    (s : Sampling ε) : Prop where
  keeps : Keeps f host engine s.fleet
  shares : s.done.reverse.filter (fun stats => stats.host = host) =
    (begun.filter fun c => c.host = host).filterMap (f.share engine)
  waiting : ∀ task ∈ s.waiting, ∃ t, task = some t ∧ t.value.1.host ≠ host ∧
    ':' ∉ t.value.1.host.toList

namespace Serves

variable {begun : List ContainerRef} {s : Sampling ε}

/-- A task that ends adds its result, which is the share for a container of the host. -/
theorem note {result : Except FleetError ContainerStats} (serves : Serves f host engine begun s)
    (keeps : Keeps f host engine g) (fits : Fits f host engine c result) :
    Serves f host engine (begun ++ [c]) (s.note g result) := by
  have shares : (s.note g result).done.reverse.filter (fun stats => stats.host = host) =
      ((begun ++ [c]).filter fun c => c.host = host).filterMap (f.share engine) := by
    rw [List.filter_append, List.filterMap_append, ← serves.shares]
    by_cases ours : c.host = host
    · have fit := fits.share ours
      cases result with
      | error e =>
          simp [Sampling.note, ours, ← fit, Except.toOption]
      | ok stats =>
          simp [Sampling.note, ours, ← fit, Except.toOption, fits.about stats rfl]
    · cases result with
      | error e => simp [Sampling.note, ours]
      | ok stats => simp [Sampling.note, ours, fits.about stats rfl]
  cases result <;> exact ⟨keeps, shares, serves.waiting⟩

/-- A task that waits for another host's engine adds nothing. -/
theorem wait {t : Timed (ContainerRef × Except EngineError UsageSnapshot)}
    (serves : Serves f host engine begun s) (keeps : Keeps f host engine g)
    (other : t.value.1.host ≠ host) (plain : ':' ∉ t.value.1.host.toList) :
    Serves f host engine (begun ++ [t.value.1])
      { s with fleet := g, waiting := some t :: s.waiting } where
  keeps := keeps
  shares := by
    rw [List.filter_append, List.filterMap_append, ← serves.shares]
    simp [other]
  waiting := by
    intro task inside
    rcases List.mem_cons.mp inside with rfl | earlier
    · exact ⟨t, rfl, other, plain⟩
    · exact serves.waiting task earlier

/-- A task for a container begins. -/
theorem start (sound : f.Sound) (prompt : Prompt engine) (hostPlain : ':' ∉ host.toList)
    (ends : life.endsAt ≠ none) (lives : life.isEnded now = false)
    (serves : Serves f host engine begun s) (plain : ':' ∉ c.host.toList) :
    Serves f host engine (begun ++ [c]) (Sampling.start life now s c) := by
  rw [Sampling.start, if_neg (by simp [lives])]
  obtain ⟨keeps, fits⟩ := beginStats_spec prompt serves.keeps plain ends lives
  generalize s.fleet.beginStats life now c = begins at keeps fits
  obtain ⟨g, task⟩ := begins
  cases fits with
  | done fits => exact serves.note keeps fits
  | asked t ours =>
      dsimp only
      split
      · next atOnce =>
          obtain ⟨keeps, fits⟩ :=
            endStats_spec sound keeps plain hostPlain fun same => (ours same).2
          exact serves.note keeps fits
      · next later =>
          refine @wait _ _ _ _ _ _ _ _ ⟨t.moment, (c, t.value)⟩ serves keeps ?_ plain
          intro same
          exact later (ours same).1

/-- All tasks begin, in order. -/
theorem starts (sound : f.Sound) (prompt : Prompt engine) (hostPlain : ':' ∉ host.toList)
    (ends : life.endsAt ≠ none) (lives : life.isEnded now = false) {containers : List ContainerRef}
    (plain : ∀ c ∈ containers, ':' ∉ c.host.toList) (serves : Serves f host engine begun s) :
    Serves f host engine (begun ++ containers) (containers.foldl (Sampling.start life now) s) := by
  induction containers generalizing begun s with
  | nil =>
      rw [List.append_nil]
      exact serves
  | cons c containers ih =>
      rw [List.foldl_cons, List.append_cons]
      refine ih (fun d inside => plain d (List.mem_cons_of_mem c inside)) ?_
      exact serves.start sound prompt hostPlain ends lives (plain c List.mem_cons_self)

/-- A task of another host ends. -/
theorem finish (sound : f.Sound) (hostPlain : ':' ∉ host.toList)
    (serves : Serves f host engine begun s)
    {answer : ContainerRef × Except EngineError UsageSnapshot} (other : answer.1.host ≠ host)
    (plain : ':' ∉ answer.1.host.toList) :
    Serves f host engine begun (s.finish answer) := by
  obtain ⟨keeps, fits⟩ := @endStats_spec _ _ f s.fleet host engine answer.1 answer.2 sound
    serves.keeps plain hostPlain fun ours => absurd ours other
  have noted := serves.note keeps fits
  refine ⟨noted.keeps, ?_, noted.waiting⟩
  have shares := noted.shares
  rw [List.filter_append, List.filter_cons_of_neg (by simpa using other), List.filter_nil,
    List.append_nil] at shares
  exact shares

theorem finishes (sound : f.Sound) (hostPlain : ':' ∉ host.toList)
    {answers : List (ContainerRef × Except EngineError UsageSnapshot)}
    (others : ∀ answer ∈ answers, answer.1.host ≠ host ∧ ':' ∉ answer.1.host.toList)
    (serves : Serves f host engine begun s) :
    Serves f host engine begun (answers.foldl Sampling.finish s) := by
  induction answers generalizing s with
  | nil => exact serves
  | cons answer answers ih =>
      obtain ⟨other, plain⟩ := others answer List.mem_cons_self
      refine ih (fun a inside => others a (List.mem_cons_of_mem _ inside)) ?_
      exact serves.finish sound hostPlain other plain

end Serves

/-- Sampling in a call that lives gives a host its shares, in order, whatever the other containers
are and whatever their engines do. -/
theorem bulkStats_spec (sound : f.Sound) (known : f.pool.engine host = .ok engine)
    (prompt : Prompt engine) (hostPlain : ':' ∉ host.toList) (ends : life.endsAt ≠ none)
    (lives : life.isEnded now = false) {containers : List ContainerRef}
    (plain : ∀ c ∈ containers, ':' ∉ c.host.toList) :
    ∃ g answer, f.bulkStats life now containers = (g, some answer) ∧
      answer.value.filter (fun stats => stats.host = host) =
        (containers.filter fun c => c.host = host).filterMap (f.share engine) := by
  have begun : Serves f host engine [] { fleet := f } :=
    ⟨.start sound known, rfl, fun _ inside => absurd inside List.not_mem_nil⟩
  have started := begun.starts sound prompt hostPlain ends lives plain
  rw [List.nil_append] at started
  rw [bulkStats]
  generalize containers.foldl (Sampling.start life now) { fleet := f } = s at started
  obtain ⟨timed, made⟩ : ∃ timed : List (Timed _), s.waiting.reverse = timed.map some := by
    refine Gathered.exists_map_some ?_
    intro task inside
    obtain ⟨t, rfl, -⟩ := started.waiting task (List.mem_reverse.mp inside)
    exact Option.some_ne_none t
  obtain ⟨results, gathered, same⟩ := Gathered.ofTasks_some now timed
  have others : ∀ answer ∈ results, answer.1.host ≠ host ∧ ':' ∉ answer.1.host.toList := by
    intro answer inside
    obtain ⟨t, there, rfl⟩ := List.mem_map.mp (same.mem_iff.mp inside)
    have waits : some t ∈ s.waiting := by
      rw [← List.mem_reverse, made]
      exact List.mem_map_of_mem there
    obtain ⟨_, equal, other⟩ := started.waiting _ waits
    cases equal
    exact other
  have finished := started.finishes sound hostPlain others
  rw [made]
  dsimp only
  rw [gathered]
  exact ⟨_, _, rfl, finished.shares⟩

/-- Nothing is sampled in a call that has ended. -/
theorem bulkStats_of_ended (ended : life.isEnded now = true) (containers : List ContainerRef) :
    f.bulkStats life now containers = (f, some ⟨now, []⟩) := by
  have idle : containers.foldl (Sampling.start life now) { fleet := f } = { fleet := f } := by
    induction containers with
    | nil => rfl
    | cons c containers ih => rw [List.foldl_cons, Sampling.start, if_pos ended, ih]
  rw [bulkStats, idle]
  dsimp only
  rw [List.reverse_nil, Gathered.ofTasks_nil]
  rfl

/-! ### Both steps -/

def running (host : String) (engine : ε) : List ContainerRef :=
  match (ContainerEngine.list engine false).result with
  | .ok containers => containers.map fun c => ⟨host, c.id⟩
  | .error _ => []

/-- A container is listed by its own host. -/
theorem host_of_mem_containersOf {answers : List HostAnswer} (inside : c ∈ containersOf answers) :
    c.host ∈ answers.map (·.1) := by
  obtain ⟨⟨name, result⟩, given, listed⟩ := List.mem_flatMap.mp inside
  refine List.mem_map.mpr ⟨_, given, ?_⟩
  cases result with
  | error e => cases listed
  | ok containers =>
      obtain ⟨_, -, rfl⟩ := List.mem_map.mp listed
      rfl

/-- What a host listed is in the answers of all hosts once. -/
theorem filter_containersOf {answers : List HostAnswer} (distinct : (answers.map (·.1)).Nodup)
    (inside : (host, (ContainerEngine.list engine false).result) ∈ answers) :
    (containersOf answers).filter (fun c => c.host = host) = running host engine := by
  have apart : ∀ others : List HostAnswer, host ∉ others.map (·.1) →
      (containersOf others).filter (fun c => c.host = host) = [] := by
    intro others absent
    rw [List.filter_eq_nil_iff]
    intro c there
    rw [decide_eq_true_eq]
    rintro rfl
    exact absent (host_of_mem_containersOf there)
  obtain ⟨before, after, rfl⟩ := List.append_of_mem inside
  rw [List.map_append, List.map_cons, List.nodup_middle] at distinct
  have absent := (List.nodup_cons.mp distinct).1
  rw [List.mem_append, not_or] at absent
  rw [containersOf, List.flatMap_append, List.flatMap_cons, List.filter_append, List.filter_append]
  change (containersOf before).filter _ ++ (_ ++ (containersOf after).filter _) = _
  rw [apart before absent.1, apart after absent.2, List.nil_append, List.append_nil, running]
  cases (ContainerEngine.list engine false).result with
  | error e => rfl
  | ok containers =>
      refine List.filter_eq_self.mpr ?_
      intro c there
      obtain ⟨_, -, rfl⟩ := List.mem_map.mp there
      exact decide_eq_true rfl

/-- An engine gives its running containers before the call ends. -/
def ListsInTime (life : Lifetime) (now : Nat) (engine : ε) : Prop :=
  ∃ time, (ContainerEngine.list engine false).takes = some time ∧ life.isEnded (now + time) = false

/-- If every host lists in time, the call still lives when the last of them has answered. A host
that answers at once then has its shares in the answer. -/
theorem allRunningStats_inTime (sound : f.Sound) (known : f.pool.engine host = .ok engine)
    (prompt : Prompt engine) (ends : life.endsAt ≠ none) (lives : life.isEnded now = false)
    (inTime : ∀ h ∈ f.pool.toList, ListsInTime life now h.2) :
    ∃ g answer, f.allRunningStats life now = (g, some answer) ∧
      answer.value.filter (fun stats => stats.host = host) =
        (running host engine).filterMap (f.share engine) := by
  obtain ⟨timed, results, made, asked, same, names⟩ :=
    @askHosts_of_built _ _ f life now false sound.built fun _ _ => .inr ends
  obtain ⟨ending, ended⟩ := Option.ne_none_iff_exists'.mp ends
  have alive : ∀ {moment}, life.isEnded moment = false ↔ moment < ending := by
    intro moment
    rw [← Bool.not_eq_true, Lifetime.isEnded_of_endsAt ended, Nat.not_le]
  have livesOn : life.isEnded ((timed.map (·.moment)).foldl max now) = false := by
    rw [alive] at lives ⊢
    refine Nat.lt_of_le_pred (Nat.zero_lt_of_lt lives) ?_
    rw [Gathered.foldl_max_le_iff]
    refine ⟨Nat.le_pred_of_lt lives, ?_⟩
    intro moment given
    obtain ⟨t, inside, rfl⟩ := List.mem_map.mp given
    obtain ⟨h, registered, answered⟩ := exists_hostAnswer made inside
    obtain ⟨time, takes, early⟩ := inTime h registered
    have ran := (hostAnswer_eq_some_iff.mp answered).2
    rw [Lifetime.run_of_live takes early, Option.some.injEq, Timed.mk.injEq] at ran
    rw [← ran.1]
    exact Nat.le_pred_of_lt (alive.mp early)
  have plain : ∀ c ∈ containersOf results, ':' ∉ c.host.toList := by
    intro c inside
    have named := names.mem_iff.mp (host_of_mem_containersOf inside)
    obtain ⟨h, registered, same⟩ := List.mem_map.mp named
    rw [← same]
    exact sound.plain h registered
  obtain ⟨h, registered, rfl⟩ := sound.built.paired.exists_host known
  obtain ⟨g, answer, sampled, shares⟩ :=
    bulkStats_spec sound known prompt (sound.plain h registered) ends livesOn plain
  have answered : hostAnswer life now false (h.name, engine) =
      some ⟨now + 0, (h.name, (ContainerEngine.list engine false).result)⟩ :=
    hostAnswer_eq_some_iff.mpr ⟨rfl, Lifetime.run_of_live prompt.lists lives⟩
  have member := HostPool.mem_toList.mpr ⟨⟨h, registered, rfl⟩, known⟩
  have heard : (h.name, (ContainerEngine.list engine false).result) ∈ results :=
    same.mem_iff.mpr (List.mem_map.mpr ⟨_, mem_of_hostAnswer made member answered, rfl⟩)
  refine ⟨g, answer, by rw [allRunningStats, asked]; exact sampled, ?_⟩
  rw [shares]
  exact congrArg _ (filter_containersOf (names.nodup_iff.mpr sound.built.paired.distinct) heard)

/-- If one host does not list in time, the call has ended when all have answered, and nothing is
sampled. -/
theorem allRunningStats_late (built : f.pool.Built) (ends : life.endsAt ≠ none)
    (late : ∃ h ∈ f.pool.toList, ¬ ListsInTime life now h.2) :
    ∃ moment, f.allRunningStats life now = (f, some ⟨moment, []⟩) := by
  obtain ⟨timed, results, made, asked, -, -⟩ :=
    @askHosts_of_built _ _ f life now false built fun _ _ => .inr ends
  obtain ⟨ending, ended⟩ := Option.ne_none_iff_exists'.mp ends
  obtain ⟨h, registered, late⟩ := late
  have slow : ∀ time, (ContainerEngine.list h.2 false).takes = some time →
      life.isEnded (now + time) = true := by
    intro time takes
    by_contra lives
    exact late ⟨time, takes, by simpa using lives⟩
  have answered : hostAnswer life now false h =
      some ⟨max now ending, (h.1, .error (life.error (max now ending)))⟩ :=
    hostAnswer_eq_some_iff.mpr ⟨rfl, Lifetime.run_of_ended ended slow⟩
  have member := mem_of_hostAnswer made registered answered
  have past : life.isEnded ((timed.map (·.moment)).foldl max now) = true := by
    rw [Lifetime.isEnded_of_endsAt ended]
    have last :=
      (Gathered.foldl_max_le_iff.mp (Nat.le_refl ((timed.map (·.moment)).foldl max now))).2
      (max now ending) (List.mem_map.mpr ⟨_, member, rfl⟩)
    exact Nat.le_trans (Nat.le_max_right now ending) last
  refine ⟨(timed.map (·.moment)).foldl max now, ?_⟩
  rw [allRunningStats, asked]
  exact bulkStats_of_ended past _

/-- The samples of all running containers under a call with an end are there for every host or for
none. If all hosts list in time, a host that answers at once has one sample for each running
container of which there is one, the same whatever the other hosts do. If a host does not, the
answer is empty. -/
theorem allRunningStats_all_or_none (sound : f.Sound) (ends : life.endsAt ≠ none)
    (lives : life.isEnded now = false) :
    ((∀ h ∈ f.pool.toList, ListsInTime life now h.2) →
      ∀ host engine, f.pool.engine host = .ok engine → Prompt engine →
        ∃ g answer, f.allRunningStats life now = (g, some answer) ∧
          answer.value.filter (fun stats => stats.host = host) =
            (running host engine).filterMap (f.share engine)) ∧
      ((∃ h ∈ f.pool.toList, ¬ ListsInTime life now h.2) →
        ∃ moment, f.allRunningStats life now = (f, some ⟨moment, []⟩)) :=
  ⟨fun inTime _ _ known prompt => allRunningStats_inTime sound known prompt ends lives inTime,
    allRunningStats_late sound.built ends⟩

/-- A quick host among others that are quick. -/
def quickAlone : Fleet MemoryEngine :=
  { pool := { hosts := [⟨"quick", "local"⟩], engines := [("quick", quick)] } }

theorem prompt_quick : Prompt quick where
  lists := rfl
  samples :=
    fun times id => ContainerEngine.sampleUsage_iterate MemoryEngine.indifferent times quick id

theorem sound_quickAlone : quickAlone.Sound where
  built := @HostPool.Built.insert _ _ _ ⟨"quick", "local"⟩ quick .empty rfl
  plain := by decide
  valid := rfl
  distinct := List.nodup_nil
  labelled := nofun

theorem inTime_quickAlone :
    ∀ h ∈ quickAlone.pool.toList, ListsInTime { deadline := some 10_000 } 0 h.2 := by
  intro h inside
  cases inside with
  | head => exact ⟨0, rfl, rfl⟩
  | tail _ absent => cases absent

theorem sound_quickAndSlow : quickAndSlow.Sound where
  built := @HostPool.Built.insert _ _ _ ⟨"slow", "local"⟩ slow sound_quickAlone.built rfl
  plain := by decide
  valid := rfl
  distinct := List.nodup_nil
  labelled := nofun

/-- The quick host has its sample when it is asked alone. -/
theorem allRunningStats_all_or_none_quickAlone : quickAlone.Sound ∧
    ∃ g answer, quickAlone.allRunningStats { deadline := some 10_000 } 0 = (g, some answer) ∧
      (answer.value.filter fun stats => stats.host = "quick").length = 1 := by
  obtain ⟨all, -⟩ := @allRunningStats_all_or_none _ _ quickAlone { deadline := some 10_000 } 0
    sound_quickAlone nofun rfl
  obtain ⟨g, answer, asked, shares⟩ := all inTime_quickAlone "quick" quick rfl prompt_quick
  exact ⟨sound_quickAlone, g, answer, asked, by rw [shares]; rfl⟩

/-- With the slow host beside it, the quick host has no sample. -/
theorem slow_host_costs_sample :
    quickAndSlow.pool.engine "quick" = .ok quick ∧
      quickAlone.pool.engine "quick" = .ok quick ∧
      quickAndSlow.cache = quickAlone.cache ∧
      (∃ g answer, quickAlone.allRunningStats { deadline := some 10_000 } 0 = (g, some answer) ∧
        (answer.value.filter fun stats => stats.host = "quick").length = 1) ∧
      ∃ g answer, quickAndSlow.allRunningStats { deadline := some 10_000 } 0 = (g, some answer) ∧
        answer.value = [] := by
  refine ⟨rfl, rfl, rfl, ?_, ?_⟩
  · obtain ⟨g, answer, asked, shares⟩ := @allRunningStats_inTime _ _ quickAlone "quick" quick
      { deadline := some 10_000 } 0 sound_quickAlone rfl prompt_quick nofun rfl inTime_quickAlone
    exact ⟨g, answer, asked, by rw [shares]; rfl⟩
  · have late : ¬ ListsInTime { deadline := some 10_000 } 0 slow := by
      rintro ⟨time, takes, lives⟩
      cases takes
      cases lives
    obtain ⟨moment, asked⟩ := @allRunningStats_late _ _ quickAndSlow { deadline := some 10_000 } 0
      sound_quickAndSlow.built nofun ⟨("slow", slow), List.mem_cons_of_mem _ List.mem_cons_self,
        late⟩
    exact ⟨_, _, asked, rfl⟩

end Fleet

end FleetBoard

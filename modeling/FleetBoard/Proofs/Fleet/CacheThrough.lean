import FleetBoard.Proofs.Fleet.Provenance
import FleetBoard.Proofs.Fleet.Schedules
import FleetBoard.Proofs.Fleet.Share
import FleetBoard.Transducer

/-!
# Samples through the cache, call by call

A fleet is asked for one sample after the other, while time goes on and engines change. All that its
cache comes to in such a run is the last sample that was had of each container: a call is served
that sample while it is fresh, and goes to the engine otherwise (`Remembers`). Calls that give no
sample take part in none of this. Of such a call nothing stays but that an engine may have been
asked once more, and if that makes no difference to engines, it makes none to the rest of the run
(`Counted`).
-/

namespace FleetBoard

open ContainerEngine (countSample sampleUnder)
open Fleet (sampled)

/-- A call for a sample as it can be watched: what it comes to before it waits, which says whether
the engine of the host is asked, and its answer. -/
structure StatsCall where
  container : ContainerRef
  /-- The time of the cache. -/
  clock : Nat
  begun : Fleet.Begun
  answer : Option (Timed (Except FleetError ContainerStats))

namespace StatsCall

/-- The sample that the engine gave, if it was asked and gave one while the call lived. -/
def sample? (call : StatsCall) : Option ContainerStats :=
  match call.begun with
  | .asked (some a) => sampled call.container a.value
  | _ => none

/-- The samples that an engine gave of a container, each with the time at which it did. -/
def samplings (c : ContainerRef) (log : List StatsCall) : List (Timed ContainerStats) :=
  log.filterMap fun call =>
    if call.container = c then call.sample?.map fun stats => ⟨call.clock, stats⟩ else none

/-- The last time an engine gave a sample of a container, and the sample. -/
def lastSampling? (c : ContainerRef) (log : List StatsCall) : Option (Timed ContainerStats) :=
  (samplings c log).getLast?

variable {c : ContainerRef} {log : List StatsCall} {call : StatsCall}

theorem lastSampling?_concat_self {stats : ContainerStats} (about : call.container = c)
    (sample : call.sample? = some stats) :
    lastSampling? c (log ++ [call]) = some ⟨call.clock, stats⟩ := by
  rw [lastSampling?, samplings, List.filterMap_append]
  simp [about, sample]

theorem lastSampling?_concat_other (other : call.container = c → call.sample? = none) :
    lastSampling? c (log ++ [call]) = lastSampling? c log := by
  have nothing : (if call.container = c then
      call.sample?.map fun stats => (⟨call.clock, stats⟩ : Timed ContainerStats)
      else none) = none := by
    split
    · next about => rw [other about, Option.map_none]
    · rfl
  rw [lastSampling?, lastSampling?, samplings, samplings, List.filterMap_append]
  simp [nothing]

end StatsCall

/-- What happens to a fleet that is asked for one sample after the other. -/
inductive StatsStep (ε : Type) where
  /-- It is asked for the sample of a container. -/
  | call (life : Lifetime) (now : Nat) (c : ContainerRef)
  /-- Time goes on. -/
  | tick (time : Nat)
  /-- The engine of a host changes. -/
  | change (host : String) (h : ε → ε)

variable {ε : Type} [ContainerEngine ε]

def Fleet.statsCall (f : Fleet ε) (life : Lifetime) (now : Nat) (c : ContainerRef) : StatsCall :=
  ⟨c, f.clock, (f.beginStats life now c).2, (f.containerStats life now c).2⟩

namespace StatsStep

/-- The call that is made, if one is, and the fleet that is left. -/
def step (f : Fleet ε) : StatsStep ε → List StatsCall × Fleet ε
  | .call life now c => ([f.statsCall life now c], (f.containerStats life now c).1)
  | .tick time => ([], { f with clock := f.clock + time })
  | .change host h => ([], { f with pool := f.pool.modify host h })

/-- The fleet as a machine that logs the calls. -/
def machine : Transducer (Fleet ε) (StatsStep ε) StatsCall where
  step := step
  finish _ := []

/-- The names of hosts that are asked for have no colon. -/
def Plain : StatsStep ε → Prop
  | .call _ _ c => ':' ∉ c.host.toList
  | _ => True

instance (s : StatsStep ε) : Decidable s.Plain :=
  match s with
  | .call _ _ c => inferInstanceAs (Decidable (':' ∉ c.host.toList))
  | .tick _ | .change _ _ => inferInstanceAs (Decidable True)

/-- Changes of engines have nothing to do with how often they have been asked. -/
def Indifferent : StatsStep ε → Prop
  | .change _ h => ∀ engine, h (countSample engine) = countSample (h engine)
  | _ => True

end StatsStep

namespace Fleet

variable {f g : Fleet ε} {life : Lifetime} {now : Nat} {c : ContainerRef} {engine : ε}

/-! ### One call -/

/-- The fleet while a call waits for the engine of the host. -/
def whileAsked (f : Fleet ε) (life : Lifetime) (now : Nat) (c : ContainerRef) (engine : ε) :
    Fleet ε :=
  { f with pool := f.pool.modify c.host fun _ => (sampleUnder life now engine c.id).1 }

/-- All that a call for the sample of a container can be, and the fleet that it leaves. -/
inductive Answers (f : Fleet ε) (life : Lifetime) (now : Nat) (c : ContainerRef) :
    StatsCall → Fleet ε → Prop
  /-- The cache has a fresh sample. -/
  | hit {stats : ContainerStats} (found : f.cache.get f.clock c.key = some stats) :
    Answers f life now c ⟨c, f.clock, .done (.ok stats), some ⟨now, .ok stats⟩⟩ f
  /-- The host is not registered. -/
  | unregistered (missing : f.cache.get f.clock c.key = none)
      (unknown : f.pool.find? c.host = none) :
    Answers f life now c ⟨c, f.clock, .done (.error (.unknownHost c.host)),
      some ⟨now, .error (.unknownHost c.host)⟩⟩ f
  /-- The engine is asked, and there is never an answer. -/
  | hangs {engine : ε} (missing : f.cache.get f.clock c.key = none)
      (known : f.pool.find? c.host = some engine)
    (never : (sampleUnder life now engine c.id).2 = none) :
    Answers f life now c ⟨c, f.clock, .asked none, none⟩ (f.whileAsked life now c engine)
  /-- The engine is asked, and it fails or the call ends. -/
  | fails {engine : ε} {moment : Nat} {e : EngineError} (missing : f.cache.get f.clock c.key = none)
    (known : f.pool.find? c.host = some engine)
    (failed : (sampleUnder life now engine c.id).2 = some ⟨moment, .error e⟩) :
    Answers f life now c ⟨c, f.clock, .asked (some ⟨moment, .error e⟩),
      some ⟨moment, .error (.engine e)⟩⟩
      (f.whileAsked life now c engine)
  /-- The engine is asked, and gives a sample. -/
  | samples {engine : ε} {moment : Nat} {snapshot : UsageSnapshot}
    (missing : f.cache.get f.clock c.key = none) (known : f.pool.find? c.host = some engine)
    (gave : (sampleUnder life now engine c.id).2 = some ⟨moment, .ok snapshot⟩) :
    Answers f life now c ⟨c, f.clock, .asked (some ⟨moment, .ok snapshot⟩),
        some ⟨moment, .ok ⟨c.id, c.host, snapshot.sample⟩⟩⟩
      { f.whileAsked life now c engine with
        cache := f.cache.put f.clock c.key ⟨c.id, c.host, snapshot.sample⟩ }

namespace Answers

variable {call : StatsCall}

/-- A call is only one of these. -/
theorem eq (answers : f.Answers life now c call g) :
    f.statsCall life now c = call ∧ (f.containerStats life now c).1 = g := by
  rw [statsCall, containerStats]
  cases answers with
  | hit found =>
      rw [beginStats_of_hit found]
      exact ⟨rfl, rfl⟩
  | unregistered missing unknown =>
      rw [beginStats_of_unknown missing (HostPool.engine_eq_error unknown)]
      exact ⟨rfl, rfl⟩
  | hangs missing known answer | fails missing known answer | samples missing known answer =>
      rw [beginStats_of_known missing (HostPool.engine_eq_ok.mpr known), answer]
      exact ⟨rfl, rfl⟩

/-- A call that is served right away is served from the cache. -/
theorem served_iff (answers : f.Answers life now c call g) (stats : ContainerStats) :
    call.begun = .done (.ok stats) ↔ f.cache.get f.clock c.key = some stats := by
  cases answers with
  | hit found => simp [found]
  | unregistered missing | hangs missing | fails missing | samples missing => simp [missing]

/-- A call leaves the time as it is, and puts into the cache the sample that the engine gave, if it
gave one. -/
theorem leaves (answers : f.Answers life now c call g) :
    call.container = c ∧ call.clock = f.clock ∧ g.clock = f.clock ∧
      ((call.sample? = none ∧ g.cache = f.cache) ∨
        ∃ stats, call.sample? = some stats ∧ g.cache = f.cache.put f.clock c.key stats) := by
  cases answers with
  | samples => exact ⟨rfl, rfl, rfl, .inr ⟨_, rfl, rfl⟩⟩
  | _ => exact ⟨rfl, rfl, rfl, .inl ⟨rfl, rfl⟩⟩

end Answers

/-- A call is one of these. -/
theorem containerStats_answers (f : Fleet ε) (life : Lifetime) (now : Nat) (c : ContainerRef) :
    f.Answers life now c (f.statsCall life now c) (f.containerStats life now c).1 := by
  obtain ⟨call, g, answers⟩ : ∃ call g, f.Answers life now c call g := by
    cases found : f.cache.get f.clock c.key with
    | some stats => exact ⟨_, _, .hit found⟩
    | none =>
        cases known : f.pool.find? c.host with
        | none => exact ⟨_, _, .unregistered found known⟩
        | some engine =>
            cases answer : (sampleUnder life now engine c.id).2 with
            | none => exact ⟨_, _, .hangs found known answer⟩
            | some t =>
                obtain ⟨moment, value⟩ := t
                cases value with
                | error e => exact ⟨_, _, .fails found known answer⟩
                | ok snapshot => exact ⟨_, _, .samples found known answer⟩
  obtain ⟨same, left⟩ := answers.eq
  rw [same, left]
  exact answers

/-- A call that is not served from the cache asks the engine of the host, and answers as it does. -/
theorem statsCall_of_known (missing : f.cache.get f.clock c.key = none)
    (known : f.pool.find? c.host = some engine) :
    let asked := sampleUnder life now engine c.id
    f.statsCall life now c = ⟨c, f.clock, .asked asked.2, asked.2.map fun t =>
        ⟨t.moment,
          (t.value.map fun snapshot => ⟨c.id, c.host, snapshot.sample⟩).mapError .engine⟩⟩ ∧
      (f.containerStats life now c).1.pool = f.pool.modify c.host fun _ => asked.1 := by
  intro asked
  cases answer : asked.2 with
  | none =>
      obtain ⟨same, left⟩ := (Answers.hangs missing known answer).eq
      exact ⟨same, congrArg pool left⟩
  | some t =>
      obtain ⟨moment, value⟩ := t
      cases value with
      | error e =>
          obtain ⟨same, left⟩ := (Answers.fails missing known answer).eq
          exact ⟨same, congrArg pool left⟩
      | ok snapshot =>
          obtain ⟨same, left⟩ := (Answers.samples missing known answer).eq
          exact ⟨same, congrArg pool left⟩

end Fleet

/-! ### What the cache comes to -/

/-- A fleet after the calls of a log, and the map with expiry that its cache is taken for: what the
map holds is the last sample that was had of each container. -/
structure Remembers (ttl : Nat) (log : List StatsCall) (g : Fleet ε) (m : ExpiringMap) : Prop where
  mirrors : Mirrors ⟨g.clock, g.cache⟩ m
  ttl : m.ttl = ttl
  held : ∀ c : ContainerRef, ':' ∉ c.host.toList →
    m.held c.key = (StatsCall.lastSampling? c log).map fun t => ⟨t.value, t.moment⟩

namespace Remembers

variable {ttl : Nat} {log : List StatsCall} {g : Fleet ε} {m : ExpiringMap} {life : Lifetime}
    {now : Nat}
  {c : ContainerRef}

omit [ContainerEngine ε] in
theorem start {f : Fleet ε} (valid : f.cache.config.validate = .ok ())
    (empty : f.cache.entries = []) :
    Remembers f.cache.config.ttl [] f ⟨f.cache.config.ttl, f.clock, fun _ => none⟩ where
  mirrors := by
    have cache : f.cache = { config := f.cache.config } := by
      rw [← empty]
    have sound := (CacheConfig.validate_eq_ok.mp valid).2
    rw [cache]
    exact Mirrors.start sound f.clock
  ttl := rfl
  held := fun _ _ => rfl

/-- A call adds the sample that the engine gave, if it gave one, in the place of the last of the
container. -/
theorem call {g' : Fleet ε} {call : StatsCall} (remembers : Remembers ttl log g m)
    (plain : ':' ∉ c.host.toList) (answers : g.Answers life now c call g') :
    ∃ m', Remembers ttl (log ++ [call]) g' m' := by
  obtain ⟨about, time, clock, ⟨sample, cache⟩ | ⟨stats, sample, cache⟩⟩ := answers.leaves
  · refine ⟨m, ?_, remembers.ttl, ?_⟩
    · rw [clock, cache]
      exact remembers.mirrors
    · intro d plain'
      rw [StatsCall.lastSampling?_concat_other fun _ => sample]
      exact remembers.held d plain'
  · refine ⟨m.put c.key stats, ?_, remembers.ttl, ?_⟩
    · rw [clock, cache]
      exact remembers.mirrors.put c.key stats
    · intro d plain'
      by_cases same : d = c
      · subst same
        rw [StatsCall.lastSampling?_concat_self about sample, ExpiringMap.put_held_self, time,
          ← remembers.mirrors.sameTime]
        rfl
      · have other : d.key ≠ c.key :=
          fun keys => same (ContainerRef.key_injective plain' plain keys)
        rw [StatsCall.lastSampling?_concat_other fun theirs =>
          absurd (theirs.symm.trans about) same, ExpiringMap.put_held_ne m stats other]
        exact remembers.held d plain'

/-- What happens to the fleet, happens to what it remembers. -/
theorem step (remembers : Remembers ttl log g m) {s : StatsStep ε} (plain : s.Plain) :
    ∃ m', Remembers ttl (log ++ (s.step g).1) (s.step g).2 m' := by
  cases s with
  | call life now c => exact remembers.call plain (g.containerStats_answers life now c)
  | tick time =>
      refine ⟨{ m with now := m.now + time }, remembers.mirrors.advance time, remembers.ttl, ?_⟩
      rw [StatsStep.step, List.append_nil]
      exact remembers.held
  | change host h =>
      refine ⟨m, remembers.mirrors, remembers.ttl, ?_⟩
      rw [StatsStep.step, List.append_nil]
      exact remembers.held

/-- At any point of a run the cache comes to the last sample of each container. -/
theorem run {f : Fleet ε} (valid : f.cache.config.validate = .ok ()) (empty : f.cache.entries = [])
    {steps : List (StatsStep ε)} (plain : ∀ s ∈ steps, s.Plain) :
    ∃ m, Remembers f.cache.config.ttl (StatsStep.machine.feed f steps).1
      (StatsStep.machine.feed f steps).2 m := by
  induction steps using List.reverseRecOn with
  | nil => exact ⟨_, start valid empty⟩
  | append_singleton steps s ih =>
      obtain ⟨m, remembers⟩ := ih fun s' inside => plain s' (List.mem_append_left [s] inside)
      rw [Transducer.feed_append, Transducer.feed_cons, Transducer.feed_nil, List.append_nil]
      exact remembers.step (plain s (List.mem_append_right steps List.mem_cons_self))

omit [ContainerEngine ε] in
/-- The cache has a sample for exactly as long as the last one of the container is fresh. -/
theorem get_eq_some_iff (remembers : Remembers ttl log g m) (plain : ':' ∉ c.host.toList)
    (stats : ContainerStats) : g.cache.get g.clock c.key = some stats ↔
      ∃ moment, StatsCall.lastSampling? c log = some ⟨moment, stats⟩ ∧ g.clock - moment < ttl := by
  rw [remembers.mirrors.get_eq, ExpiringMap.get_eq_some_iff, remembers.held c plain, remembers.ttl,
    ← remembers.mirrors.sameTime]
  constructor
  · rintro ⟨moment, held, fresh⟩
    obtain ⟨t, last, same⟩ := Option.map_eq_some_iff.mp held
    cases same
    exact ⟨t.moment, last, fresh⟩
  · rintro ⟨moment, last, fresh⟩
    exact ⟨moment, by rw [last]; rfl, fresh⟩

end Remembers

/-! ### What stays of a call that gives no sample -/

namespace ContainerEngine

/-- An engine that has been asked more often answers the same, and stays one that has been asked
more often. -/
theorem sampleUnder_iterate (indifferent : Indifferent ε) (life : Lifetime) (now times : Nat)
    (engine : ε) (id : String) : sampleUnder life now (countSample^[times] engine) id =
      (countSample^[times] (sampleUnder life now engine id).1,
        (sampleUnder life now engine id).2) := by
  rw [sampleUnder, sampleUnder, sampleUsage_iterate indifferent]
  split
  · rfl
  · rw [← Function.iterate_succ_apply' countSample, Function.iterate_succ_apply]

end ContainerEngine

/-- Two fleets that differ in how often engines have been asked, the second more often, and in
nothing else. -/
structure Counted (f g : Fleet ε) : Prop where
  clock : g.clock = f.clock
  cache : g.cache = f.cache
  engines : ∀ host, ∃ times, g.pool.find? host = (f.pool.find? host).map countSample^[times]

namespace Counted

variable {f g : Fleet ε} {life : Lifetime} {now : Nat} {c : ContainerRef}

/-- To ask an engine leaves nothing but a count. -/
theorem whileAsked {engine : ε} (known : f.pool.find? c.host = some engine) :
    Counted f (f.whileAsked life now c engine) where
  clock := rfl
  cache := rfl
  engines := by
    intro host
    rw [Fleet.whileAsked, HostPool.find?_modify]
    by_cases same : host = c.host
    · rw [if_pos same, same, known, sampleUnder]
      by_cases ended : life.isEnded now
      · exact ⟨0, by simp [ended]⟩
      · exact ⟨1, by simp [ended]⟩
    · exact ⟨0, by rw [if_neg same]; rfl⟩

/-- Of a call that gives no sample nothing stays but that an engine may have been asked. -/
theorem of_failed {call : StatsCall} (answers : f.Answers life now c call g)
    (failed : ∀ moment stats, call.answer ≠ some ⟨moment, .ok stats⟩) : Counted f g := by
  cases answers with
  | hit | samples => exact absurd rfl (failed _ _)
  | unregistered => exact ⟨rfl, rfl, fun _ => ⟨0, by rw [Function.iterate_zero, Option.map_id, id]⟩⟩
  | hangs _ known | fails _ known => exact whileAsked known

/-- Engines that change in the same way go on to differ in how often they have been asked. -/
theorem modify (counted : Counted f g) {host : String} {h h' : ε → ε}
    (same : ∀ times engine, f.pool.find? host = some engine →
      g.pool.find? host = some (countSample^[times] engine) →
        h' (countSample^[times] engine) = countSample^[times] (h engine)) :
    Counted { f with pool := f.pool.modify host h } { g with pool := g.pool.modify host h' } where
  clock := counted.clock
  cache := counted.cache
  engines := by
    intro other
    obtain ⟨times, more⟩ := counted.engines other
    refine ⟨times, ?_⟩
    rw [HostPool.find?_modify, HostPool.find?_modify, more]
    by_cases changed : other = host
    · subst changed
      rw [if_pos rfl, if_pos rfl]
      cases known : f.pool.find? other with
      | none => rfl
      | some engine =>
          rw [known] at more
          exact congrArg some (same times engine known more)
    · rw [if_neg changed, if_neg changed, Option.map_id, id, id]

/-- The engine of a host is asked, and its answer is the same for both fleets. -/
theorem ask {engine : ε} (counted : Counted f g) (indifferent : ContainerEngine.Indifferent ε)
    (known : f.pool.find? c.host = some engine) :
    ∃ engine', g.pool.find? c.host = some engine' ∧
      (sampleUnder life now engine' c.id).2 = (sampleUnder life now engine c.id).2 ∧
      Counted (f.whileAsked life now c engine) (g.whileAsked life now c engine') := by
  obtain ⟨times, more⟩ := counted.engines c.host
  rw [known] at more
  refine ⟨countSample^[times] engine, more, ?_, counted.modify ?_⟩
  · rw [ContainerEngine.sampleUnder_iterate indifferent]
  · intro times' engine' known' more'
    obtain rfl := Option.some.inj (known.symm.trans known')
    rw [Option.some.inj (more.symm.trans more'), ContainerEngine.sampleUnder_iterate indifferent]

/-- A call is the same for both fleets. -/
theorem call {f' : Fleet ε} {call : StatsCall} (counted : Counted f g)
    (indifferent : ContainerEngine.Indifferent ε) (answers : f.Answers life now c call f') :
    ∃ g', g.Answers life now c call g' ∧ Counted f' g' := by
  -- The two differ in their pools only.
  obtain ⟨pool, cache, clock⟩ := f
  obtain ⟨pool', cache', clock'⟩ := g
  obtain rfl : clock' = clock := counted.clock
  obtain rfl : cache' = cache := counted.cache
  cases answers with
  | hit found => exact ⟨_, .hit found, counted⟩
  | unregistered missing unknown =>
      obtain ⟨times, more⟩ := counted.engines c.host
      rw [unknown] at more
      exact ⟨_, .unregistered missing more, counted⟩
  | hangs missing known never =>
      obtain ⟨engine', known', same, asked⟩ := counted.ask indifferent known
      exact ⟨_, .hangs missing known' (same.trans never), asked⟩
  | fails missing known failed =>
      obtain ⟨engine', known', same, asked⟩ := counted.ask indifferent known
      exact ⟨_, .fails missing known' (same.trans failed), asked⟩
  | samples missing known gave =>
      obtain ⟨engine', known', same, asked⟩ := counted.ask indifferent known
      exact ⟨_, .samples missing known' (same.trans gave), rfl, rfl, asked.engines⟩

/-- What happens to the fleets is the same for both. -/
theorem step (counted : Counted f g) (indifferent : ContainerEngine.Indifferent ε) {s : StatsStep ε}
    (aside : s.Indifferent) : (s.step f).1 = (s.step g).1 ∧ Counted (s.step f).2 (s.step g).2 := by
  cases s with
  | call life now c =>
      obtain ⟨g', answers, after⟩ := counted.call indifferent (f.containerStats_answers life now c)
      obtain ⟨same, rfl⟩ := answers.eq
      exact ⟨congrArg ([·]) same.symm, after⟩
  | tick time => exact ⟨rfl, congrArg (· + time) counted.clock, counted.cache, counted.engines⟩
  | change host h =>
      refine ⟨rfl, counted.modify ?_⟩
      intro times engine _ _
      exact (Function.Commute.iterate_right (g := countSample) aside times) engine

/-- A whole run is the same for both fleets. -/
theorem run (counted : Counted f g) (indifferent : ContainerEngine.Indifferent ε)
    {steps : List (StatsStep ε)} (aside : ∀ s ∈ steps, s.Indifferent) :
    (StatsStep.machine.feed f steps).1 = (StatsStep.machine.feed g steps).1 := by
  induction steps generalizing f g with
  | nil => rfl
  | cons s steps ih =>
      obtain ⟨same, after⟩ := counted.step indifferent (aside s List.mem_cons_self)
      have later := ih after fun s' inside => aside s' (List.mem_cons_of_mem s inside)
      rw [Transducer.feed_cons, Transducer.feed_cons]
      exact congrArg₂ (· ++ ·) same later

end Counted

namespace Fleet

/-- The last sample that an engine gave of a container was given less than the time to live ago. -/
def Recent (ttl : Nat) (log : List StatsCall) (g : Fleet ε) (c : ContainerRef)
    (stats : ContainerStats) : Prop :=
  ∃ moment, StatsCall.lastSampling? c log = some ⟨moment, stats⟩ ∧ g.clock - moment < ttl

/-- What comes of a call for the sample of a container, by the log of the calls before it. -/
structure Through (ttl : Nat) (log : List StatsCall) (g : Fleet ε) (life : Lifetime) (now : Nat)
    (c : ContainerRef) : Prop where
  /-- A sample is there at once just if it is recent. -/
  served : ∀ stats, (g.statsCall life now c).begun = .done (.ok stats) ↔ Recent ttl log g c stats
  /-- A recent sample is the answer, and no engine is asked. -/
  recent : ∀ stats, Recent ttl log g c stats →
    g.statsCall life now c = ⟨c, g.clock, .done (.ok stats), some ⟨now, .ok stats⟩⟩ ∧
      (g.containerStats life now c).1 = g
  /-- Else a host that is not registered is the failure, and no engine is asked. -/
  unknown : (∀ stats, ¬ Recent ttl log g c stats) → g.pool.find? c.host = none →
    g.statsCall life now c = ⟨c, g.clock, .done (.error (.unknownHost c.host)),
        some ⟨now, .error (.unknownHost c.host)⟩⟩ ∧
      (g.containerStats life now c).1 = g
  /-- Else the engine of the host is asked once, no other is, and it decides. -/
  asks : ∀ engine, (∀ stats, ¬ Recent ttl log g c stats) → g.pool.find? c.host = some engine →
    let asked := sampleUnder life now engine c.id
    g.statsCall life now c = ⟨c, g.clock, .asked asked.2, asked.2.map fun t =>
        ⟨t.moment, (t.value.map fun snapshot =>
          ⟨c.id, c.host, snapshot.sample⟩).mapError .engine⟩⟩ ∧
      (g.containerStats life now c).1.pool = g.pool.modify c.host fun _ => asked.1
  /-- A call that gives no sample makes no difference to the log of what may follow, as long as
  counting makes none to the engines. -/
  aside : (∀ moment stats, (g.statsCall life now c).answer ≠ some ⟨moment, .ok stats⟩) →
    ContainerEngine.Indifferent ε → ∀ later : List (StatsStep ε), (∀ s ∈ later, s.Indifferent) →
      (StatsStep.machine.feed (g.containerStats life now c).1 later).1 =
        (StatsStep.machine.feed g later).1

/-- At any point of a run that began with an empty cache, whatever the engines did meanwhile, a call
for the sample of a container is served the last sample that an engine gave of the container, if
that was less than `ttl` ago; else it fails if the host is not registered; else the engine of the
host is asked. -/
theorem containerStats_through_cache {f : Fleet ε} (valid : f.cache.config.validate = .ok ())
    (empty : f.cache.entries = []) {steps : List (StatsStep ε)} (plain : ∀ s ∈ steps, s.Plain)
    (life : Lifetime) (now : Nat) {c : ContainerRef} (plainHost : ':' ∉ c.host.toList) :
    Through f.cache.config.ttl (StatsStep.machine.feed f steps).1
      (StatsStep.machine.feed f steps).2 life now c := by
  obtain ⟨m, remembers⟩ := Remembers.run valid empty plain
  generalize (StatsStep.machine.feed f steps).1 = log at remembers ⊢
  generalize (StatsStep.machine.feed f steps).2 = g at remembers ⊢
  have cached : ∀ stats, g.cache.get g.clock c.key = some stats ↔
      Recent f.cache.config.ttl log g c stats := remembers.get_eq_some_iff plainHost
  have missing (stale : ∀ stats, ¬ Recent f.cache.config.ttl log g c stats) :
      g.cache.get g.clock c.key = none := by
    rw [Option.eq_none_iff_forall_ne_some]
    intro stats found
    exact stale stats ((cached stats).mp found)
  have answers := g.containerStats_answers life now c
  exact {
    served := fun stats => (answers.served_iff stats).trans (cached stats)
    recent := fun stats fresh => (Answers.hit ((cached stats).mpr fresh)).eq
    unknown := fun stale unregistered => (Answers.unregistered (missing stale) unregistered).eq
    asks := fun engine stale known => statsCall_of_known (missing stale) known
    aside := fun failed indifferent later aside =>
      ((Counted.of_failed answers failed).run indifferent aside).symm }

/-- A container is sampled, and a nanosecond goes by. -/
def sampledEarlier : List (StatsStep MemoryEngine) := [.call {} 0 ⟨"a", "b:c"⟩, .tick 1]

/-- The container is served what was sampled. A call for a container that the engine does not know
fails and leaves the rest as it would be. -/
theorem containerStats_through_cache_sampledEarlier :
    let f := Traffic.oneContainer
    let g := (StatsStep.machine.feed f sampledEarlier).2
    let stranger := g.containerStats {} 0 ⟨"a", "c"⟩
    (∃ stats, g.statsCall {} 0 ⟨"a", "b:c"⟩ =
      ⟨⟨"a", "b:c"⟩, 1, .done (.ok stats), some ⟨0, .ok stats⟩⟩) ∧
      stranger.2 = some ⟨0, .error (.engine (.notFound "c"))⟩ ∧
      ∀ later : List (StatsStep MemoryEngine), (∀ s ∈ later, s.Indifferent) →
        (StatsStep.machine.feed stranger.1 later).1 = (StatsStep.machine.feed g later).1 := by
  intro f g stranger
  have plain : ∀ s ∈ sampledEarlier, s.Plain := by decide
  have failed : stranger.2 = some ⟨0, .error (.engine (.notFound "c"))⟩ := rfl
  have colonFree : ':' ∉ "a".toList := by decide
  have known :=
    containerStats_through_cache (f := f) rfl rfl plain {} 0 (c := ⟨"a", "b:c"⟩) colonFree
  have other := containerStats_through_cache (f := f) rfl rfl plain {} 0 (c := ⟨"a", "c"⟩) colonFree
  refine ⟨⟨_, (known.recent _ ⟨0, rfl, by decide⟩).1⟩, failed, ?_⟩
  refine other.aside ?_ MemoryEngine.indifferent
  intro moment stats answered
  cases failed.symm.trans answered

end Fleet

end FleetBoard

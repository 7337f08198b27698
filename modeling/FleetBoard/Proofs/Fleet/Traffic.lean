import FleetBoard.Fleet.Basic
import FleetBoard.Proofs.Fleet.Pool
import FleetBoard.Proofs.Usage.CacheRuns
import Mathlib.Logic.Relation

/-!
# Calls for samples that run at the same time

Many calls ask one fleet for samples while time goes on. Every container that is asked about is a
task of its own, whether it is asked about alone or in a fan-out, and a task goes on in four steps:
it looks into the cache, it asks the engine, it hears from the engine, and it puts the sample into
the cache. Each step is done at once, but between two steps of one task any other task may go on.

The rules of a task are `StatsTask.Goes`, one for each way in which a step can go. What happens is
noted in a history, newest first, each event with the time of the clock of the cache.
-/

namespace FleetBoard

namespace StatsTask

/-- How far a task has come. -/
inductive Stage where
  | ready
  /-- Nothing fresh is in the cache. -/
  | missed
  /-- The engine has been asked; its answer comes at a moment, or never. -/
  | asked (answer : Option (Timed (Except EngineError UsageSnapshot)))
  /-- The engine has answered. -/
  | returned (answer : Except EngineError UsageSnapshot)
  /-- The sample came from the cache, at a time of its clock. -/
  | served (answer : Timed ContainerStats)
  /-- The task has ended without help from the cache, at a time of its clock. -/
  | ended (answer : Timed (Except FleetError ContainerStats))
  /-- The call had ended before the task began. -/
  | skipped

end StatsTask

/-- A task that asks for the sample of a container. -/
structure StatsTask where
  container : ContainerRef
  /-- The lifetime of the call that it belongs to. -/
  life : Lifetime
  /-- Is it a task of a fan-out? -/
  fanned : Bool
  stage : StatsTask.Stage := .ready

/-- What happens to a task. -/
inductive StatsEvent (ε : Type) where
  | skipped (c : ContainerRef)
  /-- A sample from the cache is the answer. -/
  | served (c : ContainerRef) (stats : ContainerStats)
  | missed (c : ContainerRef)
  /-- The engine of the host is asked, as it is at that time. -/
  | asked (c : ContainerRef) (engine : ε)
  | returned (c : ContainerRef) (answer : Except EngineError UsageSnapshot)
  | failed (c : ContainerRef) (error : FleetError)
  /-- A sample goes into the cache and is the answer. -/
  | stored (c : ContainerRef) (stats : ContainerStats)

namespace StatsEvent

variable {ε : Type}

def sample? : StatsEvent ε → Option ContainerStats
  | served _ stats => some stats
  | stored _ stats => some stats
  | _ => none

def samples (history : List (Timed (StatsEvent ε))) : List ContainerStats :=
  history.filterMap fun e => e.value.sample?

@[simp] theorem samples_nil : samples ([] : List (Timed (StatsEvent ε))) = [] := rfl

@[simp] theorem samples_cons (e : Timed (StatsEvent ε)) (history : List (Timed (StatsEvent ε))) :
    samples (e :: history) = e.value.sample?.toList ++ samples history := by
  rw [samples, List.filterMap_cons]
  cases e.value.sample? <;> rfl

end StatsEvent

namespace StatsTask

variable {ε : Type} [ContainerEngine ε]

/-- One step of a task. -/
inductive Goes (f : Fleet ε) (now : Nat) : StatsTask → StatsEvent ε → Fleet ε → StatsTask → Prop
  /-- A task of a fan-out does nothing if its call has ended. -/
  | skip {c : ContainerRef} {life : Lifetime} (gone : life.isEnded now = true) :
    Goes f now ⟨c, life, true, .ready⟩ (.skipped c) f ⟨c, life, true, .skipped⟩
  /-- A fresh sample is in the cache. -/
  | hit {c : ContainerRef} {life : Lifetime} {fanned : Bool} {stats : ContainerStats}
      (begins : (fanned && life.isEnded now) = false)
      (found : f.cache.get f.clock c.key = some stats) :
    Goes f now ⟨c, life, fanned, .ready⟩ (.served c stats) f
      ⟨c, life, fanned, .served ⟨f.clock, stats⟩⟩
  /-- No fresh sample is in the cache. -/
  | miss {c : ContainerRef} {life : Lifetime} {fanned : Bool}
      (begins : (fanned && life.isEnded now) = false) (missing : f.cache.get f.clock c.key = none) :
    Goes f now ⟨c, life, fanned, .ready⟩ (.missed c) f ⟨c, life, fanned, .missed⟩
  /-- The host is unknown. -/
  | refuse {c : ContainerRef} {life : Lifetime} {fanned : Bool} {error : FleetError}
      (unknown : f.pool.engine c.host = .error error) :
    Goes f now ⟨c, life, fanned, .missed⟩ (.failed c error) f
      ⟨c, life, fanned, .ended ⟨f.clock, .error error⟩⟩
  /-- The engine of the host is asked. -/
  | ask {c : ContainerRef} {life : Lifetime} {fanned : Bool} {engine : ε}
      (known : f.pool.engine c.host = .ok engine) :
    Goes f now ⟨c, life, fanned, .missed⟩ (.asked c engine)
      { f with
        pool := f.pool.modify c.host fun _ => (ContainerEngine.sampleUnder life now engine c.id).1 }
      ⟨c, life, fanned, .asked (ContainerEngine.sampleUnder life now engine c.id).2⟩
  /-- The answer of the engine is there. -/
  | hear {c : ContainerRef} {life : Lifetime} {fanned : Bool}
      {answer : Timed (Except EngineError UsageSnapshot)} (past : answer.moment ≤ now) :
    Goes f now ⟨c, life, fanned, .asked (some answer)⟩ (.returned c answer.value) f
      ⟨c, life, fanned, .returned answer.value⟩
  /-- The engine has failed. -/
  | fail {c : ContainerRef} {life : Lifetime} {fanned : Bool} {error : EngineError} :
    Goes f now ⟨c, life, fanned, .returned (.error error)⟩ (.failed c (.engine error)) f
      ⟨c, life, fanned, .ended ⟨f.clock, .error (.engine error)⟩⟩
  /-- The sample goes into the cache. -/
  | store {c : ContainerRef} {life : Lifetime} {fanned : Bool} {snapshot : UsageSnapshot} :
    Goes f now ⟨c, life, fanned, .returned (.ok snapshot)⟩
      (.stored c ⟨c.id, c.host, snapshot.sample⟩)
      { f with cache := f.cache.put f.clock c.key ⟨c.id, c.host, snapshot.sample⟩ }
      ⟨c, life, fanned, .ended ⟨f.clock, .ok ⟨c.id, c.host, snapshot.sample⟩⟩⟩

def answer? (t : StatsTask) : Option (Except FleetError ContainerStats) :=
  match t.stage with
  | .served answer => some (.ok answer.value)
  | .ended answer => some answer.value
  | _ => none

def Settled (t : StatsTask) : Prop := t.answer? ≠ none ∨ t.stage = .skipped

theorem settled_iff (t : StatsTask) : t.Settled ↔
    (∃ answer, t.stage = .served answer) ∨ (∃ answer, t.stage = .ended answer) ∨
    t.stage = .skipped := by
  obtain ⟨_, _, _, stage⟩ := t
  cases stage <;> simp [Settled, answer?]

/-- What holds of all tasks still does when one of them has gone on, if it holds of that one. -/
theorem forall_moved {P : StatsTask → Prop} {before after : List StatsTask} {t t' : StatsTask}
    (all : ∀ u ∈ before ++ t :: after, P u) (moved : P t') : ∀ u ∈ before ++ t' :: after, P u := by
  intro u inside
  rcases List.mem_append.mp inside with earlier | inside
  · exact all u (List.mem_append_left _ earlier)
  · rcases List.mem_cons.mp inside with rfl | later
    · exact moved
    · exact all u (List.mem_append_right before (List.mem_cons_of_mem t later))

variable {f g : Fleet ε} {now : Nat} {t t' : StatsTask} {e : StatsEvent ε}

theorem Goes.hosts (goes : t.Goes f now e g t') : g.hosts = f.hosts := by
  cases goes <;> rfl

theorem Goes.built (goes : t.Goes f now e g t') (built : f.pool.Built) : g.pool.Built := by
  cases goes with
  | ask _ =>
      dsimp only
      exact built.modify
  | _ => exact built

theorem Goes.config (goes : t.Goes f now e g t') : g.cache.config = f.cache.config := by
  cases goes with
  | store => exact StatsCache.put_config ..
  | _ => rfl

end StatsTask

/-- The tasks of a fan-out that has not begun. -/
def StatsTask.fanOut (life : Lifetime) (containers : List ContainerRef) : List StatsTask :=
  containers.map fun c => ⟨c, life, true, .ready⟩

/-- A fleet with the tasks of all calls so far. -/
structure Traffic (ε : Type) where
  fleet : Fleet ε
  /-- The time that calls go by. -/
  now : Nat
  tasks : List StatsTask := []
  history : List (Timed (StatsEvent ε)) := []

namespace Traffic

variable {ε : Type} [ContainerEngine ε]

/-- A step within the calls that there are: some task goes on, or they all wait. -/
inductive Works : Traffic ε → Traffic ε → Prop
  | task {f g : Fleet ε} {now : Nat} {before after : List StatsTask} {t t' : StatsTask}
      {e : StatsEvent ε} {history : List (Timed (StatsEvent ε))} (goes : t.Goes f now e g t') :
    Works ⟨f, now, before ++ t :: after, history⟩
      ⟨g, now, before ++ t' :: after, ⟨f.clock, e⟩ :: history⟩
  | wait {f : Fleet ε} {now : Nat} {tasks : List StatsTask} {history : List (Timed (StatsEvent ε))}
      (time : Nat) : Works ⟨f, now, tasks, history⟩ ⟨f, now + time, tasks, history⟩

/-- Any step: a call comes in, the clock of the cache goes on, or an engine changes in whatever
way. -/
inductive Step : Traffic ε → Traffic ε → Prop
  | work {s s' : Traffic ε} (works : s.Works s') : Step s s'
  | call {f : Fleet ε} {now : Nat} {tasks : List StatsTask} {history : List (Timed (StatsEvent ε))}
      (life : Lifetime) (c : ContainerRef) :
    Step ⟨f, now, tasks, history⟩ ⟨f, now, tasks ++ [⟨c, life, false, .ready⟩], history⟩
  | bulk {f : Fleet ε} {now : Nat} {tasks : List StatsTask} {history : List (Timed (StatsEvent ε))}
      (life : Lifetime) (containers : List ContainerRef) :
    Step ⟨f, now, tasks, history⟩ ⟨f, now, tasks ++ StatsTask.fanOut life containers, history⟩
  | tick {f : Fleet ε} {now : Nat} {tasks : List StatsTask} {history : List (Timed (StatsEvent ε))}
      (time : Nat) :
    Step ⟨f, now, tasks, history⟩ ⟨{ f with clock := f.clock + time }, now, tasks, history⟩
  | change {f : Fleet ε} {now : Nat} {tasks : List StatsTask}
      {history : List (Timed (StatsEvent ε))} (name : String) (h : ε → ε) :
    Step ⟨f, now, tasks, history⟩ ⟨{ f with pool := f.pool.modify name h }, now, tasks, history⟩

/-- Steps within the calls that there are. -/
abbrev Working : Traffic ε → Traffic ε → Prop := Relation.ReflTransGen Works

/-- Any steps. -/
abbrev Run : Traffic ε → Traffic ε → Prop := Relation.ReflTransGen Step

def Complete (s : Traffic ε) : Prop := ∀ t ∈ s.tasks, t.Settled

theorem Working.run {s s' : Traffic ε} (working : s.Working s') : s.Run s' :=
  Relation.ReflTransGen.mono (fun _ _ works => Step.work works) _ _ working

end Traffic

end FleetBoard

import FleetBoard.Engine.Memory
import FleetBoard.Proofs.Call.Endings
import FleetBoard.Transducer
import Mathlib.Tactic.FinCases

/-!
# What comes of the calls to an engine in memory

Four things decide what comes of a call, and they do so in a fixed order: whether the context has
ended before, whether it ends while the engine waits, whether the engine is made to fail, whether
the container is there. All calls have this in common, whatever they ask for: their work takes the
latency of the engine (`takes_work`), and its result is looked at in the same order
(`result_work_of_failure` and so on). So the outcome is that of any work under a lifetime.

Nothing that a call reads is changed by another call. Calls of a run may therefore overlap, and each
has the outcome that it has alone; all that a run changes is the count of requests for usage.
-/

namespace FleetBoard

inductive EngineCall where
  | list (all : Bool)
  | inspect (id : String)
  | readLogs (id : String) (options : LogOptions)
  | sampleUsage (id : String)
  | ping

namespace EngineCall

def Answer : EngineCall → Type
  | .list _ => List Container
  | .inspect _ => Details
  | .readLogs _ _ => LogFeed
  | .sampleUsage _ => UsageSnapshot
  | .ping => Unit

def id? : EngineCall → Option String
  | .list _ | .ping => none
  | .inspect id | .readLogs id _ | .sampleUsage id => some id

def isSample : EngineCall → Bool
  | .sampleUsage _ => true
  | _ => false

section Engine

variable {ε : Type} [ContainerEngine ε]

/-- The work that a question is to an engine. -/
def work (engine : ε) : (call : EngineCall) → Work call.Answer
  | .list all => ContainerEngine.list engine all
  | .inspect id => ContainerEngine.inspect engine id
  | .readLogs id options => ContainerEngine.readLogs engine id options
  | .sampleUsage id => ContainerEngine.sampleUsage engine id
  | .ping => ContainerEngine.ping engine

/-- Asks an engine under a lifetime. Only requests for usage leave a mark on the engine. -/
def ask (life : Lifetime) (now : Nat) (engine : ε) :
    (call : EngineCall) → ε × Option (Timed (Except EngineError call.Answer))
  | .list all => (engine, life.run now (ContainerEngine.list engine all))
  | .inspect id => (engine, life.run now (ContainerEngine.inspect engine id))
  | .readLogs id options => (engine, life.run now (ContainerEngine.readLogs engine id options))
  | .sampleUsage id => ContainerEngine.sampleUnder life now engine id
  | .ping => (engine, life.run now (ContainerEngine.ping engine))

theorem ask_snd (life : Lifetime) (now : Nat) (engine : ε) (call : EngineCall) :
    (call.ask life now engine).2 = life.run now (call.work engine) := by
  cases call <;> rfl

theorem ask_fst (life : Lifetime) (now : Nat) (engine : ε) (call : EngineCall) :
    (call.ask life now engine).1 =
      if call.isSample && !life.isEnded now then ContainerEngine.countSample engine
      else engine := by
  cases call with
  | sampleUsage id =>
      change (if life.isEnded now then engine else ContainerEngine.countSample engine) =
        if true && !life.isEnded now then ContainerEngine.countSample engine else engine
      cases life.isEnded now <;> rfl
  | list _ | inspect _ | readLogs _ _ | ping => rfl

/-- A call that has ended does not reach the engine. -/
theorem ask_of_ended {life : Lifetime} {now : Nat} (ended : life.isEnded now = true) (engine : ε)
    (call : EngineCall) :
    call.ask life now engine = (engine, some ⟨now, .error (life.error now)⟩) := by
  refine Prod.ext ?_ ?_
  · rw [ask_fst, ended]
    simp
  · rw [ask_snd, Lifetime.run, Lifetime.await.eq_def, if_pos ended]

end Engine

end EngineCall

/-- A call: a question, asked at a moment in a context. -/
structure MadeCall where
  life : Lifetime
  moment : Nat
  question : EngineCall

/-- What came of a call. There is no answer if none ever comes. -/
structure AnsweredCall where
  made : MadeCall
  answer : Option (Timed (Except EngineError made.question.Answer))

namespace MadeCall

/-- Is it a request for usage whose context had not ended when it was made? -/
def isCounted (c : MadeCall) : Bool := c.question.isSample && !c.life.isEnded c.moment

/-- An engine as a machine that answers calls in the order in which they are made. -/
def machine {ε : Type} [ContainerEngine ε] : Transducer ε MadeCall AnsweredCall where
  step engine c :=
    match c.question.ask c.life c.moment engine with
    | (engine, answer) => ([⟨c, answer⟩], engine)
  finish _ := []

end MadeCall

namespace MemoryEngine

variable {e : MemoryEngine}

/-! ### The work of a call -/

theorem takes_work (e : MemoryEngine) (call : EngineCall) :
    (call.work e).takes = some e.latency := by
  cases call <;> rfl

theorem result_enter_of_failure {α : Type} {text : String} (fails : e.failure = some text)
    (result : Except EngineError α) : (e.enter result).result = .error (.api text) := by
  rw [enter, fails]

theorem result_enter {α : Type} (works : e.failure = none) (result : Except EngineError α) :
    (e.enter result).result = result := by
  rw [enter, works]

theorem result_work_of_failure {text : String} (fails : e.failure = some text) (call : EngineCall) :
    (call.work e).result = .error (.api text) := by
  cases call <;> exact result_enter_of_failure fails _

theorem require_of_unknown {id : String} (unknown : ∀ c ∈ e.containers, c.container.id ≠ id) :
    e.require id = .error (.notFound id) := by
  have nothing : e.find? id = none := by
    rw [find?, List.find?_eq_none]
    intro c inside
    simpa using unknown c inside
  rw [require, nothing]

theorem exists_require {id : String} (known : ∃ c ∈ e.containers, c.container.id = id) :
    ∃ c, e.require id = .ok c := by
  obtain ⟨c, inside, same⟩ := known
  have there : (e.find? id).isSome = true := by
    rw [find?, List.find?_isSome]
    exact ⟨c, inside, by simpa using same⟩
  obtain ⟨d, found⟩ := Option.isSome_iff_exists.mp there
  refine ⟨d, ?_⟩
  rw [require, found]

theorem result_work_of_unknown {call : EngineCall} {id : String} (works : e.failure = none)
    (about : call.id? = some id) (unknown : ∀ c ∈ e.containers, c.container.id ≠ id) :
    (call.work e).result = .error (.notFound id) := by
  have missing := require_of_unknown unknown
  cases call with
  | list _ | ping => cases about
  | inspect _ | readLogs _ _ | sampleUsage _ =>
      cases about
      refine (result_enter works _).trans ?_
      rw [missing]
      rfl

theorem exists_result_work {call : EngineCall} (works : e.failure = none)
    (known : ∀ id, call.id? = some id → ∃ c ∈ e.containers, c.container.id = id) :
    ∃ answer, (call.work e).result = .ok answer := by
  cases call with
  | list _ | ping => exact ⟨_, result_enter works _⟩
  | inspect id | readLogs id _ | sampleUsage id =>
      obtain ⟨c, there⟩ := exists_require (known id rfl)
      exact ⟨_, (result_enter works _).trans (congrArg (Except.map _) there)⟩

/-! ### The outcome of a call -/

/-- The order in which it is decided what comes of a call: that the context has ended before comes
first, then that it ends while the engine waits, the last moment of the wait included, then that the
engine is made to fail, and last that the container is unknown. -/
structure Resolves (e : MemoryEngine) (c : MadeCall)
    (answer : Option (Timed (Except EngineError c.question.Answer))) : Prop where
  refused : c.life.isEnded c.moment = true →
    answer = some ⟨c.moment, .error (c.life.error c.moment)⟩
  cutShort : c.life.isEnded c.moment = false → ∀ ending, c.life.endsAt = some ending →
    ending ≤ c.moment + e.latency → answer = some ⟨ending, .error (c.life.error ending)⟩
  failed : c.life.isEnded (c.moment + e.latency) = false → ∀ text, e.failure = some text →
    answer = some ⟨c.moment + e.latency, .error (.api text)⟩
  unknown : c.life.isEnded (c.moment + e.latency) = false → e.failure = none → ∀ id,
    c.question.id? = some id → (∀ held ∈ e.containers, held.container.id ≠ id) →
    answer = some ⟨c.moment + e.latency, .error (.notFound id)⟩
  answered : c.life.isEnded (c.moment + e.latency) = false → e.failure = none →
    (∀ id, c.question.id? = some id → ∃ held ∈ e.containers, held.container.id = id) →
    ∃ found, answer = some ⟨c.moment + e.latency, .ok found⟩

/-- What comes of a call is what comes of its work under its lifetime. -/
theorem resolves_ask (e : MemoryEngine) (c : MadeCall) :
    Resolves e c (c.question.ask c.life c.moment e).2 := by
  obtain ⟨life, moment, call⟩ := c
  have takes := takes_work e call
  have done : ∀ result, life.isEnded (moment + e.latency) = false → (call.work e).result = result →
      (call.ask life moment e).2 = some ⟨moment + e.latency, result⟩ := by
    intro result lives gives
    rw [EngineCall.ask_snd, Lifetime.run_of_live takes lives, gives]
  refine ⟨?_, ?_, ?_, ?_, ?_⟩
  · intro ended
    rw [EngineCall.ask_of_ended ended]
  · intro (alive : life.isEnded moment = false) ending ends soon
    have ahead : moment ≤ ending := by
      rw [← Bool.not_eq_true, Lifetime.isEnded_of_endsAt ends] at alive
      omega
    have slow : ∀ time, (call.work e).takes = some time → life.isEnded (moment + time) = true := by
      intro time same
      obtain rfl : e.latency = time := Option.some.inj (takes.symm.trans same)
      exact (Lifetime.isEnded_of_endsAt ends).mpr soon
    rw [EngineCall.ask_snd, Lifetime.run_of_ended ends slow, Nat.max_eq_right ahead]
  · intro lives text fails
    exact done _ lives (result_work_of_failure fails call)
  · intro lives works id about unknown
    exact done _ lives (result_work_of_unknown works about unknown)
  · intro lives works known
    obtain ⟨answer, gives⟩ := exists_result_work works known
    exact ⟨answer, done _ lives gives⟩

/-! ### Runs -/

/-- No call looks at the count. -/
theorem work_of_count (e : MemoryEngine) (count : Nat) (call : EngineCall) :
    call.work { e with usageCalls := count } = call.work e := by
  cases call <;> rfl

/-- An engine after a number of counted calls. -/
def counting (e : MemoryEngine) (count : Nat) : MemoryEngine :=
  { e with usageCalls := e.usageCalls + count }

/-- A call that is counted adds one to the count, and nothing else is changed. -/
theorem step_counting (e : MemoryEngine) (count : Nat) (c : MadeCall) :
    MadeCall.machine.step (e.counting count) c =
      ([⟨c, (c.question.ask c.life c.moment e).2⟩],
        e.counting (count + if c.isCounted then 1 else 0)) := by
  have answer : (c.question.ask c.life c.moment (e.counting count)).2 =
      (c.question.ask c.life c.moment e).2 := by
    rw [EngineCall.ask_snd, EngineCall.ask_snd, counting, work_of_count]
  have engine : (c.question.ask c.life c.moment (e.counting count)).1 =
      e.counting (count + if c.isCounted then 1 else 0) := by
    rw [EngineCall.ask_fst, ← MadeCall.isCounted]
    split <;> rfl
  rw [← answer, ← engine]
  rfl

/-- Every call of a run has the outcome that it has alone, and the run adds to the count what is
counted. -/
theorem feed_counting (e : MemoryEngine) (count : Nat) (calls : List MadeCall) :
    MadeCall.machine.feed (e.counting count) calls =
      (calls.map fun c => ⟨c, (c.question.ask c.life c.moment e).2⟩,
        e.counting (count + calls.countP MadeCall.isCounted)) := by
  induction calls generalizing count with
  | nil => rfl
  | cons c calls ih =>
      rw [Transducer.feed_cons, step_counting]
      dsimp only
      rw [ih, List.countP_cons, Nat.add_assoc, Nat.add_comm (calls.countP _)]
      rfl

/-- What comes of calls: each with what came of it, and the engine that is left. -/
structure ResolvesAll (e : MemoryEngine) (calls : List MadeCall)
    (run : List AnsweredCall × MemoryEngine) : Prop where
  made : run.1.map (·.made) = calls
  resolves : ∀ a ∈ run.1, Resolves e a.made a.answer
  left : run.2 = { e with usageCalls := e.usageCalls + calls.countP MadeCall.isCounted }
  idle : ∀ c : MadeCall, c.life.isEnded c.moment = true →
    (MadeCall.machine.step run.2 c).2 = run.2

/-- In every run of calls, which may overlap, each call is answered, and what comes of it is decided
in order by its own context, the latency, the failure and the containers of the engine. A run leaves
the engine as it was but for the count of requests for usage, to which it adds those whose contexts
had not ended when they were made, whatever has come of them; so a call whose context had ended
before has no effect at all. -/
theorem calls_resolve_in_order (e : MemoryEngine) (calls : List MadeCall) :
    ResolvesAll e calls (MadeCall.machine.feed e calls) := by
  generalize outcome : MadeCall.machine.feed e calls = run
  have whole : run = _ := outcome.symm.trans (feed_counting e 0 calls)
  refine { made := ?_, resolves := ?_, left := ?_, idle := ?_ }
  · rw [whole, List.map_map]
    exact List.map_id calls
  · intro a inside
    rw [whole] at inside
    obtain ⟨c, -, rfl⟩ := List.mem_map.mp inside
    exact resolves_ask e c
  · rw [whole, Nat.zero_add]
    rfl
  · intro c ended
    exact congrArg Prod.fst (EngineCall.ask_of_ended ended run.2 c.question)

def fiveMillis : MemoryEngine := { containers := [⟨{ id := "web" }, [], none⟩], latency := 5 }

/-- A request for usage with a deadline, one that has been cancelled before, and a question about a
container that is not there. -/
def threeCalls : List MadeCall :=
  [⟨{ deadline := some 5 }, 0, .sampleUsage "web"⟩,
    ⟨{ cancelledAt := some 3 }, 4, .sampleUsage "web"⟩, ⟨{}, 4, .inspect "ghost"⟩]

/-- The deadline wins the tie, and the request is counted all the same; the cancelled one is not. -/
theorem calls_resolve_in_order_tie :
    let run := MadeCall.machine.feed fiveMillis threeCalls
    (∀ a ∈ run.1, a.made.life.deadline = some 5 → a.answer = some ⟨5, .error .deadlineExceeded⟩) ∧
      (∀ a ∈ run.1, a.made.life.cancelledAt = some 3 → a.answer = some ⟨4, .error .cancelled⟩) ∧
      (∀ a ∈ run.1, a.made.life = {} → a.answer = some ⟨9, .error (.notFound "ghost")⟩) ∧
      run.1.map (·.made) = threeCalls ∧ run.2.usageCalls = 1 := by
  intro run
  have all := calls_resolve_in_order fiveMillis threeCalls
  have among : ∀ a ∈ run.1, a.made ∈ threeCalls := by
    intro a inside
    rw [← all.made]
    exact List.mem_map_of_mem inside
  refine ⟨?_, ?_, ?_, all.made, congrArg usageCalls all.left⟩
  · rintro ⟨c, answer⟩ inside (tight : c.life.deadline = some 5)
    have there : c ∈ threeCalls := among _ inside
    fin_cases there <;> cases tight
    exact (all.resolves _ inside).cutShort rfl 5 rfl (Nat.le_refl 5)
  · rintro ⟨c, answer⟩ inside (cancelled : c.life.cancelledAt = some 3)
    have there : c ∈ threeCalls := among _ inside
    fin_cases there <;> cases cancelled
    exact (all.resolves _ inside).refused rfl
  · rintro ⟨c, answer⟩ inside (free : c.life = {})
    have there : c ∈ threeCalls := among _ inside
    fin_cases there <;> cases free
    exact (all.resolves _ inside).unknown rfl rfl "ghost" rfl (by decide)

end MemoryEngine

end FleetBoard

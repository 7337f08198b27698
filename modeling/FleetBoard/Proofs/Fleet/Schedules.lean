import FleetBoard.Proofs.Call.Endings
import FleetBoard.Proofs.Fleet.FanOut
import FleetBoard.Proofs.Fleet.Traffic

/-!
# Calls for samples are schedules of their tasks

A fleet lets the tasks of a call go on in one order of many: tasks begin in order, a task with
nothing to wait for comes to its end before the next begins, and the others come to theirs in the
order of their moments. That order is one schedule of the tasks. It leaves the same fleet, and the
answer of the call is what its tasks have answered, in the order in which they did. What holds of
all schedules therefore holds of calls as they are run.
-/

namespace FleetBoard

open StatsEvent (samples)

namespace StatsTask

/-- The answer that a task waits for, with its container and its moment if it ever comes. -/
def awaited? (t : StatsTask) :
    Option (Option (Timed (ContainerRef × Except EngineError UsageSnapshot))) :=
  match t.stage with
  | .asked answer => some (answer.map fun a => ⟨a.moment, (t.container, a.value)⟩)
  | _ => none

def promised? (t : StatsTask) : Option (ContainerRef × Except EngineError UsageSnapshot) :=
  t.awaited?.bind fun answer => answer.map (·.value)

variable (t : StatsTask) {result : Except FleetError ContainerStats}

theorem settled_of_answer (answered : t.answer? = some result) : t.Settled := by
  refine .inl ?_
  rw [answered]
  exact Option.some_ne_none result

theorem awaited?_of_settled (settled : t.Settled) : t.awaited? = none := by
  rw [awaited?]
  rcases t.settled_iff.mp settled with ⟨answer, stage⟩ | ⟨answer, stage⟩ | stage <;> rw [stage]

theorem awaited?_of_answer (answered : t.answer? = some result) : t.awaited? = none :=
  t.awaited?_of_settled (t.settled_of_answer answered)

theorem asked_of_awaited? {u : Timed (ContainerRef × Except EngineError UsageSnapshot)}
    (awaited : t.awaited? = some (some u)) :
    ∃ a, t.stage = .asked (some a) ∧ u = ⟨a.moment, (t.container, a.value)⟩ := by
  obtain ⟨_, _, _, stage⟩ := t
  cases stage with
  | asked answer =>
      obtain ⟨a, rfl, same⟩ := Option.map_eq_some_iff.mp (Option.some.inj awaited)
      exact ⟨a, rfl, same.symm⟩
  | _ => cases awaited

theorem asked_none_of_awaited? (awaited : t.awaited? = some none) : t.stage = .asked none := by
  obtain ⟨_, _, _, stage⟩ := t
  cases stage with
  | asked answer =>
      obtain rfl := Option.map_eq_none_iff.mp (Option.some.inj awaited)
      rfl
  | _ => cases awaited

theorem promised?_of_settled (settled : t.Settled) : t.promised? = none := by
  rw [promised?, t.awaited?_of_settled settled]
  rfl

theorem promised?_of_asked {answer : Timed (Except EngineError UsageSnapshot)}
    (asked : t.stage = .asked (some answer)) : t.promised? = some (t.container, answer.value) := by
  rw [promised?, awaited?, asked]
  rfl

end StatsTask

namespace Fleet.Sampling

variable {ε : Type} (s : Sampling ε) (g : Fleet ε) (result : Except FleetError ContainerStats)

@[simp] theorem note_fleet : (s.note g result).fleet = g := by
  cases result <;> rfl

@[simp] theorem note_waiting : (s.note g result).waiting = s.waiting := by
  cases result <;> rfl

@[simp] theorem note_done : (s.note g result).done = result.toOption.toList ++ s.done := by
  cases result <;> rfl

end Fleet.Sampling

namespace Fleet

variable {ε : Type} [ContainerEngine ε] {f : Fleet ε} {life : Lifetime} {now : Nat}
    {c : ContainerRef}

/-- What is fresh in the cache is the answer. -/
theorem beginStats_of_hit {stats : ContainerStats}
    (found : f.cache.get f.clock c.key = some stats) :
    f.beginStats life now c = (f, .done (.ok stats)) := by
  rw [beginStats, found]

/-- A host without an engine is an error. -/
theorem beginStats_of_unknown {error : FleetError} (missing : f.cache.get f.clock c.key = none)
    (unknown : f.pool.engine c.host = .error error) :
    f.beginStats life now c = (f, .done (.error error)) := by
  rw [beginStats, missing]
  dsimp only
  rw [unknown]

/-- The engine of a host is asked. -/
theorem beginStats_of_known {engine : ε} (missing : f.cache.get f.clock c.key = none)
    (known : f.pool.engine c.host = .ok engine) :
    f.beginStats life now c =
      ({ f with pool := f.pool.modify c.host fun _ =>
        (ContainerEngine.sampleUnder life now engine c.id).1 },
        .asked (ContainerEngine.sampleUnder life now engine c.id).2) := by
  rw [beginStats, missing]
  dsimp only
  rw [known]

end Fleet

namespace Traffic

variable {ε : Type} [ContainerEngine ε] {f g : Fleet ε} {life : Lifetime} {now : Nat}
    {c : ContainerRef}
  {result : Except FleetError ContainerStats}

/-! ### One task -/

theorem working_of_miss (fanned : Bool) (before after : List StatsTask)
    (history : List (Timed (StatsEvent ε))) (begins : (fanned && life.isEnded now) = false)
    (missing : f.cache.get f.clock c.key = none) :
    Working ⟨f, now, before ++ ⟨c, life, fanned, .ready⟩ :: after, history⟩
      ⟨f, now, before ++ ⟨c, life, fanned, .missed⟩ :: after, ⟨f.clock, .missed c⟩ :: history⟩ :=
  .single (.task (.miss begins missing))

/-- A task for which there is nothing to wait ends. -/
theorem working_of_done (fanned : Bool) (before after : List StatsTask)
    (history : List (Timed (StatsEvent ε))) (begins : (fanned && life.isEnded now) = false)
    (begun : f.beginStats life now c = (g, .done result)) :
    ∃ t history', Working ⟨f, now, before ++ ⟨c, life, fanned, .ready⟩ :: after, history⟩
        ⟨g, now, before ++ t :: after, history'⟩ ∧
      t.container = c ∧ t.answer? = some result ∧
      samples history' = result.toOption.toList ++ samples history := by
  rw [Fleet.beginStats] at begun
  split at begun
  · next stats found =>
      cases begun
      exact ⟨_, _, .single (.task (.hit begins found)), rfl, rfl, StatsEvent.samples_cons _ _⟩
  · next missing =>
      split at begun
      · next error unknown =>
          cases begun
          refine ⟨_, _, (working_of_miss fanned before after history begins missing).tail
            (.task (.refuse unknown)), rfl, rfl, ?_⟩
          rw [StatsEvent.samples_cons, StatsEvent.samples_cons]
          rfl
      · cases begun

/-- A task for which its engine has to be asked asks it. -/
theorem working_of_asked (fanned : Bool) (before after : List StatsTask)
    (history : List (Timed (StatsEvent ε)))
    {answer : Option (Timed (Except EngineError UsageSnapshot))}
    (begins : (fanned && life.isEnded now) = false)
    (begun : f.beginStats life now c = (g, .asked answer)) :
    (∃ history', Working ⟨f, now, before ++ ⟨c, life, fanned, .ready⟩ :: after, history⟩
        ⟨g, now, before ++ ⟨c, life, fanned, .asked answer⟩ :: after, history'⟩ ∧
      samples history' = samples history) ∧
      ∀ a, answer = some a → now ≤ a.moment := by
  rw [Fleet.beginStats] at begun
  split at begun
  · cases begun
  · next missing =>
      split at begun
      · cases begun
      · next engine known =>
          cases begun
          refine ⟨⟨_, (working_of_miss fanned before after history begins missing).tail
            (.task (.ask known)), ?_⟩, fun a ran => Lifetime.le_of_run ran⟩
          rw [StatsEvent.samples_cons, StatsEvent.samples_cons]
          rfl

/-- A task whose engine has answered ends. -/
theorem working_of_answer (f : Fleet ε) (c : ContainerRef) (life : Lifetime) (fanned : Bool)
    (before after : List StatsTask) (history : List (Timed (StatsEvent ε)))
    {answer : Timed (Except EngineError UsageSnapshot)} (past : answer.moment ≤ now) :
    ∃ t history', Working
        ⟨f, now, before ++ ⟨c, life, fanned, .asked (some answer)⟩ :: after, history⟩
        ⟨(f.endStats c answer.value).1, now, before ++ t :: after, history'⟩ ∧
      t.container = c ∧ t.answer? = some (f.endStats c answer.value).2 ∧
      samples history' = (f.endStats c answer.value).2.toOption.toList ++ samples history := by
  obtain ⟨moment, value⟩ := answer
  have heard : Working
      ⟨f, now, before ++ ⟨c, life, fanned, .asked (some ⟨moment, value⟩)⟩ :: after, history⟩
      ⟨f, now, before ++ ⟨c, life, fanned, .returned value⟩ :: after,
        ⟨f.clock, .returned c value⟩ :: history⟩ := .single (.task (.hear past))
  cases value with
  | error e =>
      refine ⟨_, _, heard.tail (.task .fail), rfl, rfl, ?_⟩
      rw [StatsEvent.samples_cons, StatsEvent.samples_cons]
      rfl
  | ok snapshot =>
      refine ⟨_, _, heard.tail (.task .store), rfl, rfl, ?_⟩
      rw [StatsEvent.samples_cons, StatsEvent.samples_cons]
      rfl

/-- To ask for one sample is to let its task go on until it ends. -/
theorem containerStats_schedule (f : Fleet ε) (life : Lifetime) (now : Nat) (c : ContainerRef)
    (before : List StatsTask) (history : List (Timed (StatsEvent ε))) :
    ∃ s, Working ⟨f, now, before ++ [⟨c, life, false, .ready⟩], history⟩ s ∧
      s.fleet = (f.containerStats life now c).1 ∧
      ∀ answer, (f.containerStats life now c).2 = some answer →
        s.now = answer.moment ∧
          ∃ t, s.tasks = before ++ [t] ∧ t.container = c ∧ t.answer? = some answer.value := by
  rw [Fleet.containerStats]
  cases begun : f.beginStats life now c with
  | mk g begins =>
      cases begins with
      | done result =>
          obtain ⟨t, history', working, about, answered, -⟩ :=
            working_of_done false before [] history rfl begun
          refine ⟨_, working, rfl, ?_⟩
          rintro _ ⟨⟩
          exact ⟨rfl, t, rfl, about, answered⟩
      | asked answer =>
          obtain ⟨⟨history', working, -⟩, later⟩ :=
            working_of_asked false before [] history rfl begun
          cases answer with
          | none => exact ⟨_, working, rfl, nofun⟩
          | some a =>
              have waited := working.tail (.wait (a.moment - now))
              rw [Nat.add_sub_cancel' (later a rfl)] at waited
              obtain ⟨t, history'', ended, about, answered, -⟩ :=
                working_of_answer g c life false before [] history' (Nat.le_refl a.moment)
              refine ⟨_, waited.trans ended, rfl, ?_⟩
              rintro _ ⟨⟩
              exact ⟨rfl, t, rfl, about, answered⟩

/-! ### The tasks of a fan-out -/

/-- A task of a fan-out begins as the fleet lets it. -/
theorem start_schedule (life : Lifetime) (now : Nat) (σ : Fleet.Sampling ε) (c : ContainerRef)
    (before after : List StatsTask) (history : List (Timed (StatsEvent ε))) :
    ∃ t history' new, Working ⟨σ.fleet, now, before ++ ⟨c, life, true, .ready⟩ :: after, history⟩
        ⟨(σ.start life now c).fleet, now, before ++ t :: after, history'⟩ ∧
      t.container = c ∧ (t.Settled ∨ t.awaited? ≠ none) ∧
      (σ.start life now c).waiting = t.awaited?.toList ++ σ.waiting ∧
      (σ.start life now c).done = new ++ σ.done ∧ samples history' = new ++ samples history := by
  rw [Fleet.Sampling.start]
  split
  · next gone => exact ⟨_, _, [], .single (.task (.skip gone)), rfl, .inl (.inr rfl), rfl, rfl, rfl⟩
  · next lives =>
      have begins : (true && life.isEnded now) = false := by simpa using lives
      split
      · next g result begun =>
          obtain ⟨t, history', working, about, answered, new⟩ :=
            working_of_done true before after history begins begun
          rw [Fleet.Sampling.note_fleet, Fleet.Sampling.note_waiting, Fleet.Sampling.note_done]
          exact ⟨t, history', _, working, about, .inl (t.settled_of_answer answered),
            by rw [t.awaited?_of_answer answered]; rfl, rfl, new⟩
      · next g begun =>
          obtain ⟨⟨history', working, same⟩, -⟩ :=
            working_of_asked true before after history begins begun
          exact ⟨_, history', [], working, rfl, .inr nofun, rfl, rfl, same⟩
      · next g a begun =>
          obtain ⟨⟨history', working, same⟩, -⟩ :=
            working_of_asked true before after history begins begun
          split
          · next atOnce =>
              obtain ⟨t, history'', ended, about, answered, new⟩ :=
                working_of_answer g c life true before after history' (Nat.le_of_eq atOnce)
              rw [Fleet.Sampling.note_fleet, Fleet.Sampling.note_waiting, Fleet.Sampling.note_done]
              exact ⟨t, history'', _, working.trans ended, about,
                .inl (t.settled_of_answer answered), by
                rw [t.awaited?_of_answer answered]; rfl, rfl, same ▸ new⟩
          · exact ⟨_, history', [], working, rfl, .inr nofun, rfl, rfl, same⟩

/-- The tasks of a fan-out begin in order. -/
theorem starts_schedule (life : Lifetime) (now : Nat) (σ : Fleet.Sampling ε)
    (containers : List ContainerRef) (before : List StatsTask)
    (history : List (Timed (StatsEvent ε))) :
    ∃ mine history' new, Working ⟨σ.fleet, now, before ++ StatsTask.fanOut life containers, history⟩
        ⟨(containers.foldl (Fleet.Sampling.start life now) σ).fleet, now,
          before ++ mine, history'⟩ ∧
      mine.map (·.container) = containers ∧ (∀ t ∈ mine, t.Settled ∨ t.awaited? ≠ none) ∧
      (containers.foldl (Fleet.Sampling.start life now) σ).waiting =
        (mine.filterMap (·.awaited?)).reverse ++ σ.waiting ∧
      (containers.foldl (Fleet.Sampling.start life now) σ).done = new ++ σ.done ∧
      samples history' = new ++ samples history := by
  induction containers generalizing σ before history with
  | nil =>
      exact ⟨[], history, [], .refl, rfl, fun t inside =>
        absurd inside List.not_mem_nil, rfl, rfl, rfl⟩
  | cons c containers ih =>
      obtain ⟨t, history₁, new₁, first, about, begun, waiting₁, done₁, samples₁⟩ :=
        start_schedule life now σ c before (StatsTask.fanOut life containers) history
      obtain ⟨mine, history₂, new₂, others, abouts, begins, waiting₂, done₂, samples₂⟩ :=
        ih (σ.start life now c) (before ++ [t]) history₁
      rw [List.append_assoc, List.append_assoc, List.singleton_append, List.singleton_append]
        at others
      refine ⟨t :: mine, history₂, new₂ ++ new₁, first.trans others, ?_, ?_, ?_, ?_, ?_⟩
      · rw [List.map_cons, about, abouts]
      · exact List.forall_mem_cons.mpr ⟨begun, begins⟩
      · rw [List.foldl_cons, waiting₂, waiting₁, ← List.append_assoc, List.filterMap_cons]
        cases t.awaited? <;> simp
      · rw [List.foldl_cons, done₂, done₁, List.append_assoc]
      · rw [samples₂, samples₁, List.append_assoc]

/-- Tasks whose engines have answered end, in any order of their answers. -/
theorem finishes_schedule (now : Nat) (σ : Fleet.Sampling ε)
    (answers : List (ContainerRef × Except EngineError UsageSnapshot)) (before : List StatsTask)
    {mine : List StatsTask} (history : List (Timed (StatsEvent ε)))
    (due : ∀ t ∈ mine, t.Settled ∨ ∃ answer, t.stage = .asked (some answer) ∧ answer.moment ≤ now)
    (same : answers.Perm (mine.filterMap (·.promised?))) :
    ∃ mine' history' new, Working ⟨σ.fleet, now, before ++ mine, history⟩
        ⟨(answers.foldl Fleet.Sampling.finish σ).fleet, now, before ++ mine', history'⟩ ∧
      mine'.map (·.container) = mine.map (·.container) ∧ (∀ t ∈ mine', t.Settled) ∧
      (answers.foldl Fleet.Sampling.finish σ).done = new ++ σ.done ∧
      samples history' = new ++ samples history := by
  -- By induction on the answers: those still to come are, in some order, those that tasks wait for.
  induction answers generalizing σ mine history with
  | nil =>
      refine ⟨mine, history, [], .refl, rfl, ?_, rfl, rfl⟩
      intro t inside
      rcases due t inside with settled | ⟨answer, asked, -⟩
      · exact settled
      · have nothing := List.filterMap_eq_nil_iff.mp same.symm.eq_nil t inside
        rw [t.promised?_of_asked asked] at nothing
        cases nothing
  | cons answer answers ih =>
      obtain ⟨t, inside, promised⟩ := List.mem_filterMap.mp (same.mem_iff.mp List.mem_cons_self)
      obtain ⟨early, late, rfl⟩ := List.append_of_mem inside
      rcases due t inside with settled | ⟨a, asked, past⟩
      · rw [t.promised?_of_settled settled] at promised
        cases promised
      · obtain rfl : (t.container, a.value) = answer :=
          Option.some.inj ((t.promised?_of_asked asked).symm.trans promised)
        rw [List.filterMap_append, List.filterMap_cons_some (t.promised?_of_asked asked)] at same
        obtain ⟨c, life, fanned, stage⟩ := t
        obtain rfl : stage = .asked (some a) := asked
        obtain ⟨t', history₁, first, about, answered, samples₁⟩ :=
          working_of_answer σ.fleet c life fanned (before ++ early) late history past
        have still := StatsTask.forall_moved due (.inl (t'.settled_of_answer answered))
        have left : answers.Perm ((early ++ t' :: late).filterMap (·.promised?)) := by
          rw [List.filterMap_append, List.filterMap_cons_none
            (t'.promised?_of_settled (t'.settled_of_answer answered))]
          exact (same.trans List.perm_middle).cons_inv
        obtain ⟨mine', history₂, new, others, abouts, settled, done₂, samples₂⟩ :=
          ih (σ.finish (c, a.value)) history₁ still left
        rw [Fleet.Sampling.finish, Fleet.Sampling.note_fleet] at others
        rw [List.append_assoc, List.append_assoc] at first
        refine ⟨mine', history₂, new ++ (σ.fleet.endStats c a.value).2.toOption.toList,
          first.trans others, ?_, settled, ?_, ?_⟩
        · rw [abouts, List.map_append, List.map_append, List.map_cons, List.map_cons, about]
        · rw [List.foldl_cons, done₂, Fleet.Sampling.finish, Fleet.Sampling.note_done,
            List.append_assoc]
        · rw [samples₂, samples₁, List.append_assoc]

/-- To ask for many samples is to let the tasks go on until all have ended, and the answer is what
they have answered, in the order in which they did. Only if some task waits for ever is there no
answer. -/
theorem bulkStats_schedule (f : Fleet ε) (life : Lifetime) (now : Nat)
    (containers : List ContainerRef) (before : List StatsTask)
    (history : List (Timed (StatsEvent ε))) :
    ∃ s, Working ⟨f, now, before ++ StatsTask.fanOut life containers, history⟩ s ∧
      s.fleet = (f.bulkStats life now containers).1 ∧
      ((f.bulkStats life now containers).2 = none → ∃ t ∈ s.tasks, t.stage = .asked none) ∧
      ∀ answer, (f.bulkStats life now containers).2 = some answer →
        s.now = answer.moment ∧ samples s.history = answer.value.reverse ++ samples history ∧
          ∃ mine, s.tasks = before ++ mine ∧ mine.map (·.container) = containers ∧
            ∀ t ∈ mine, t.Settled := by
  obtain ⟨mine, history₁, new₁, begun, abouts, begins, waiting, done₁, samples₁⟩ :=
    starts_schedule life now { fleet := f } containers before history
  rw [Fleet.bulkStats]
  generalize containers.foldl (Fleet.Sampling.start life now) { fleet := f } = σ
    at begun waiting done₁
  have waits : σ.waiting.reverse = mine.filterMap (·.awaited?) := by
    rw [waiting, List.append_nil, List.reverse_reverse]
  dsimp only
  rw [waits]
  cases gathered : Gathered.ofTasks now (mine.filterMap (·.awaited?)) with
  | none =>
      -- If every task were to hear from its engine, there would be results.
      refine ⟨_, begun, rfl, fun _ => ?_, nofun⟩
      by_contra ends
      have promised : ∀ task ∈ mine.filterMap (·.awaited?), task ≠ none := by
        intro task there silent
        obtain ⟨t, inside, awaited⟩ := List.mem_filterMap.mp there
        refine ends ⟨t, List.mem_append_right before inside, ?_⟩
        exact t.asked_none_of_awaited? (silent ▸ awaited)
      obtain ⟨timed, all⟩ := Gathered.exists_map_some promised
      obtain ⟨results, some, -⟩ := Gathered.ofTasks_some now timed
      rw [all, some] at gathered
      cases gathered
  | some g =>
      obtain ⟨timed, all, moment, results⟩ := Gathered.exists_of_ofTasks gathered
      have last : now ≤ g.moment ∧ ∀ t ∈ timed, t.moment ≤ g.moment := by
        have bound := Gathered.foldl_max_le_iff.mp (Nat.le_of_eq moment.symm)
        exact ⟨bound.1, fun t inside => bound.2 t.moment (List.mem_map_of_mem inside)⟩
      have promises : mine.filterMap (·.promised?) = timed.map (·.value) := by
        calc mine.filterMap (·.promised?)
            = (mine.filterMap (·.awaited?)).filterMap (Option.map (·.value)) :=
              (List.filterMap_filterMap ..).symm
          _ = (timed.map some).filterMap (Option.map (·.value)) := by rw [all]
          _ = timed.map (·.value) := by
              rw [List.filterMap_map]
              exact congrFun List.filterMap_eq_map timed
      have due : ∀ t ∈ mine, t.Settled ∨
          ∃ answer, t.stage = .asked (some answer) ∧ answer.moment ≤ g.moment := by
        intro t inside
        rcases begins t inside with settled | waits
        · exact .inl settled
        · obtain ⟨answer, awaited⟩ := Option.ne_none_iff_exists'.mp waits
          have there := List.mem_filterMap.mpr ⟨t, inside, awaited⟩
          rw [all] at there
          obtain ⟨u, known, rfl⟩ := List.mem_map.mp there
          obtain ⟨a, asked, rfl⟩ := t.asked_of_awaited? awaited
          exact .inr ⟨a, asked, last.2 _ known⟩
      -- Nobody has to hear before the last answer is there, so all wait until then.
      have waited := begun.tail (.wait (g.moment - now))
      rw [Nat.add_sub_cancel' last.1] at waited
      obtain ⟨mine', history₂, new₂, ended, abouts', settled, done₂, samples₂⟩ :=
        finishes_schedule g.moment σ g.results before history₁ due (promises ▸ results)
      refine ⟨_, waited.trans ended, rfl, nofun, ?_⟩
      rintro _ ⟨⟩
      refine ⟨rfl, ?_, mine', rfl, abouts'.trans abouts, settled⟩
      rw [samples₂, samples₁, done₂, done₁, List.reverse_reverse, List.append_nil,
        List.append_assoc]

end Traffic

end FleetBoard

import FleetBoard.Proofs.Call.Forest
import Mathlib.Data.List.Induction
import Mathlib.Data.List.MinMax

/-!
# A context has ended when its lineage says so

The table of contexts works out at once what a step means: cancelling marks every token below, and a
new deadline is merged with the one before. A chronicle works out nothing. It writes down of each
context how it came about, that is its lineage: the token and the tokens above it, and all deadlines
that were set on the way. The main statement reads off both whether a context has ended. What is
marked in the forest and merged in a deadline is what the lineage says, after any steps
(`ended_iff_lineage`).
-/

namespace FleetBoard

/-- How a context came about. -/
structure Lineage where
  /-- The token of the context. -/
  token : Nat
  /-- The tokens above it, the next one first. -/
  above : List Nat
  /-- The deadlines that were set along the derivation, the latest first. -/
  deadlines : List Nat

/-- The tokens by which a context can be cancelled. -/
def Lineage.tokens (l : Lineage) : List Nat := l.token :: l.above

/-- What has been done with contexts. -/
structure Chronicle where
  now : Nat := 0
  /-- How many tokens have been made. -/
  issued : Nat := 0
  /-- The tokens of the contexts that were cancelled. -/
  cancels : List Nat := []
  /-- The lineage of the context under a name. -/
  lineage? : String → Option Lineage := fun _ => none

namespace Chronicle

/-- Writes down the lineage of the context that a name stands for from now on. -/
def put (ch : Chronicle) (name : String) (l : Lineage) : Chronicle :=
  { ch with lineage? := fun other => if other = name then some l else ch.lineage? other }

/-- Writes down one step. A context with a token below another's has the tokens of the other above
its own. A derived context has the deadlines of the one that it comes from, unless only the token is
shared. -/
def step (ch : Chronicle) : ContextStep → Chronicle
  | .create name => { ch with issued := ch.issued + 1 }.put name ⟨ch.issued, [], []⟩
  | .child name parent => (ch.lineage? parent).elim ch fun l =>
    { ch with issued := ch.issued + 1 }.put name ⟨ch.issued, l.tokens, l.deadlines⟩
  | .clone name source => (ch.lineage? source).elim ch fun l => ch.put name l
  | .share name source =>
      (ch.lineage? source).elim ch fun l => ch.put name { l with deadlines := [] }
  | .deadline name moment => (ch.lineage? name).elim ch fun l =>
    ch.put name { l with deadlines := moment :: l.deadlines }
  | .timeout name time => (ch.lineage? name).elim ch fun l =>
    ch.put name { l with deadlines := (ch.now + time) :: l.deadlines }
  | .cancel name => (ch.lineage? name).elim ch fun l => { ch with cancels := l.token :: ch.cancels }
  | .advance time => { ch with now := ch.now + time }

def run (steps : List ContextStep) : Chronicle := steps.foldl step {}

theorem run_concat (steps : List ContextStep) (step : ContextStep) :
    run (steps ++ [step]) = (run steps).step step := by
  rw [run, List.foldl_append]
  rfl

end Chronicle

namespace ContextTable

def run (steps : List ContextStep) : ContextTable := steps.foldl step {}

theorem run_append (steps more : List ContextStep) :
    run (steps ++ more) = more.foldl step (run steps) :=
  List.foldl_append

theorem run_concat (steps : List ContextStep) (step : ContextStep) :
    run (steps ++ [step]) = (run steps).step step := run_append steps [step]

variable {t : ContextTable} {name other : String} {c : CallContext}

@[simp] theorem put_now : (t.put name c).now = t.now := by
  rw [put]
  split <;> rfl

@[simp] theorem put_tokens : (t.put name c).tokens = t.tokens := by
  rw [put]
  split <;> rfl

theorem lookup_replaced (contexts : List (String × CallContext)) :
    (contexts.map fun p => if p.1 = name then (name, c) else p).lookup other =
      if other = name then (contexts.lookup name).map fun _ => c else contexts.lookup other := by
  induction contexts with
  | nil => simp
  | cons p contexts ih =>
      obtain ⟨key, held⟩ := p
      rw [List.map_cons]
      by_cases replaced : key = name <;> by_cases asked : other = name
      · subst replaced asked
        simp
      · subst replaced
        have passedOver : (other == key) = false := by simpa using asked
        simpa [List.lookup_cons, passedOver, asked] using ih
      · subst asked
        have passedOver : (other == key) = false := by simpa using Ne.symm replaced
        simpa [List.lookup_cons, passedOver, replaced] using ih
      · simp only [replaced, asked, if_false] at ih ⊢
        rw [List.lookup_cons, List.lookup_cons, ih]

/-- A context that is put under a name is found there, and all others stay where they are. -/
theorem find?_put :
    (t.put name c).find? other = if other = name then some c else t.find? other := by
  rw [put]
  split
  · next known =>
      obtain ⟨before, found⟩ := Option.isSome_iff_exists.mp known
      rw [find?, lookup_replaced, ← find?, ← find?, found, Option.map_some]
  · next unknown =>
      rw [find?, List.lookup_append, ← find?]
      by_cases asked : other = name
      · subst asked
        rw [Option.not_isSome_iff_eq_none] at unknown
        simp [unknown]
      · have passedOver : (other == name) = false := by simpa using asked
        simp [asked, List.lookup_cons, passedOver]

/-- A context has ended if its token is cancelled or its deadline has passed. -/
theorem isEnded_iff :
    t.isEnded c = true ↔ t.tokens.isCancelled c.token = true ∨
    ∃ d, c.deadline = some d ∧ d ≤ t.now := by
  cases deadline : c.deadline <;> cases cancelled : t.tokens.isCancelled c.token <;>
    simp [isEnded, lifetime, CallContext.lifetime, Lifetime.isEnded, passed, deadline, cancelled]

/-- A cancelled token is the reason before a deadline is. -/
theorem reason?_eq_some (ended : t.isEnded c = true) :
    t.reason? c =
      some (if t.tokens.isCancelled c.token = true then .cancelled else .deadlineExceeded) := by
  have cases := isEnded_iff.mp ended
  rw [reason?, if_pos ended]
  cases cancelled : t.tokens.isCancelled c.token with
  | true => simp [lifetime, CallContext.lifetime, Lifetime.error, passed, cancelled]
  | false =>
      obtain ⟨d, deadline, past⟩ := cases.resolve_left (by simp [cancelled])
      simp [lifetime, CallContext.lifetime, Lifetime.error, passed, cancelled, deadline, past]

end ContextTable

/-! ### The table and the chronicle -/

/-- A context is as its lineage says: it holds the token, the forest has the path, and the deadline
is the smallest of those that were set. -/
structure Lineage.Fits (forest : TokenForest) (c : CallContext) (l : Lineage) : Prop where
  token : c.token = l.token
  path : forest.Path l.tokens
  deadline : c.deadline = l.deadlines.min?

/-- A table and a chronicle of the same steps. -/
structure Reflects (t : ContextTable) (ch : Chronicle) : Prop where
  now : t.now = ch.now
  issued : t.tokens.length = ch.issued
  marked : t.tokens.Marked ch.cancels
  known : ∀ name c, t.find? name = some c → ∃ l, ch.lineage? name = some l ∧ l.Fits t.tokens c
  unknown : ∀ name, t.find? name = none → ch.lineage? name = none

section Reflects

variable {t : ContextTable} {ch : Chronicle} {name : String} {c : CallContext} {l : Lineage}

theorem Lineage.Fits.withDeadline {forest : TokenForest} (fits : l.Fits forest c) (moment : Nat) :
    Lineage.Fits forest (c.withDeadline moment) { l with deadlines := moment :: l.deadlines } where
  token := fits.token
  path := fits.path
  deadline := by
    rw [CallContext.withDeadline, List.min?_cons, fits.deadline]
    cases l.deadlines.min? with
    | none => rfl
    | some d => exact congrArg some (Nat.min_comm d moment)

namespace Reflects

theorem start : Reflects {} {} where
  now := rfl
  issued := rfl
  marked := .empty
  known := nofun
  unknown := fun _ _ => rfl

theorem put (reflects : Reflects t ch) (fits : l.Fits t.tokens c) :
    Reflects (t.put name c) (ch.put name l) where
  now := by rw [ContextTable.put_now, reflects.now, Chronicle.put]
  issued := by rw [ContextTable.put_tokens, reflects.issued, Chronicle.put]
  marked := by
    rw [ContextTable.put_tokens]
    exact reflects.marked
  known := by
    intro other d found
    rw [ContextTable.find?_put] at found
    rw [ContextTable.put_tokens, Chronicle.put]
    dsimp only
    split at found
    · next same =>
        cases found
        exact ⟨l, if_pos same, fits⟩
    · next different =>
        rw [if_neg different]
        exact reflects.known other d found
  unknown := by
    intro other found
    rw [ContextTable.find?_put] at found
    rw [Chronicle.put]
    dsimp only
    split at found
    · cases found
    · next different =>
        rw [if_neg different]
        exact reflects.unknown other found

/-- A token more changes nothing for the contexts that are there. -/
theorem addToken {u : Token} (reflects : Reflects t ch)
    (marked : TokenForest.Marked (t.tokens ++ [u]) ch.cancels) :
    Reflects { t with tokens := t.tokens ++ [u] } { ch with issued := ch.issued + 1 } where
  now := reflects.now
  issued := by rw [List.length_append, reflects.issued, List.length_singleton]
  marked := marked
  known := by
    intro other d found
    obtain ⟨m, written, fits⟩ := reflects.known other d found
    exact ⟨m, written, fits.token, fits.path.append _, fits.deadline⟩
  unknown := reflects.unknown

theorem child {parent : String} (reflects : Reflects t ch) (found : t.find? parent = some c)
    (written : ch.lineage? parent = some l) (fits : l.Fits t.tokens c) :
    Reflects (t.step (.child name parent)) (ch.step (.child name parent)) := by
  have early : c.token < t.tokens.length := by
    rw [fits.token]
    exact fits.path.lt_length
  simp only [ContextTable.step, Chronicle.step, found, written, Option.elim_some]
  refine (reflects.addToken (reflects.marked.addChild early)).put
    ⟨reflects.issued, ?_, fits.deadline⟩
  have path := fits.path
  rw [Lineage.tokens, ← fits.token] at path
  rw [← reflects.issued, Lineage.tokens, Lineage.tokens, ← fits.token]
  exact .under List.getElem?_concat_length (path.append _)

theorem cancel (reflects : Reflects t ch) (found : t.find? name = some c)
    (written : ch.lineage? name = some l) (fits : l.Fits t.tokens c) :
    Reflects (t.step (.cancel name)) (ch.step (.cancel name)) := by
  simp only [ContextTable.step, Chronicle.step, found, written, Option.elim_some, fits.token]
  refine ⟨reflects.now, ?_, reflects.marked.cancel fits.path.lt_length, ?_, reflects.unknown⟩
  · rw [TokenForest.length_cancel]
    exact reflects.issued
  · intro other d held
    obtain ⟨m, there, fit⟩ := reflects.known other d held
    exact ⟨m, there, fit.token, (TokenForest.path_cancel_iff reflects.marked.ordered).mpr fit.path,
      fit.deadline⟩

/-- A table and its chronicle stay together in every step. A step about an unknown context is none
to both. -/
theorem step (reflects : Reflects t ch) (step : ContextStep) :
    Reflects (t.step step) (ch.step step) := by
  have unknown : ∀ {name}, t.find? name = none → ch.lineage? name = none := reflects.unknown _
  cases step with
  | create name =>
      refine (reflects.addToken reflects.marked.addRoot).put ⟨reflects.issued, ?_, rfl⟩
      rw [← reflects.issued]
      exact .root List.getElem?_concat_length
  | child name parent =>
      cases found : t.find? parent with
      | none => simpa [ContextTable.step, Chronicle.step, found, unknown found] using reflects
      | some c =>
          obtain ⟨l, written, fits⟩ := reflects.known _ _ found
          exact reflects.child found written fits
  | clone name source =>
      cases found : t.find? source with
      | none => simpa [ContextTable.step, Chronicle.step, found, unknown found] using reflects
      | some c =>
          obtain ⟨l, written, fits⟩ := reflects.known _ _ found
          simpa [ContextTable.step, Chronicle.step, found, written] using reflects.put fits
  | share name source =>
      cases found : t.find? source with
      | none => simpa [ContextTable.step, Chronicle.step, found, unknown found] using reflects
      | some c =>
          obtain ⟨l, written, fits⟩ := reflects.known _ _ found
          have fit : Lineage.Fits t.tokens ⟨c.token, none⟩ { l with deadlines := [] } :=
            ⟨fits.token, fits.path, rfl⟩
          simpa [ContextTable.step, Chronicle.step, found, written] using reflects.put fit
  | deadline name moment =>
      cases found : t.find? name with
      | none => simpa [ContextTable.step, Chronicle.step, found, unknown found] using reflects
      | some c =>
          obtain ⟨l, written, fits⟩ := reflects.known _ _ found
          simpa [ContextTable.step, Chronicle.step, found, written] using
            reflects.put (fits.withDeadline moment)
  | timeout name time =>
      cases found : t.find? name with
      | none => simpa [ContextTable.step, Chronicle.step, found, unknown found] using reflects
      | some c =>
          obtain ⟨l, written, fits⟩ := reflects.known _ _ found
          simpa [ContextTable.step, Chronicle.step, found, written, reflects.now] using
            reflects.put (fits.withDeadline (t.now + time))
  | cancel name =>
      cases found : t.find? name with
      | none => simpa [ContextTable.step, Chronicle.step, found, unknown found] using reflects
      | some c =>
          obtain ⟨l, written, fits⟩ := reflects.known _ _ found
          exact reflects.cancel found written fits
  | advance time =>
      exact ⟨congrArg (· + time) reflects.now, reflects.issued, reflects.marked, reflects.known,
        reflects.unknown⟩

/-- A table and its chronicle belong together after any steps. -/
theorem run (steps : List ContextStep) :
    Reflects (ContextTable.run steps) (Chronicle.run steps) := by
  induction steps using List.reverseRecOn with
  | nil => exact start
  | append_singleton steps s ih =>
      rw [ContextTable.run_concat, Chronicle.run_concat]
      exact ih.step s

end Reflects

/-! ### Endings -/

/-- Cancelling was called on some context that held a token at that time. -/
def CancelCalled (steps : List ContextStep) (token : Nat) : Prop :=
  ∃ before name c, before ++ [.cancel name] <+: steps ∧
    (ContextTable.run before).find? name = some c ∧ c.token = token

theorem cancelCalled_concat {steps : List ContextStep} {s : ContextStep} {token : Nat} :
    CancelCalled (steps ++ [s]) token ↔ CancelCalled steps token ∨
      ∃ name c, s = .cancel name ∧ (ContextTable.run steps).find? name = some c ∧
      c.token = token := by
  constructor
  · rintro ⟨before, name, c, begins, held, same⟩
    rcases List.prefix_concat_iff.mp begins with whole | earlier
    · obtain ⟨rfl, last⟩ := List.append_inj' whole rfl
      cases last
      exact .inr ⟨name, c, rfl, held, same⟩
    · exact .inl ⟨before, name, c, earlier, held, same⟩
  · rintro (⟨before, name, c, begins, held, same⟩ | ⟨name, c, rfl, held, same⟩)
    · exact ⟨before, name, c, begins.trans (List.prefix_append steps [s]), held, same⟩
    · exact ⟨steps, name, c, List.prefix_rfl, held, same⟩

/-- The chronicle has the tokens on whose contexts cancelling was called. -/
theorem mem_cancels_iff (steps : List ContextStep) (token : Nat) :
    token ∈ (Chronicle.run steps).cancels ↔ CancelCalled steps token := by
  induction steps using List.reverseRecOn with
  | nil =>
      refine ⟨fun inside => absurd inside List.not_mem_nil, ?_⟩
      rintro ⟨before, name, c, begins, -⟩
      simp at begins
  | append_singleton steps s ih =>
      have reflects := Reflects.run steps
      rw [cancelCalled_concat, ← ih, Chronicle.run_concat]
      generalize Chronicle.run steps = ch at reflects
      cases s with
      | cancel name =>
          cases held : (ContextTable.run steps).find? name with
          | none => simp [Chronicle.step, reflects.unknown name held, held]
          | some c =>
              obtain ⟨l, written, fits⟩ := reflects.known name c held
              simp [Chronicle.step, written, held, fits.token, or_comm, eq_comm]
      | child _ source | clone _ source | share _ source | deadline source _ | timeout source _ =>
          cases written : ch.lineage? source <;> simp [Chronicle.step, Chronicle.put, written]
      | create _ | advance _ => simp [Chronicle.step, Chronicle.put]

/-- What has ended stays ended, since marks stay and time goes on. -/
theorem Reflects.isEnded_step (reflects : Reflects t ch) (ended : t.isEnded c = true)
    (s : ContextStep) :
    (t.step s).isEnded c = true := by
  have marks : t.tokens.isCancelled c.token = true →
      (t.step s).tokens.isCancelled c.token = true := by
    intro cancelled
    have early : c.token < t.tokens.length := by
      by_contra late
      simp [TokenForest.isCancelled, List.getElem?_eq_none (Nat.not_lt.mp late)] at cancelled
    cases s with
    | create _ =>
        rw [ContextTable.step, ContextTable.put_tokens, TokenForest.addRoot,
          TokenForest.isCancelled_append early]
        exact cancelled
    | child _ source =>
        rw [ContextTable.step]
        split
        · rw [ContextTable.put_tokens, TokenForest.addChild, TokenForest.isCancelled_append early]
          exact cancelled
        · exact cancelled
    | cancel name =>
        rw [ContextTable.step]
        split
        · rw [TokenForest.isCancelled_cancel reflects.marked.ordered
            (List.getElem?_eq_getElem early), cancelled, Bool.true_or, Bool.true_or]
        · exact cancelled
    | clone _ _ | share _ _ | deadline _ _ | timeout _ _ =>
        rw [ContextTable.step]
        split
        · rw [ContextTable.put_tokens]
          exact cancelled
        · exact cancelled
    | advance _ => exact cancelled
  have later : t.now ≤ (t.step s).now := by
    cases s with
    | advance time => exact Nat.le_add_right t.now time
    | create _ => simp [ContextTable.step]
    | child _ _ | clone _ _ | share _ _ | deadline _ _ | timeout _ _ | cancel _ =>
        rw [ContextTable.step]
        split <;> simp
  rw [ContextTable.isEnded_iff] at ended ⊢
  rcases ended with cancelled | ⟨d, deadline, past⟩
  · exact .inl (marks cancelled)
  · exact .inr ⟨d, deadline, Nat.le_trans past later⟩

theorem isEnded_run_append {steps : List ContextStep}
    (ended : (ContextTable.run steps).isEnded c = true) (more : List ContextStep) :
    (ContextTable.run (steps ++ more)).isEnded c = true := by
  induction more using List.reverseRecOn with
  | nil => rwa [List.append_nil]
  | append_singleton more s ih =>
      rw [← List.append_assoc, ContextTable.run_concat]
      exact (Reflects.run (steps ++ more)).isEnded_step ih s

/-- A context stands directly below another or beside it, below the same one. -/
def Lineage.Beside (l m : Lineage) : Prop :=
  l.above = m.tokens ∨ l.above = m.above ∧ l.token ≠ m.token

/-- Neither the context above another nor one beside it has the token of that other in its
lineage. -/
theorem Lineage.Fits.not_mem_of_beside {forest : TokenForest} {m : Lineage}
    (ordered : forest.Ordered) (fits : l.Fits forest c) (beside : l.Beside m) :
    l.token ∉ m.tokens := by
  have apart : l.token ∉ l.above := by
    intro inside
    exact Nat.lt_irrefl _ (fits.path.lt_of_mem ordered _ inside)
  rcases beside with parent | ⟨siblings, different⟩
  · rwa [← parent]
  · rw [Lineage.tokens, ← siblings, List.mem_cons, not_or]
    exact ⟨different, apart⟩

/-- A step that brings the deadline of a context nearer. -/
def ContextStep.Tightens (s : ContextStep) (name : String) : Prop :=
  (∃ moment, s = .deadline name moment) ∨ ∃ time, s = .timeout name time

/-- Tightening puts in the place of a context the same one with a deadline that is no later. -/
theorem ContextTable.step_of_tightens {s : ContextStep} (tightens : s.Tightens name)
    (held : t.find? name = some c) :
    ∃ moment, t.step s = t.put name (c.withDeadline moment) := by
  rcases tightens with ⟨moment, rfl⟩ | ⟨time, rfl⟩
  · exact ⟨moment, by rw [step, held]⟩
  · exact ⟨t.now + time, by rw [step, held]⟩

theorem CallContext.withDeadline_eq (c : CallContext) (moment : Nat) :
    ∃ d, c.withDeadline moment = { c with deadline := some d } ∧ d ≤ moment ∧
      ∀ before, c.deadline = some before → d ≤ before := by
  refine ⟨_, rfl, ?_, ?_⟩
  · split
    · exact Nat.min_le_right _ moment
    · exact Nat.le_refl moment
  · intro before same
    rw [same]
    exact Nat.min_le_left before moment

end Reflects

/-- What a context of a lineage is after some steps, and what further steps make of it. -/
structure Follows (steps : List ContextStep) (name : String) (c : CallContext) (l : Lineage) :
    Prop where
  written : (Chronicle.run steps).lineage? name = some l
  token : l.token = c.token
  /-- The tokens of the lineage lead through the forest to a root. -/
  path : (ContextTable.run steps).tokens.Path l.tokens
  /-- The context has ended if cancelling was called on a context that held one of these tokens, or
  if the smallest deadline of the lineage has passed, and not otherwise. -/
  ended : (ContextTable.run steps).isEnded c = true ↔
    (∃ token ∈ l.tokens, CancelCalled steps token) ∨
      ∃ d, l.deadlines.min? = some d ∧ d ≤ (ContextTable.run steps).now
  /-- The deadline is the reason only if no cancelling is. -/
  reason : (ContextTable.run steps).isEnded c = true →
    ((ContextTable.run steps).reason? c = some .deadlineExceeded ↔
      ¬ ∃ token ∈ l.tokens, CancelCalled steps token)
  stays : (ContextTable.run steps).isEnded c = true →
    ∀ more, (ContextTable.run (steps ++ more)).isEnded c = true
  /-- A new deadline can only bring the end nearer, and touches no other context. -/
  tightened : ∀ s : ContextStep, s.Tightens name → ∃ d,
    (ContextTable.run (steps ++ [s])).find? name = some { c with deadline := some d } ∧
      (∀ before, c.deadline = some before → d ≤ before) ∧
      ((ContextTable.run steps).isEnded c = true →
        (ContextTable.run (steps ++ [s])).isEnded { c with deadline := some d } = true) ∧
      ∀ other c', other ≠ name → (ContextTable.run steps).find? other = some c' →
        (ContextTable.run (steps ++ [s])).find? other = some c' ∧
          (ContextTable.run (steps ++ [s])).isEnded c' = (ContextTable.run steps).isEnded c'
  /-- Cancelling the context touches neither the one above it nor those beside it. -/
  spares : ∀ other m c', (ContextTable.run steps).find? other = some c' →
    (Chronicle.run steps).lineage? other = some m → l.Beside m →
    (ContextTable.run (steps ++ [.cancel name])).find? other = some c' ∧
      (ContextTable.run (steps ++ [.cancel name])).isEnded c' = (ContextTable.run steps).isEnded c'

/-- A context that is held after any steps has a lineage, which decides when it ends. Once ended it
stays so whatever is done; a new deadline touches only this context, and cancelling touches neither
the one above it nor those beside it. -/
theorem ended_iff_lineage (steps : List ContextStep) (name : String) (c : CallContext)
    (held : (ContextTable.run steps).find? name = some c) : ∃ l, Follows steps name c l := by
  have reflects := Reflects.run steps
  obtain ⟨l, written, fits⟩ := reflects.known name c held
  have cancelled : (ContextTable.run steps).tokens.isCancelled c.token = true ↔
      ∃ token ∈ l.tokens, CancelCalled steps token := by
    rw [fits.token, reflects.marked.marks _ _ fits.path]
    simp only [mem_cancels_iff, Lineage.tokens]
  refine ⟨l, {
    written := written
    token := fits.token.symm
    path := fits.path
    ended := ?_
    reason := ?_
    stays := fun ended => isEnded_run_append ended
    tightened := ?_
    spares := ?_ }⟩
  · rw [ContextTable.isEnded_iff, cancelled, fits.deadline]
  · intro ended
    rw [ContextTable.reason?_eq_some ended, ← cancelled]
    split
    · next marked => simp [marked]
    · next unmarked => simp [unmarked]
  · intro s tightens
    obtain ⟨moment, stepped⟩ := ContextTable.step_of_tightens tightens held
    obtain ⟨d, nearer, -, earlier⟩ := c.withDeadline_eq moment
    refine ⟨d, ?_, earlier, ?_, ?_⟩
    · rw [ContextTable.run_concat, stepped, ContextTable.find?_put, if_pos rfl, nearer]
    · intro ended
      have stays := isEnded_run_append ended [s]
      rw [ContextTable.run_concat, stepped] at stays ⊢
      rw [ContextTable.isEnded_iff] at stays ⊢
      rcases stays with marked | ⟨before, deadline, past⟩
      · exact .inl marked
      · exact .inr ⟨d, rfl, Nat.le_trans (earlier before deadline) past⟩
    · intro other c' different there
      rw [ContextTable.run_concat, stepped]
      refine ⟨by rw [ContextTable.find?_put, if_neg different, there], ?_⟩
      rw [Bool.eq_iff_iff, ContextTable.isEnded_iff, ContextTable.isEnded_iff,
        ContextTable.put_tokens, ContextTable.put_now]
  · intro other m c' there writtenOther beside
    obtain ⟨m', written', fitsOther⟩ := reflects.known other c' there
    obtain rfl : m' = m := Option.some.inj (written'.symm.trans writtenOther)
    have spared : l.token ∉ m'.token :: m'.above :=
      fits.not_mem_of_beside reflects.marked.ordered beside
    rw [ContextTable.run_concat, ContextTable.step, held]
    dsimp only
    refine ⟨there, ?_⟩
    rw [Bool.eq_iff_iff, ContextTable.isEnded_iff, ContextTable.isEnded_iff, fits.token,
      fitsOther.token, TokenForest.isCancelled_cancel_iff reflects.marked fitsOther.path,
      or_iff_left spared]

/-- A context with two derived from it, one of which has a deadline and is cancelled. -/
def family : List ContextStep :=
  [.create "parent", .child "first" "parent", .child "second" "parent", .deadline "first" 5,
    .advance 7, .cancel "first"]

/-- The one derived context has ended because it was cancelled, though its deadline has passed too.
The context above it and the one beside it live. -/
theorem ended_iff_lineage_family :
    (ContextTable.run family).find? "first" = some ⟨1, some 5⟩ ∧
      (ContextTable.run family).isEnded ⟨1, some 5⟩ = true ∧
      (ContextTable.run family).reason? ⟨1, some 5⟩ ≠ some .deadlineExceeded ∧
      (ContextTable.run family).isEnded ⟨0, none⟩ = false ∧
      (ContextTable.run family).isEnded ⟨2, none⟩ = false := by
  have held : (ContextTable.run family).find? "first" = some ⟨1, some 5⟩ := by decide
  obtain ⟨l, follows⟩ := ended_iff_lineage family "first" ⟨1, some 5⟩ held
  have cancelled : ∃ token ∈ l.tokens, CancelCalled family token := by
    refine ⟨1, ?_, family.take 5, "first", ⟨1, some 5⟩, List.prefix_rfl, by decide, rfl⟩
    rw [Lineage.tokens, follows.token]
    exact List.mem_cons_self
  have gone := follows.ended.mpr (.inl cancelled)
  exact ⟨held, gone, fun expired => (follows.reason gone).mp expired cancelled,
    by decide, by decide⟩

end FleetBoard

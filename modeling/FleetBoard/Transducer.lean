/-!
# Machines that turn one sequence into another

A transducer reads items one at a time. Each step may put out any number of results, and what has
been read but not yet answered is kept in a state. Feeding a sequence in pieces is the same as
feeding it at once (`feed_append`), which is why decoders built this way do not see where their
input was cut.
-/

namespace FleetBoard

/-- A machine with states `σ` that reads items of `α` and puts out results of `β`. -/
structure Transducer (σ α β : Type) where
  /-- What one item puts out, and the state after it. -/
  step : σ → α → List β × σ
  /-- What the end of the input puts out. -/
  finish : σ → List β

namespace Transducer

variable {σ α β : Type}

/-- One step of a run that gathers its results newest first. -/
def stepOnto (t : Transducer σ α β) : List β × σ → α → List β × σ
  | (out, s), x =>
    match t.step s x with
    | (new, s) => (new.reverse ++ out, s)

/-- What the items put out in order, and the state after them. The results are gathered newest
first, so that long inputs need no deep stack. -/
def feed (t : Transducer σ α β) (s : σ) (items : List α) : List β × σ :=
  match items.foldl t.stepOnto ([], s) with
  | (out, s) => (out.reverse, s)

/-- What the items and then the end of the input put out. -/
def run (t : Transducer σ α β) (s : σ) (items : List α) : List β :=
  match t.feed s items with
  | (out, s) => out ++ t.finish s

private theorem foldl_stepOnto (t : Transducer σ α β) (items : List α) (out : List β) (s : σ) :
    items.foldl t.stepOnto (out, s) =
      ((items.foldl t.stepOnto ([], s)).1 ++ out, (items.foldl t.stepOnto ([], s)).2) := by
  induction items generalizing out s with
  | nil => simp
  | cons x items ih =>
    simp only [List.foldl_cons, stepOnto, List.append_nil]
    rw [ih ((t.step s x).1.reverse ++ out), ih (t.step s x).1.reverse]
    simp

@[simp] theorem feed_nil (t : Transducer σ α β) (s : σ) : t.feed s [] = ([], s) := rfl

@[simp] theorem feed_cons (t : Transducer σ α β) (s : σ) (x : α) (items : List α) :
    t.feed s (x :: items) =
      ((t.step s x).1 ++ (t.feed (t.step s x).2 items).1, (t.feed (t.step s x).2 items).2) := by
  simp only [feed, List.foldl_cons, stepOnto, List.append_nil]
  rw [foldl_stepOnto t items (t.step s x).1.reverse]
  simp

theorem feed_append (t : Transducer σ α β) (s : σ) (xs ys : List α) :
    t.feed s (xs ++ ys) =
      ((t.feed s xs).1 ++ (t.feed (t.feed s xs).2 ys).1, (t.feed (t.feed s xs).2 ys).2) := by
  induction xs generalizing s with
  | nil => simp
  | cons x xs ih => simp [ih, List.append_assoc]

theorem feed_concat (t : Transducer σ α β) (s : σ) (items : List α) (x : α) :
    (t.feed s (items ++ [x])).2 = (t.step (t.feed s items).2 x).2 := by
  rw [feed_append, feed_cons, feed_nil]

/-- Two machines whose related states put out the same on every item, and stay related, put out the
same on every sequence of items. -/
theorem feed_simulates {τ : Type} {t : Transducer σ α β} {u : Transducer τ α β} {R : σ → τ → Prop}
    (simulates : ∀ a b x, R a b → (t.step a x).1 = (u.step b x).1 ∧ R (t.step a x).2 (u.step b x).2)
    (items : List α) {a : σ} {b : τ} (related : R a b) :
    (t.feed a items).1 = (u.feed b items).1 ∧ R (t.feed a items).2 (u.feed b items).2 := by
  induction items generalizing a b with
  | nil => exact ⟨rfl, related⟩
  | cons x items ih =>
    obtain ⟨same, onward⟩ := simulates a b x related
    obtain ⟨sameLater, atEnd⟩ := ih onward
    rw [feed_cons, feed_cons, same, sameLater]
    exact ⟨rfl, atEnd⟩

theorem run_eq (t : Transducer σ α β) (s : σ) (items : List α) :
    t.run s items = (t.feed s items).1 ++ t.finish (t.feed s items).2 := rfl

theorem run_cons (t : Transducer σ α β) (s : σ) (x : α) (items : List α) :
    t.run s (x :: items) = (t.step s x).1 ++ t.run (t.step s x).2 items := by
  rw [run_eq, feed_cons, List.append_assoc, ← run_eq]

theorem run_append (t : Transducer σ α β) (s : σ) (xs ys : List α) :
    t.run s (xs ++ ys) = (t.feed s xs).1 ++ t.run (t.feed s xs).2 ys := by
  rw [run_eq, feed_append, List.append_assoc, ← run_eq]

end Transducer

end FleetBoard

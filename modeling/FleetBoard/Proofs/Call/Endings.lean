import FleetBoard.Call.Lifetime
import Mathlib.Order.MinMax
import Mathlib.Tactic.ByContra

/-!
# How work under a lifetime ends

Work that a call waits for is either done while the call lives, or cut off at the moment at which
the call ends, or it never ends at all. The three cases exclude each other, and each of them is read
off the moment at which the work would be done: `isEnded` says of any moment whether the call still
lives.
-/

namespace FleetBoard

namespace Lifetime

variable {α : Type} {life : Lifetime} {now moment time ending : Nat} {work : Work α}

theorem isEnded_iff :
    life.isEnded moment = true ↔ ∃ ending, life.endsAt = some ending ∧ ending ≤ moment := by
  obtain ⟨cancelledAt, deadline⟩ := life
  cases cancelledAt <;> cases deadline <;> simp [isEnded, endsAt, passed, earlier]

theorem isEnded_of_endsAt (ends : life.endsAt = some ending) :
    life.isEnded moment = true ↔ ending ≤ moment := by
  rw [isEnded_iff, ends]
  simp

/-- A call that has ended stays ended. -/
theorem isEnded_mono {later : Nat} (ended : life.isEnded moment = true) (order : moment ≤ later) :
    life.isEnded later = true := by
  obtain ⟨ending, ends, past⟩ := isEnded_iff.mp ended
  exact isEnded_iff.mpr ⟨ending, ends, Nat.le_trans past order⟩

/-- A call that never ends lives. -/
theorem isEnded_of_unending (unending : life.endsAt = none) (moment : Nat) :
    life.isEnded moment = false := by
  rw [← Bool.not_eq_true, isEnded_iff, unending]
  simp

/-- What is there while the call lives is waited for. -/
theorem await_of_live (lives : life.isEnded (now + time) = false) :
    life.await now (some time) = .ready (now + time) := by
  have alive : life.isEnded now = false := by
    rw [← Bool.not_eq_true] at lives ⊢
    intro ended
    exact lives (isEnded_mono ended (Nat.le_add_right now time))
  rw [await.eq_def, alive]
  cases ends : life.endsAt with
  | none => rfl
  | some ending =>
      have later : ¬ ending ≤ now + time := by
        intro past
        exact absurd ((isEnded_of_endsAt ends).mpr past) (by simp [lives])
      simp [later]

/-- A wait that is not over when the call ends is over at that moment. -/
theorem await_of_ended {wait : Option Nat} (ends : life.endsAt = some ending)
    (slow : ∀ time, wait = some time → life.isEnded (now + time) = true) :
    life.await now wait = .ended (max now ending) := by
  rw [await.eq_def]
  split
  · next ended =>
      have past := (isEnded_of_endsAt ends).mp ended
      rw [Nat.max_eq_left past]
  · next alive =>
      have ahead : now ≤ ending := by
        rw [isEnded_of_endsAt ends] at alive
        omega
      rw [Nat.max_eq_right ahead, ends]
      cases takes : wait with
      | none => rfl
      | some time =>
          have past := (isEnded_of_endsAt ends).mp (slow time takes)
          simp [past]

/-- A call that never ends waits for ever for what never comes. -/
theorem await_of_unending (unending : life.endsAt = none) : life.await now none = .never := by
  rw [await.eq_def, isEnded_of_unending unending, unending]
  rfl

/-- Work that is done while the call lives gives its result. -/
theorem run_of_live (takes : work.takes = some time) (lives : life.isEnded (now + time) = false) :
    life.run now work = some ⟨now + time, work.result⟩ := by
  rw [run, takes, await_of_live lives]

/-- Work that is not done when the call ends gives the reason for which the call ended, at that
moment. -/
theorem run_of_ended (ends : life.endsAt = some ending)
    (slow : ∀ time, work.takes = some time → life.isEnded (now + time) = true) :
    life.run now work = some ⟨max now ending, .error (life.error (max now ending))⟩ := by
  rw [run, await_of_ended ends slow]

/-- Only work that never ends, under a call that never ends, gives no answer. -/
theorem run_eq_none_iff : life.run now work = none ↔ work.takes = none ∧ life.endsAt = none := by
  cases ends : life.endsAt with
  | none =>
      have lives := isEnded_of_unending ends
      cases takes : work.takes with
      | none => simp [run, await_of_unending ends, takes]
      | some time => simp [run_of_live takes (lives (now + time))]
  | some ending =>
      by_cases lives : ∃ time, work.takes = some time ∧ life.isEnded (now + time) = false
      · obtain ⟨time, takes, lives⟩ := lives
        simp [run_of_live takes lives]
      · have slow : ∀ time, work.takes = some time → life.isEnded (now + time) = true := by
          intro time takes
          by_contra alive
          exact lives ⟨time, takes, by simpa using alive⟩
        simp [run_of_ended ends slow]

/-- A call makes nothing up: what it gives is the result of the work. -/
theorem result_of_run {t : Timed (Except EngineError α)} {a : α} (ran : life.run now work = some t)
    (given : t.value = .ok a) : work.result = .ok a := by
  rw [run] at ran
  split at ran
  · cases ran
    exact given
  · cases ran
    cases given
  · cases ran

/-- Nothing is there before it has been asked for. -/
theorem le_of_run {t : Timed (Except EngineError α)} (ran : life.run now work = some t) :
    now ≤ t.moment := by
  by_cases lives : ∃ time, work.takes = some time ∧ life.isEnded (now + time) = false
  · obtain ⟨time, takes, lives⟩ := lives
    rw [run_of_live takes lives] at ran
    cases ran
    exact Nat.le_add_right now time
  · have slow : ∀ time, work.takes = some time → life.isEnded (now + time) = true := by
      intro time takes
      by_contra alive
      exact lives ⟨time, takes, by simpa using alive⟩
    cases ends : life.endsAt with
    | some ending =>
        rw [run_of_ended ends slow] at ran
        cases ran
        exact Nat.le_max_left now ending
    | none =>
        cases takes : work.takes with
        | some time =>
            have past := slow time takes
            rw [isEnded_of_unending ends] at past
            cases past
        | none =>
            rw [run_eq_none_iff.mpr ⟨takes, ends⟩] at ran
            cases ran

end Lifetime

end FleetBoard

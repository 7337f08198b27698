import FleetBoard.Text.Blank
import Mathlib.Data.List.TakeWhile

/-!
# What trimming and splitting leave

`Trims` says what it is to take the characters of a class off both ends of a text: the rest neither
begins nor ends with one of them, and they alone are gone. There is one such rest, and `trimBy`
finds it. A text is split where a character of a class stands, and nowhere else.
-/

namespace FleetBoard.Text

variable {α : Type} {p : α → Bool} {c s : List α}

/-- `s` is `c` without the characters of a class at its ends. -/
structure Trims (p : α → Bool) (c s : List α) : Prop where
  around : ∃ before after, c = before ++ (s ++ after) ∧ (∀ x ∈ before, p x = true) ∧
    ∀ x ∈ after, p x = true
  first : ∀ x ∈ s.head?, p x = false
  last : ∀ x ∈ s.getLast?, p x = false

theorem head?_dropWhile : ∀ x ∈ (s.dropWhile p).head?, p x = false := by
  intro x first
  induction s with
  | nil => cases first
  | cons y s ih =>
      rw [List.dropWhile_cons] at first
      split at first
      · exact ih first
      · next other =>
          cases first
          simpa using other

theorem dropWhile_eq_self (first : ∀ x ∈ s.head?, p x = false) : s.dropWhile p = s := by
  cases s with
  | nil => rfl
  | cons x s => rw [List.dropWhile_cons, first x rfl, if_neg Bool.false_ne_true]

theorem dropTail_append {after : List α} (gone : ∀ x ∈ after, p x = true)
    (last : ∀ x ∈ s.getLast?, p x = false) :
    dropTail p (s ++ after) = s := by
  rw [dropTail, List.reverse_append, List.dropWhile_append_of_pos]
  · rw [dropWhile_eq_self, List.reverse_reverse]
    intro x first
    rw [List.head?_reverse] at first
    exact last x first
  · intro x inside
    exact gone x (List.mem_reverse.mp inside)

theorem dropTail_spec (s : List α) :
    ∃ after, s = dropTail p s ++ after ∧ (∀ x ∈ after, p x = true) ∧
    ∀ x ∈ (dropTail p s).getLast?, p x = false := by
  refine ⟨(s.reverse.takeWhile p).reverse, ?_, ?_, ?_⟩
  · rw [dropTail, ← List.reverse_append, List.takeWhile_append_dropWhile, List.reverse_reverse]
  · intro x inside
    exact List.mem_takeWhile_imp (List.mem_reverse.mp inside)
  · intro x last
    rw [dropTail, List.getLast?_reverse] at last
    exact head?_dropWhile x last

/-- Trimming leaves what there is between the characters of the class. -/
theorem trims_iff : Trims p c s ↔ trimBy p c = s := by
  constructor
  · rintro ⟨⟨before, after, rfl, left, right⟩, first, last⟩
    rw [trimBy, List.dropWhile_append_of_pos left]
    cases s with
    | nil =>
        rw [List.nil_append, List.dropWhile_eq_nil_iff.mpr right]
        rfl
    | cons x s =>
        rw [dropWhile_eq_self (s := x :: s ++ after) first]
        exact dropTail_append right last
  · rintro rfl
    obtain ⟨after, split, right, last⟩ := @dropTail_spec _ p (c.dropWhile p)
    refine ⟨⟨c.takeWhile p, after, ?_, fun x inside => List.mem_takeWhile_imp inside, right⟩, ?_,
      last⟩
    · rw [trimBy, ← split, List.takeWhile_append_dropWhile]
    · intro x first
      refine @head?_dropWhile _ p c x ?_
      rw [split]
      cases kept : dropTail p (c.dropWhile p) with
      | nil => rw [trimBy, kept] at first; cases first
      | cons y rest => rw [trimBy, kept] at first; exact first

theorem forall_getLast?_append {t : List α} {P : α → Prop} (one : ∀ x ∈ s.getLast?, P x)
    (other : ∀ x ∈ t.getLast?, P x) : ∀ x ∈ (s ++ t).getLast?, P x := by
  intro x last
  rw [List.getLast?_append] at last
  cases found : t.getLast? with
  | none =>
      rw [found] at last
      exact one x last
  | some y =>
      rw [found] at last
      exact other x (found.trans last)

theorem trimBy_eq_self (first : ∀ x ∈ s.head?, p x = false) (last : ∀ x ∈ s.getLast?, p x = false) :
    trimBy p s = s :=
  trims_iff.mp ⟨⟨[], [], by simp, List.forall_mem_nil _, List.forall_mem_nil _⟩, first, last⟩

theorem isInfix_trimBy (s : List α) : trimBy p s <:+: s := by
  have trims : Trims p s (trimBy p s) := trims_iff.mpr rfl
  obtain ⟨before, after, split, -, -⟩ := trims.around
  exact ⟨before, after, (List.append_assoc ..).trans split.symm⟩

theorem infix_of_infix_append {before : List α} (filled : c ≠ []) (plain : ∀ x ∈ c, p x = false)
    (gone : ∀ x ∈ before, p x = true) (inside : c <:+: before ++ s) : c <:+: s := by
  induction before with
  | nil => exact inside
  | cons y before ih =>
      obtain begins | later := List.infix_cons_iff.mp inside
      · obtain ⟨x, c, rfl⟩ := List.exists_cons_of_ne_nil filled
        obtain ⟨rfl, -⟩ := List.cons_prefix_cons.mp begins
        cases (gone x List.mem_cons_self).symm.trans (plain x List.mem_cons_self)
      · exact ih (fun x more => gone x (List.mem_cons_of_mem y more)) later

/-- A piece with no character of the class is not cut by trimming. -/
theorem infix_trimBy_iff (filled : c ≠ []) (plain : ∀ x ∈ c, p x = false) :
    c <:+: trimBy p s ↔ c <:+: s := by
  constructor
  · intro inside
    exact inside.trans (isInfix_trimBy s)
  · intro inside
    have trims : Trims p s (trimBy p s) := trims_iff.mpr rfl
    generalize trimBy p s = t at trims
    obtain ⟨⟨before, after, rfl, left, right⟩, -, -⟩ := trims
    have ahead := infix_of_infix_append filled plain left inside
    rw [← List.reverse_infix, List.reverse_append] at ahead
    have others : ∀ x ∈ c.reverse, p x = false :=
      fun x member => plain x (List.mem_reverse.mp member)
    have gone : ∀ x ∈ after.reverse, p x = true :=
      fun x member => right x (List.mem_reverse.mp member)
    exact List.reverse_infix.mp
      (infix_of_infix_append (mt List.reverse_eq_nil_iff.mp filled) others gone ahead)

/-- More characters of the class around a text are gone as well. -/
theorem Trims.surround {before after : List α} (trims : Trims p c s)
    (left : ∀ x ∈ before, p x = true) (right : ∀ x ∈ after, p x = true) :
    Trims p (before ++ (c ++ after)) s := by
  obtain ⟨⟨opening, closing, rfl, opens, closes⟩, first, last⟩ := trims
  refine ⟨⟨before ++ opening, closing ++ after, by simp only [List.append_assoc], ?_, ?_⟩, first,
    last⟩
  · exact List.forall_mem_append.mpr ⟨left, opens⟩
  · exact List.forall_mem_append.mpr ⟨closes, right⟩

theorem trimBy_surround {before after : List α} (left : ∀ x ∈ before, p x = true)
    (right : ∀ x ∈ after, p x = true) (s : List α) :
    trimBy p (before ++ (s ++ after)) = trimBy p s :=
  trims_iff.mp ((trims_iff.mpr rfl).surround left right)

/-- Splitting at the first character of a class cuts the text there. -/
theorem splitFirst_eq_some_iff {before after : List α} : splitFirst p s = some (before, after) ↔
    ∃ x, p x = true ∧ s = before ++ x :: after ∧ ∀ y ∈ before, p y = false := by
  rw [splitFirst]
  constructor
  · intro found
    split at found
    · cases found
    · next x rest stopped =>
        cases found
        refine ⟨x, ?_, ?_, ?_⟩
        · have first := @head?_dropWhile _ (fun c => !p c) s x
          rw [stopped] at first
          simpa using first rfl
        · rw [← stopped, List.takeWhile_append_dropWhile]
        · intro y inside
          simpa using List.mem_takeWhile_imp inside
  · rintro ⟨x, here, rfl, clear⟩
    have others : ∀ y ∈ before, (!p y) = true := by
      intro y inside
      simp [clear y inside]
    rw [List.dropWhile_append_of_pos others, List.takeWhile_append_of_pos others]
    simp [here]

theorem splitFirst_eq_none_iff : splitFirst p s = none ↔ ∀ x ∈ s, p x = false := by
  rw [splitFirst]
  constructor
  · intro missing
    split at missing
    · next stopped =>
        intro x inside
        simpa using List.dropWhile_eq_nil_iff.mp stopped x inside
    · cases missing
  · intro clear
    have others : ∀ x ∈ s, (!p x) = true := by
      intro x inside
      simp [clear x inside]
    rw [List.dropWhile_eq_nil_iff.mpr others]

/-- What stands before the first character of a class is the first piece. -/
theorem splitAll_append_cons {before : List α} {x : α} (here : p x = true)
    (clear : ∀ y ∈ before, p y = false) (after : List α) :
    splitAll p (before ++ x :: after) = before :: splitAll p after := by
  induction before with
  | nil => rw [List.nil_append, splitAll, if_pos here]
  | cons y before ih =>
      rw [List.cons_append, splitAll, if_neg (by simp [clear y List.mem_cons_self]),
        ih fun z inside => clear z (List.mem_cons_of_mem y inside)]

/-- Characters of no class before a text belong to its first piece. -/
theorem exists_splitAll_append {before : List α} (clear : ∀ y ∈ before, p y = false) (s : List α) :
    ∃ first others, splitAll p s = first :: others ∧
    splitAll p (before ++ s) = (before ++ first) :: others := by
  induction before with
  | nil =>
      cases s with
      | nil => exact ⟨[], [], rfl, rfl⟩
      | cons x s =>
          rw [List.nil_append, splitAll]
          split
          · exact ⟨[], _, rfl, rfl⟩
          split
          · exact ⟨_, _, rfl, rfl⟩
          · exact ⟨_, _, rfl, rfl⟩
  | cons y before ih =>
      obtain ⟨first, others, split, joined⟩ :=
        ih fun z inside => clear z (List.mem_cons_of_mem y inside)
      refine ⟨first, others, split, ?_⟩
      rw [List.cons_append, splitAll, if_neg (by simp [clear y List.mem_cons_self]), joined]
      rfl

theorem splitAll_of_clear (clear : ∀ x ∈ s, p x = false) : splitAll p s = [s] := by
  obtain ⟨first, others, alone, joined⟩ := exists_splitAll_append clear []
  cases alone
  rwa [List.append_nil] at joined

end FleetBoard.Text

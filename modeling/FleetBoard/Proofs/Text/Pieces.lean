import FleetBoard.Proofs.Text.Trimming
import Mathlib.Data.List.Infix

/-!
# Pieces between separators

A text is cut into pieces in one way only, if no piece holds the separator (`pieces_iff`).
Characters that are trimmed away and separators do not get in each other's way as long as no
character is both: a piece that is trimmed first and cut afterwards has the same parts, but for the
characters at their ends (`parts_trimBy`).
-/

namespace FleetBoard.Text

/-- The pieces of a text, one separator between any two neighbours. -/
structure Pieces (separator : Char) (s : List Char) (pieces : List (List Char)) : Prop where
  ne_nil : pieces ≠ []
  clear : ∀ piece ∈ pieces, separator ∉ piece
  joined : [separator].intercalate pieces = s

section Cutting

variable {separator : Char} {s : List Char} {pieces : List (List Char)}

theorem Pieces.splitAll_eq (cut : Pieces separator s pieces) :
    splitAll (· == separator) s = pieces := by
  obtain ⟨filled, clear, rfl⟩ := cut
  have others : ∀ piece : List Char, separator ∉ piece → ∀ c ∈ piece, (c == separator) = false := by
    intro piece free c inside
    rw [beq_eq_false_iff_ne]
    rintro rfl
    exact free inside
  induction pieces with
  | nil => exact absurd rfl filled
  | cons piece pieces ih =>
      have apart := others piece (clear piece List.mem_cons_self)
      cases pieces with
      | nil => simpa using splitAll_of_clear apart
      | cons next pieces =>
          rw [List.intercalate_cons_cons, List.append_assoc, List.singleton_append,
            splitAll_append_cons (p := (· == separator)) (beq_self_eq_true separator) apart,
            ih (List.cons_ne_nil next pieces) fun other inside =>
            clear other (List.mem_cons_of_mem piece inside)]

theorem pieces_splitAll (separator : Char) (s : List Char) :
    Pieces separator s (splitAll (· == separator) s) := by
  induction s with
  | nil => exact ⟨List.cons_ne_nil _ _, by simp [splitAll], by simp [splitAll]⟩
  | cons c s ih =>
      obtain ⟨filled, clear, joined⟩ := ih
      by_cases here : c = separator
      · subst here
        obtain ⟨first, others, split⟩ := List.exists_cons_of_ne_nil filled
        rw [splitAll, if_pos (beq_self_eq_true c)]
        refine ⟨List.cons_ne_nil _ _, by simpa using clear, ?_⟩
        rw [split] at joined ⊢
        rw [List.intercalate_cons_cons, joined]
        rfl
      · have apart : ∀ x ∈ [c], (x == separator) = false := by simpa using here
        obtain ⟨first, others, split, more⟩ := exists_splitAll_append apart s
        rw [split] at clear joined
        rw [← List.singleton_append, more]
        refine ⟨List.cons_ne_nil _ _, ?_, ?_⟩
        · simpa [Ne.symm here] using clear
        · cases others <;> simp_all [List.intercalate_cons_cons]

theorem pieces_iff : Pieces separator s pieces ↔ splitAll (· == separator) s = pieces :=
  ⟨Pieces.splitAll_eq, fun cut => cut ▸ pieces_splitAll separator s⟩

end Cutting

section Trimming

variable {α : Type} {p q : α → Bool} {s : List α}

theorem mem_trimBy_iff {x : α} (plain : p x = false) : x ∈ trimBy p s ↔ x ∈ s := by
  have single : ∀ y ∈ [x], p y = false := by simpa using plain
  rw [← List.singleton_infix_iff, infix_trimBy_iff (List.cons_ne_nil x []) single,
    List.singleton_infix_iff]

theorem trimBy_eq_nil_iff : trimBy p s = [] ↔ ∀ x ∈ s, p x = true := by
  constructor
  · intro nothing x inside
    by_contra plain
    have kept := (mem_trimBy_iff (by simpa using plain)).mpr inside
    rw [nothing] at kept
    cases kept
  · intro all
    exact trims_iff.mp ⟨⟨s, [], by simp, all, List.forall_mem_nil _⟩, by simp, by simp⟩

theorem trimBy_trimBy (s : List α) : trimBy p (trimBy p s) = trimBy p s :=
  trimBy_eq_self (trims_iff.mpr rfl).first (trims_iff.mpr rfl).last

/-- Whether a text is trimmed before it is cut makes no difference to its trimmed parts. -/
theorem parts_trimBy (apart : ∀ x, p x = true → q x = false) (s : List α) :
    (splitFirst q (trimBy p s)).map (Prod.map (trimBy p) (trimBy p)) =
      (splitFirst q s).map (Prod.map (trimBy p) (trimBy p)) := by
  have trims : Trims p s (trimBy p s) := trims_iff.mpr rfl
  generalize trimBy p s = t at trims
  obtain ⟨⟨before, after, rfl, left, right⟩, -, -⟩ := trims
  cases found : splitFirst q t with
  | none =>
      have nowhere : splitFirst q (before ++ (t ++ after)) = none := by
        rw [splitFirst_eq_none_iff] at found ⊢
        simp only [List.forall_mem_append]
        exact ⟨fun x inside => apart x (left x inside), found, fun x inside =>
          apart x (right x inside)⟩
      rw [nowhere]
  | some parts =>
      obtain ⟨first, rest⟩ := parts
      obtain ⟨x, here, rfl, clear⟩ := splitFirst_eq_some_iff.mp found
      have there : splitFirst q (before ++ (first ++ x :: rest ++ after)) =
          some (before ++ first, rest ++ after) := by
        refine splitFirst_eq_some_iff.mpr ⟨x, here, by simp, ?_⟩
        exact List.forall_mem_append.mpr ⟨fun y inside => apart y (left y inside), clear⟩
      have leading : trimBy p (before ++ first) = trimBy p first := by
        simpa using trimBy_surround left (List.forall_mem_nil _) first
      have trailing : trimBy p (rest ++ after) = trimBy p rest :=
        trimBy_surround (List.forall_mem_nil _) right rest
      rw [there, Option.map_some, Option.map_some, Prod.map, Prod.map, leading, trailing]

end Trimming

end FleetBoard.Text

import FleetBoard.Proofs.Text.Boundary

/-!
# Decoding pieces of a text

Bytes of a text that are cut between two characters are decoded piece by piece. Where a character is
cut, its first bytes are replaced by one character and each of the others by one more, so a piece
shows more replacement characters than the text has there.
-/

namespace FleetBoard.Text

open Transducer (feed_append feed_cons run_append run_eq)

variable {u v x : List UInt8} {s : List Char}

theorem utf8Lead_of_isContinuation {b : UInt8} (continues : isContinuation b = true) :
    utf8Lead b = .invalid := by
  rw [isContinuation, Bool.and_eq_true, decide_eq_true_eq, decide_eq_true_eq, UInt8.le_iff_toNat_le,
    UInt8.lt_iff_toNat_lt] at continues
  obtain ⟨least, most⟩ := continues
  change 0x80 ≤ b.toNat at least
  change b.toNat < 0xc0 at most
  unfold utf8Lead
  dsimp only
  split_ifs <;> first | rfl | omega

/-- Bytes that continue no character are unreadable, each by itself. -/
theorem feed_continuations (continues : ∀ b ∈ v, isContinuation b = true) :
    utf8Reader.feed none v = (List.replicate v.length none, none) := by
  induction v with
  | nil => rfl
  | cons b v ih =>
      have step : utf8Reader.step none b = ([none], none) := by
        simp only [utf8Reader, utf8Lead_of_isContinuation (continues b List.mem_cons_self)]
      rw [feed_cons, step, ih fun d inside => continues d (List.mem_cons_of_mem b inside)]
      rfl

/-- Where nothing is begun, decoding begins anew. -/
theorem utf8Lossy_append {out : List (Option Char)} (whole : utf8Reader.feed none u = (out, none)) :
    utf8Lossy (u ++ x) = out.map (·.getD replacement) ++ utf8Lossy x := by
  rw [utf8Lossy, run_append, whole, List.map_append]
  rfl

theorem utf8Lossy_continuations (continues : ∀ b ∈ v, isContinuation b = true) :
    utf8Lossy (v ++ x) = List.replicate v.length replacement ++ utf8Lossy x := by
  rw [utf8Lossy_append (feed_continuations continues), List.map_replicate]
  rfl

theorem utf8Lossy_utf8_append (s : List Char) (x : List UInt8) :
    utf8Lossy (utf8 s ++ x) = s ++ utf8Lossy x := by
  rw [utf8Lossy_append (feed_utf8 s), List.map_map]
  exact congrArg (· ++ utf8Lossy x) (List.map_id s)

theorem utf8Lossy_utf8 (s : List Char) : utf8Lossy (utf8 s) = s := by
  have read := utf8Lossy_utf8_append s []
  rwa [List.append_nil, show utf8Lossy [] = [] from rfl, List.append_nil] at read

/-- The beginning of a character that does not go on is replaced. -/
theorem replacement_mem_utf8Lossy {c : Char} (parts : utf8Char c = u ++ v) (begun : u ≠ [])
    (left : v ≠ []) :
    replacement ∈ utf8Lossy u := by
  have whole := feed_utf8Char c
  rw [parts, feed_append, Prod.mk.injEq] at whole
  rw [utf8Lossy, run_eq]
  cases state : (utf8Reader.feed none u).2 with
  | some p => simp [utf8Reader]
  | none =>
      have rest := feed_continuations fun b inside => isContinuation_of_mem_right parts begun inside
      rw [state, rest] at whole
      have inside : none ∈ (utf8Reader.feed none u).1 ++ List.replicate v.length none :=
        List.mem_append_right _ (List.mem_replicate.mpr ⟨by simpa using left, rfl⟩)
      rw [whole.1] at inside
      simp at inside

/-- A byte of ASCII behind others adds no replacement character. -/
theorem count_utf8Lossy_return (x : List UInt8) :
    (utf8Lossy (x ++ [0x0d])).count replacement ≤ (utf8Lossy x).count replacement := by
  rw [utf8Lossy, utf8Lossy, run_append, run_eq _ none x, List.map_append, List.map_append,
    List.count_append, List.count_append]
  refine Nat.add_le_add_left ?_ _
  cases (utf8Reader.feed none x).2 with
  | none => decide
  | some p =>
      change ((utf8Reader.run (some p) [0x0d]).map (·.getD replacement)).count replacement ≤ 1
      rw [run_eq, feed_cons]
      simp only [utf8Reader]
      split
      · split
        · exact List.count_le_length
        · exact Nat.le_refl 1
      · exact Nat.le_refl 1

end FleetBoard.Text

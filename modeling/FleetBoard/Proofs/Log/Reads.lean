import FleetBoard.Log.Relay

/-!
# The reads of a source

A source offers its bytes in pieces, and a relay takes them in reads. The reads are the bytes of the
pieces again, in the same order (`joined_reads`), and none is empty or larger than the buffer of one
read (`length_of_mem_reads`), whatever the sizes of the pieces are.
-/

namespace FleetBoard.Relay

def joined (pieces : List Piece) : List UInt8 := pieces.flatMap (·.bytes)

@[simp] theorem joined_nil : joined [] = [] := rfl

@[simp] theorem joined_cons (p : Piece) (pieces : List Piece) :
    joined (p :: pieces) = p.bytes ++ joined pieces := rfl

@[simp] theorem joined_append (xs ys : List Piece) : joined (xs ++ ys) = joined xs ++ joined ys :=
  List.flatMap_append

@[simp] theorem cut_nil : cut [] = [] := by
  rw [cut, dif_pos rfl]

theorem cut_of_ne_nil {bytes : List UInt8} (filled : bytes ≠ []) :
    cut bytes = bytes.take readSize :: cut (bytes.drop readSize) := by
  rw [cut, dif_neg filled]

/-- Cutting bytes into reads loses none of them. -/
theorem flatten_cut (bytes : List UInt8) : (cut bytes).flatten = bytes := by
  induction bytes using cut.induct with
  | case1 => rw [cut_nil, List.flatten_nil]
  | case2 bytes filled ih => rw [cut_of_ne_nil filled, List.flatten_cons, ih, List.take_append_drop]

theorem length_of_mem_cut {bytes chunk : List UInt8} (member : chunk ∈ cut bytes) :
    1 ≤ chunk.length ∧ chunk.length ≤ readSize := by
  induction bytes using cut.induct with
  | case1 =>
      rw [cut_nil] at member
      exact absurd member List.not_mem_nil
  | case2 bytes filled ih =>
      rw [cut_of_ne_nil filled] at member
      cases List.mem_cons.mp member with
      | inl first =>
          have long : 0 < bytes.length := List.length_pos_iff.mpr filled
          subst first
          simp only [List.length_take, readSize]
          omega
      | inr later => exact ih later

/-- Only the first read of a piece is waited for; all of them together are the piece. -/
theorem joined_readsOfPiece (wait : Nat) (bytes : List UInt8) :
    joined (readsOfPiece wait bytes) = bytes := by
  have whole := flatten_cut bytes
  unfold readsOfPiece
  cases chunks : cut bytes with
  | nil => simpa [chunks] using whole
  | cons first more =>
      rw [chunks, List.flatten_cons] at whole
      simpa [joined, List.flatMap_map] using whole

theorem length_of_mem_readsOfPiece {wait : Nat} {bytes : List UInt8} {r : Piece}
    (member : r ∈ readsOfPiece wait bytes) :
    1 ≤ r.bytes.length ∧ r.bytes.length ≤ readSize := by
  have inside : r.bytes ∈ cut bytes := by
    unfold readsOfPiece at member
    cases chunks : cut bytes with
    | nil => simp [chunks] at member
    | cons first more =>
        simp only [chunks, List.mem_cons, List.mem_map] at member
        obtain rfl | ⟨chunk, later, rfl⟩ := member
        · exact List.mem_cons_self
        · exact List.mem_cons_of_mem _ later
  exact length_of_mem_cut inside

/-- An empty piece only makes the next one come later. -/
theorem reads_cons_empty (delay : Nat) (p : Piece) (pieces : List Piece)
    (empty : readsOfPiece (delay + p.wait) p.bytes = []) :
    reads delay (p :: pieces) = reads (delay + p.wait) pieces := by
  rw [reads, empty]

theorem reads_cons (delay : Nat) (p : Piece) (pieces : List Piece)
    (filled : readsOfPiece (delay + p.wait) p.bytes ≠ []) :
    reads delay (p :: pieces) =
      (readsOfPiece (delay + p.wait) p.bytes ++ (reads 0 pieces).1, (reads 0 pieces).2) := by
  rw [reads]
  cases made : readsOfPiece (delay + p.wait) p.bytes with
  | nil => exact absurd made filled
  | cons r more => rfl

/-- The reads of a source are its bytes, none lost, repeated, changed or moved. -/
theorem joined_reads (delay : Nat) (pieces : List Piece) :
    joined (reads delay pieces).1 = joined pieces := by
  induction pieces generalizing delay with
  | nil => rfl
  | cons p pieces ih =>
      have own := joined_readsOfPiece (delay + p.wait) p.bytes
      by_cases empty : readsOfPiece (delay + p.wait) p.bytes = []
      · rw [empty, joined_nil] at own
        rw [reads_cons_empty delay p pieces empty, ih, joined_cons, ← own, List.nil_append]
      · rw [reads_cons delay p pieces empty, joined_append, own, ih, joined_cons]

theorem length_of_mem_reads {delay : Nat} {pieces : List Piece} {r : Piece}
    (member : r ∈ (reads delay pieces).1) :
    1 ≤ r.bytes.length ∧ r.bytes.length ≤ readSize := by
  induction pieces generalizing delay with
  | nil => exact absurd member List.not_mem_nil
  | cons p pieces ih =>
      by_cases empty : readsOfPiece (delay + p.wait) p.bytes = []
      · rw [reads_cons_empty delay p pieces empty] at member
        exact ih member
      · rw [reads_cons delay p pieces empty] at member
        cases List.mem_append.mp member with
        | inl own => exact length_of_mem_readsOfPiece own
        | inr later => exact ih later

end FleetBoard.Relay

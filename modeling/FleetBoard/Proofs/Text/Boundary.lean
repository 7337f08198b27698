import FleetBoard.Proofs.Text.Utf8

/-!
# Where the bytes of a text can be cut

The first byte of a character tells itself apart from the bytes that continue the character. So a
position in the bytes of a text is between two characters just if no continuing byte stands there,
and every other position is inside exactly one character.
-/

namespace FleetBoard.Text

def isContinuation (b : UInt8) : Bool := 0x80 ≤ b && b < 0xc0

/-- A position at which the bytes of a text can be cut: the first byte of a character, or the
end. -/
def IsBoundary (s : List Char) (e : Nat) : Prop :=
  e = (utf8 s).length ∨ ∃ b, (utf8 s)[e]? = some b ∧ isContinuation b = false

theorem isContinuation_toUInt8 {n : Nat} (small : n < 256) :
    isContinuation n.toUInt8 = decide (0x80 ≤ n ∧ n < 0xc0) := by
  have value := toNat_toUInt8 small
  rw [isContinuation, Bool.decide_and]
  congr 1
  · rw [decide_eq_decide, UInt8.le_iff_toNat_le, value]
    rfl
  · rw [decide_eq_decide, UInt8.lt_iff_toNat_lt, value]
    rfl

/-- A character has a first byte, and the others continue it. -/
theorem utf8Char_eq_cons (c : Char) : ∃ b more, utf8Char c = b :: more ∧ isContinuation b = false ∧
    ∀ x ∈ more, isContinuation x = true := by
  have ranges := toNat_ranges c
  have first {n : Nat} (small : n < 256) (other : n < 0x80 ∨ 0xc0 ≤ n) :
      isContinuation n.toUInt8 = false := by
    rw [isContinuation_toUInt8 small, decide_eq_false_iff_not]
    omega
  have later (n : Nat) : isContinuation (0x80 + n % 0x40).toUInt8 = true := by
    rw [isContinuation_toUInt8 (by omega), decide_eq_true_eq]
    omega
  have one (n : Nat) : ∀ x ∈ [(0x80 + n % 0x40).toUInt8], isContinuation x = true :=
    List.forall_mem_singleton.mpr (later n)
  rw [utf8Char]
  split
  · exact ⟨_, [], rfl, first (by omega) (by omega), List.forall_mem_nil _⟩
  split
  · exact ⟨_, _, rfl, first (by omega) (by omega), one _⟩
  split
  · exact ⟨_, _, rfl, first (by omega) (by omega), List.forall_mem_cons.mpr ⟨later _, one _⟩⟩
  · exact ⟨_, _, rfl, first (by omega) (by omega),
      List.forall_mem_cons.mpr ⟨later _, List.forall_mem_cons.mpr ⟨later _, one _⟩⟩⟩

theorem length_utf8Char (c : Char) : (utf8Char c).length = c.utf8Size := by
  have value : c.toNat = c.val.toNat := rfl
  rw [utf8Char, Char.utf8Size]
  simp only [UInt32.le_iff_toNat_le, value]
  change _ = if c.val.toNat ≤ 0x7f then 1 else if c.val.toNat ≤ 0x7ff then 2
    else if c.val.toNat ≤ 0xffff then 3 else 4
  split_ifs <;> first | rfl | omega

/-- What is left of a character behind its first byte continues it. -/
theorem isContinuation_of_mem_right {c : Char} {u v : List UInt8} (parts : utf8Char c = u ++ v)
    (begun : u ≠ []) {b : UInt8} (inside : b ∈ v) : isContinuation b = true := by
  obtain ⟨first, more, bytes, -, later⟩ := utf8Char_eq_cons c
  cases u with
  | nil => exact absurd rfl begun
  | cons x u =>
      rw [bytes, List.cons_append, List.cons.injEq] at parts
      exact later b (parts.2 ▸ List.mem_append_right u inside)

/-- A position in the bytes of a text is between two characters or inside one. -/
theorem between_or_inside (s : List Char) {e : Nat} (within : e ≤ (utf8 s).length) :
    (∃ a b, s = a ++ b ∧ (utf8 a).length = e) ∨
      ∃ a c b u v, s = a ++ c :: b ∧ utf8Char c = u ++ v ∧ u ≠ [] ∧ v ≠ [] ∧
        (utf8 a).length + u.length = e := by
  induction s generalizing e with
  | nil => exact .inl ⟨[], [], rfl, (Nat.le_zero.mp within).symm⟩
  | cons c s ih =>
      rw [utf8_cons, List.length_append] at within
      by_cases start : e = 0
      · exact .inl ⟨[], c :: s, rfl, start.symm⟩
      by_cases early : e < (utf8Char c).length
      · refine .inr ⟨[], c, s, (utf8Char c).take e, (utf8Char c).drop e, rfl,
          (List.take_append_drop e _).symm, ?_, ?_, ?_⟩
        · rw [← List.length_pos_iff, List.length_take]
          omega
        · rw [← List.length_pos_iff, List.length_drop]
          omega
        · rw [List.length_take, Nat.min_eq_left (Nat.le_of_lt early)]
          exact Nat.zero_add e
      · have onward := @ih (e - (utf8Char c).length) (by omega)
        rcases onward with ⟨a, b, rfl, position⟩
          | ⟨a, d, b, u, v, rfl, parts, begun, left, position⟩
        · refine .inl ⟨c :: a, b, rfl, ?_⟩
          rw [utf8_cons, List.length_append]
          omega
        · refine .inr ⟨c :: a, d, b, u, v, rfl, parts, begun, left, ?_⟩
          rw [utf8_cons, List.length_append]
          omega

/-- The bytes of a text can be cut where one of its characters ends, and nowhere else. -/
theorem isBoundary_iff {s : List Char} {e : Nat} :
    IsBoundary s e ↔ ∃ a b, s = a ++ b ∧ (utf8 a).length = e := by
  constructor
  · intro boundary
    have within : e ≤ (utf8 s).length := by
      rcases boundary with rfl | ⟨b, there, -⟩
      · exact Nat.le_refl _
      · exact Nat.le_of_lt (List.getElem?_eq_some_iff.mp there).1
    rcases between_or_inside s within with between | ⟨a, c, b, u, v, rfl, parts, begun, left, rfl⟩
    · exact between
    exfalso
    have bytes : utf8 (a ++ c :: b) = (utf8 a ++ u) ++ (v ++ utf8 b) := by
      rw [utf8_append, utf8_cons, parts]
      simp only [List.append_assoc]
    have position : (utf8 a).length + u.length = (utf8 a ++ u).length := List.length_append.symm
    rw [IsBoundary, bytes, position, List.getElem?_append_right (Nat.le_refl _), Nat.sub_self]
      at boundary
    cases v with
    | nil => exact left rfl
    | cons x v =>
        rcases boundary with atEnd | ⟨y, there, first⟩
        · simp at atEnd
        · cases there
          rw [isContinuation_of_mem_right parts begun List.mem_cons_self] at first
          cases first
  · rintro ⟨a, b, rfl, rfl⟩
    cases b with
    | nil => exact .inl (by rw [List.append_nil])
    | cons c b =>
        obtain ⟨first, more, bytes, start, -⟩ := utf8Char_eq_cons c
        refine .inr ⟨first, ?_, start⟩
        rw [utf8_append, utf8_cons, bytes, List.getElem?_append_right (Nat.le_refl _), Nat.sub_self]
        rfl

/-- Texts with the same bytes are the same. -/
theorem utf8_injective {s t : List Char} (same : utf8 s = utf8 t) : s = t := by
  have read := utf8Strict?_utf8 s
  rw [same, utf8Strict?_utf8] at read
  exact (Option.some.inj read).symm

end FleetBoard.Text

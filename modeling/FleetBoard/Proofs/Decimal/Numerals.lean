import FleetBoard.Decimal.Reading

/-!
# Whole numbers in writing

A whole number is a run of digits with at most one sign before it. The readers accept these texts
and no others, within their bounds.
-/

namespace FleetBoard.Decimal

/-- A whole number in writing: one or more digits, and perhaps a plus sign before them. -/
def Numeral (text : List Char) (n : Nat) : Prop :=
  ∃ digits, digits ≠ [] ∧ (∀ c ∈ digits, c.isDigit = true) ∧ ofDigits digits = n ∧
    (text = digits ∨ text = '+' :: digits)

variable {s : List Char} {n limit : Nat}

theorem readNat?_eq_some_iff :
    readNat? s = some n ↔ s ≠ [] ∧ (∀ c ∈ s, c.isDigit = true) ∧ ofDigits s = n := by
  have noRun : (s.isEmpty || !s.all Char.isDigit) = true ↔
      ¬ (s ≠ [] ∧ ∀ c ∈ s, c.isDigit = true) := by
    simp [Classical.or_iff_not_imp_left]
  rw [readNat?]
  split
  · next bad =>
      simp only [reduceCtorEq, false_iff]
      rintro ⟨filled, digits, -⟩
      exact noRun.mp bad ⟨filled, digits⟩
  · next good =>
      obtain ⟨filled, digits⟩ := Classical.not_not.mp (mt noRun.mpr good)
      rw [Option.some_inj]
      exact ⟨fun value => ⟨filled, digits, value⟩, fun ⟨_, _, value⟩ => value⟩

/-- Digits hold no plus sign, so it is clear which sign is the one before them. -/
theorem dropPlus_of_digits (digits : ∀ c ∈ s, c.isDigit = true) : dropPlus s = s := by
  rw [dropPlus.eq_def]
  split
  · exact absurd (digits '+' List.mem_cons_self) (by decide)
  · rfl

theorem numeral_iff : Numeral s n ↔ readNat? (dropPlus s) = some n := by
  rw [readNat?_eq_some_iff]
  constructor
  · rintro ⟨digits, filled, all, value, rfl | rfl⟩
    · rw [dropPlus_of_digits all]
      exact ⟨filled, all, value⟩
    · exact ⟨filled, all, value⟩
  · rintro ⟨filled, all, value⟩
    refine ⟨dropPlus s, filled, all, value, ?_⟩
    rw [dropPlus.eq_def]
    split
    · exact .inr rfl
    · exact .inl rfl

theorem readUpTo?_eq_some_iff : readUpTo? limit s = some n ↔ Numeral s n ∧ n ≤ limit := by
  rw [numeral_iff, readUpTo?]
  cases readNat? (dropPlus s) with
  | none => simp
  | some m =>
      dsimp only
      split <;> grind

/-! ### Signs -/

/-- A whole number with at most one sign before it, however large it is. -/
inductive Signed : List Char → Int → Prop
  | plain {s : List Char} {n : Nat} (number : Numeral s n) : Signed s n
  | minus {digits : List Char} (filled : digits ≠ []) (all : ∀ c ∈ digits, c.isDigit = true) :
      Signed ('-' :: digits) (-(ofDigits digits : Int))

def signed? : List Char → Option Int
  | '-' :: digits => (readNat? digits).map fun n : Nat => -(n : Int)
  | s => (readNat? (dropPlus s)).map fun n : Nat => (n : Int)

theorem Numeral.no_minus (number : Numeral ('-' :: s) n) : False := by
  obtain ⟨digits, -, all, -, rfl | same⟩ := number
  · cases all '-' List.mem_cons_self
  · cases same

variable {i : Int}

theorem signed?_eq_some_iff : signed? s = some i ↔ Signed s i := by
  rw [signed?.eq_def]
  constructor
  · split
    · intro read
      obtain ⟨k, found, rfl⟩ := Option.map_eq_some_iff.mp read
      obtain ⟨filled, all, rfl⟩ := readNat?_eq_some_iff.mp found
      exact .minus filled all
    · intro read
      obtain ⟨k, found, rfl⟩ := Option.map_eq_some_iff.mp read
      exact .plain (numeral_iff.mpr found)
  · rintro (⟨number⟩ | ⟨filled, all⟩)
    · split
      · exact number.no_minus.elim
      · rw [numeral_iff.mp number, Option.map_some]
    · exact Option.map_eq_some_iff.mpr ⟨_, readNat?_eq_some_iff.mpr ⟨filled, all, rfl⟩, rfl⟩

theorem readSigned?_eq (s : List Char) :
    readSigned? s =
      (signed? s).bind fun i => if minSigned ≤ i ∧ i ≤ maxSigned then some i else none := by
  fun_cases signed? s with
  | case1 digits => cases read : readNat? digits <;> simp [readSigned?, read]
  | case2 s other => cases read : readNat? (dropPlus s) <;> simp [readSigned?, read]

theorem readSigned?_eq_some_iff :
    readSigned? s = some i ↔ Signed s i ∧ minSigned ≤ i ∧ i ≤ maxSigned := by
  rw [readSigned?_eq, Option.bind_eq_some_iff]
  simp only [signed?_eq_some_iff]
  constructor
  · rintro ⟨j, number, within⟩
    split at within
    · next bounds =>
        cases within
        exact ⟨number, bounds⟩
    · cases within
  · rintro ⟨number, bounds⟩
    exact ⟨i, number, if_pos bounds⟩

end FleetBoard.Decimal

import FleetBoard.Proofs.Decimal.Doubles
import FleetBoard.Proofs.Decimal.Fractions
import FleetBoard.Time.Span

/-!
# Lengths of time in writing

A length is written as pairs of a number and a unit, one after another with nothing between them.
The reader accepts these texts and no others, up to its bound, and no text is a sequence of pairs in
two ways.

The reader is a loop that takes one pair off the text in each turn. The loop as it is programmed has
no measure: `Scan` counts its turns, and each of them takes a character at least.
-/

namespace FleetBoard.Time.Span

open Decimal

/-- The units and the nanoseconds in each of them. -/
def units : List (List Char × Float) :=
  [(['n', 's'], 1), (['u', 's'], 1e3), (['µ', 's'], 1e3), (['m', 's'], 1e6), (['s'], 1e9),
    (['m'], 60e9), (['h'], 3600e9)]

/-- A number and the unit after it. -/
@[ext]
structure Pair where
  number : List Char
  /-- The digits before the point. -/
  whole : List Char
  /-- The digits after the point. -/
  fraction : List Char
  unit : List Char
  /-- The nanoseconds of the unit. -/
  scale : Float
  form : Fixed whole fraction number
  known : (unit, scale) ∈ units

def Pair.text (p : Pair) : List Char := p.number ++ p.unit

def Pair.nanos (p : Pair) : Float := toFloat (p.whole ++ p.fraction) (-p.fraction.length) * p.scale

/-- Pairs with nothing before, between or after them. -/
def written (pairs : List Pair) : List Char := pairs.flatMap Pair.text

/-- The pairs are added in the order in which they stand, since sums of doubles are rounded. -/
def addTo (sum : Float) (pairs : List Pair) : Float := pairs.foldl (fun sum p => sum + p.nanos) sum

variable {s rest number : List Char} {sum sum' x : Float} {pairs others : List Pair}

/-! ### Numbers and units -/

theorem scale?_eq_some_iff {unit : List Char} : scale? unit = some x ↔ (unit, x) ∈ units := by
  constructor
  · intro found
    rw [scale?] at found
    split_ifs at found with nanos micros millis seconds minutes hours <;> cases found
    · simp [units, nanos]
    · rcases micros with same | same <;> simp [units, same]
    · simp [units, millis]
    · simp [units, seconds]
    · simp [units, minutes]
    · simp [units, hours]
  · intro known
    simp only [units, List.mem_cons, Prod.mk.injEq, List.not_mem_nil, or_false] at known
    rcases known with ⟨rfl, rfl⟩ | ⟨rfl, rfl⟩ | ⟨rfl, rfl⟩ | ⟨rfl, rfl⟩ | ⟨rfl, rfl⟩ | ⟨rfl, rfl⟩
      | ⟨rfl, rfl⟩ <;> rfl

theorem isNumberChar_of_fixed {whole fraction : List Char} (form : Fixed whole fraction number) :
    ∀ c ∈ number, isNumberChar c = true := by
  intro c inside
  rw [isNumberChar, Bool.or_eq_true, beq_iff_eq]
  exact form.chars c inside

theorem splitDecimal?_of_fixed {whole fraction : List Char} (form : Fixed whole fraction number) :
    splitDecimal? number = some (whole, fraction, 0) :=
  splitDecimal?_eq_some_iff.mpr ⟨number, [], (List.append_nil number).symm, form, .none⟩

/-- Among digits and points no exponent begins. -/
theorem readUnsignedFloat?_of_run (run : ∀ c ∈ number, isNumberChar c = true) :
    readUnsignedFloat? number = some x ↔
      ∃ whole fraction, Fixed whole fraction number ∧
      x = toFloat (whole ++ fraction) (-fraction.length) := by
  rw [readUnsignedFloat?_eq_some_iff]
  constructor
  · rintro ⟨whole, fraction, exponent, front, rest, rfl, form, last, rfl⟩
    cases last with
    | none =>
        rw [List.append_nil, Int.zero_sub]
        exact ⟨whole, fraction, form, rfl⟩
    | some letter _ =>
        have inside := run _ (List.mem_append_right front List.mem_cons_self)
        rcases letter with rfl | rfl <;> cases inside
  · rintro ⟨whole, fraction, form, rfl⟩
    refine ⟨whole, fraction, 0, number, [], (List.append_nil number).symm, form, .none, ?_⟩
    rw [Int.zero_sub]

theorem isNumberChar_of_unit :
    ∀ unit ∈ units.map Prod.fst, unit ≠ [] ∧ ∀ c ∈ unit, isNumberChar c = false := by
  simp [units, isNumberChar]

theorem head_of_run {P : Char → Prop} {front : List Char} (filled : front ≠ [])
    (run : ∀ c ∈ front, P c) (rest : List Char) : ∀ c ∈ (front ++ rest).head?, P c := by
  intro c here
  rw [List.head?_append_of_ne_nil _ filled] at here
  exact run c (List.mem_of_mem_head? here)

namespace Pair

theorem number_run (p : Pair) : ∀ c ∈ p.number, isNumberChar c = true :=
  isNumberChar_of_fixed p.form

theorem unit_ne_nil (p : Pair) : p.unit ≠ [] :=
  (isNumberChar_of_unit _ (List.mem_map_of_mem p.known)).1

theorem unit_run (p : Pair) : ∀ c ∈ p.unit, isNumberChar c = false :=
  (isNumberChar_of_unit _ (List.mem_map_of_mem p.known)).2

theorem text_ne_nil (p : Pair) : p.text ≠ [] := by
  rw [text]
  exact List.append_ne_nil_of_left_ne_nil p.form.ne_nil _

theorem head_text (p : Pair) (rest : List Char) :
    ∀ c ∈ (p.text ++ rest).head?, isNumberChar c = true := by
  rw [text, List.append_assoc]
  exact head_of_run p.form.ne_nil p.number_run _

/-- What a text is cut into that begins with a pair and may go on with another. -/
theorem cut_text (p : Pair) (next : ∀ c ∈ rest.head?, isNumberChar c = true) :
    ((p.text ++ rest).takeWhile isNumberChar = p.number ∧
      (p.text ++ rest).dropWhile isNumberChar = p.unit ++ rest) ∧
      (p.unit ++ rest).takeWhile (fun c => !isNumberChar c) = p.unit ∧
      (p.unit ++ rest).dropWhile (fun c => !isNumberChar c) = rest := by
  have stops : ∀ c ∈ (p.unit ++ rest).head?, isNumberChar c = false :=
    head_of_run p.unit_ne_nil p.unit_run rest
  rw [text, List.append_assoc]
  refine ⟨span_append p.number_run stops, span_append ?_ ?_⟩
  · exact fun c inside => by rw [p.unit_run c inside, Bool.not_false]
  · exact fun c here => by rw [next c here, Bool.not_true]

/-- What a pair says is clear from its number and its unit. -/
theorem eq_of_text {p q : Pair} (number : p.number = q.number) (unit : p.unit = q.unit) :
    p = q := by
  have parts := splitDecimal?_of_fixed p.form
  have scale := scale?_eq_some_iff.mpr p.known
  rw [number, splitDecimal?_of_fixed q.form] at parts
  rw [unit, scale?_eq_some_iff.mpr q.known] at scale
  simp only [Option.some.injEq, Prod.mk.injEq] at parts scale
  exact Pair.ext number parts.1.symm parts.2.1.symm unit scale.symm

end Pair

/-! ### The loop -/

/-- One turn: the sum with the pair at the start of the text, and the text after that pair. -/
def turn? (sum : Float) (s : List Char) : Option (Float × List Char) :=
  let afterNumber := s.dropWhile isNumberChar
  match readUnsignedFloat? (s.takeWhile isNumberChar),
    scale? (afterNumber.takeWhile fun c => !isNumberChar c) with
  | some x, some scale => some (sum + x * scale, afterNumber.dropWhile fun c => !isNumberChar c)
  | _, _ => none

/-- The turns that the loop takes until the text is empty or a turn fails, and what it answers
then. -/
inductive Scan : Float → List Char → Nat → Option Float → Prop
  | done (sum : Float) : Scan sum [] 0 (some sum)
  | fails {sum : Float} {s : List Char} (more : s ≠ []) (failed : turn? sum s = none) :
      Scan sum s 1 none
  | turns {sum sum' : Float} {s rest : List Char} {turns : Nat} {answer : Option Float}
      (more : s ≠ []) (taken : turn? sum s = some (sum', rest))
      (after : Scan sum' rest turns answer) : Scan sum s (turns + 1) answer

/-- A turn takes one pair and no more. -/
theorem turn?_eq_some_iff : turn? sum s = some (sum', rest) ↔
    ∃ p : Pair, s = p.text ++ rest ∧ (∀ c ∈ rest.head?, isNumberChar c = true) ∧
    sum' = sum + p.nanos := by
  rw [turn?]
  constructor
  · intro taken
    split at taken
    · next x scale read known =>
        cases taken
        obtain ⟨whole, fraction, form, rfl⟩ :=
          (readUnsignedFloat?_of_run fun c inside => List.mem_takeWhile_imp inside).mp read
        refine ⟨⟨_, whole, fraction, _, scale, form, scale?_eq_some_iff.mp known⟩, ?_, ?_, rfl⟩
        · rw [Pair.text, List.append_assoc, List.takeWhile_append_dropWhile,
            List.takeWhile_append_dropWhile]
        · intro c here
          have stops :=
            List.head?_dropWhile_not (fun c => !isNumberChar c) (s.dropWhile isNumberChar)
          rw [Option.mem_def.mp here] at stops
          simpa using stops
    · cases taken
  · rintro ⟨p, rfl, next, rfl⟩
    obtain ⟨⟨run, after⟩, run', after'⟩ := p.cut_text next
    have read := (readUnsignedFloat?_of_run p.number_run).mpr ⟨p.whole, p.fraction, p.form, rfl⟩
    rw [run, after, run', after', read, scale?_eq_some_iff.mpr p.known]
    rfl

/-- Each turn takes a character at least. -/
theorem turn?_takes (taken : turn? sum s = some (sum', rest)) :
    ∃ front, front ≠ [] ∧ s = front ++ rest := by
  obtain ⟨p, same, -, -⟩ := turn?_eq_some_iff.mp taken
  exact ⟨p.text, p.text_ne_nil, same⟩

theorem length_lt_of_turn? (taken : turn? sum s = some (sum', rest)) : rest.length < s.length := by
  obtain ⟨front, filled, rfl⟩ := turn?_takes taken
  rw [List.length_append]
  have := List.length_pos_iff.mpr filled
  omega

/-- The check that the rest is shorter never fails where the turn goes well. -/
theorem sumPairs_eq (more : s ≠ []) (sum : Float) :
    sumPairs sum s = (turn? sum s).bind fun next => sumPairs next.1 next.2 := by
  have shorter := @length_lt_of_turn? s
    ((s.dropWhile isNumberChar).dropWhile fun c => !isNumberChar c) sum
  rw [sumPairs, if_neg (mt List.isEmpty_iff.mp more)]
  simp only [turn?] at shorter ⊢
  generalize readUnsignedFloat? (s.takeWhile isNumberChar) = read at shorter ⊢
  generalize scale? ((s.dropWhile isNumberChar).takeWhile fun c => !isNumberChar c) = known
    at shorter ⊢
  cases read with
  | none => split <;> rfl
  | some x =>
      cases known with
      | none => split <;> rfl
      | some scale =>
          rw [dif_pos (shorter rfl)]
          rfl

theorem sumPairs_nil (sum : Float) : sumPairs sum [] = some sum := by
  rw [sumPairs]
  rfl

/-- The loop ends, after no more turns than there are characters, and the reader gives its
answer. -/
theorem scan_sumPairs (sum : Float) (s : List Char) :
    ∃ turns ≤ s.length, Scan sum s turns (sumPairs sum s) := by
  induction size : s.length using Nat.strong_induction_on generalizing sum s with
  | _ size ih =>
      subst size
      cases s with
      | nil => exact ⟨0, Nat.zero_le _, by rw [sumPairs_nil]; exact .done sum⟩
      | cons c s =>
          have more : c :: s ≠ [] := List.cons_ne_nil c s
          rw [sumPairs_eq more]
          cases taken : turn? sum (c :: s) with
          | none => exact ⟨1, Nat.succ_le_succ (Nat.zero_le _), .fails more taken⟩
          | some next =>
              have shorter := length_lt_of_turn? taken
              obtain ⟨turns, few, scan⟩ := ih next.2.length shorter next.1 next.2 rfl
              exact ⟨turns + 1, Nat.lt_of_le_of_lt few shorter, .turns more taken scan⟩

/-! ### Pairs -/

theorem written_cons (p : Pair) (pairs : List Pair) :
    written (p :: pairs) = p.text ++ written pairs :=
  rfl

theorem written_ne_nil (p : Pair) (pairs : List Pair) : written (p :: pairs) ≠ [] :=
  List.append_ne_nil_of_left_ne_nil p.text_ne_nil _

theorem head_written (pairs : List Pair) : ∀ c ∈ (written pairs).head?, isNumberChar c = true := by
  cases pairs with
  | nil => nofun
  | cons p pairs => exact p.head_text (written pairs)

theorem turn?_written (sum : Float) (p : Pair) (pairs : List Pair) :
    turn? sum (written (p :: pairs)) = some (sum + p.nanos, written pairs) :=
  turn?_eq_some_iff.mpr ⟨p, rfl, head_written pairs, rfl⟩

/-- The reader takes a sequence of pairs, and nothing else. -/
theorem sumPairs_eq_some_iff :
    sumPairs sum s = some x ↔ ∃ pairs, written pairs = s ∧ addTo sum pairs = x := by
  constructor
  · intro read
    induction size : s.length using Nat.strong_induction_on generalizing sum s with
    | _ size ih =>
        subst size
        cases s with
        | nil =>
            rw [sumPairs_nil] at read
            exact ⟨[], rfl, Option.some.inj read⟩
        | cons c s =>
            rw [sumPairs_eq (List.cons_ne_nil c s)] at read
            obtain ⟨⟨sum', rest⟩, taken, read⟩ := Option.bind_eq_some_iff.mp read
            obtain ⟨pairs, rfl, added⟩ := ih rest.length (length_lt_of_turn? taken) read rfl
            obtain ⟨p, same, -, rfl⟩ := turn?_eq_some_iff.mp taken
            exact ⟨p :: pairs, same.symm, added⟩
  · rintro ⟨pairs, rfl, rfl⟩
    induction pairs generalizing sum with
    | nil => exact sumPairs_nil sum
    | cons p pairs ih =>
        rw [sumPairs_eq (written_ne_nil p pairs), turn?_written]
        exact ih

/-- No unit is the start of a longer one that would also go on as pairs. -/
theorem written_injective : Function.Injective written := by
  intro pairs
  induction pairs with
  | nil =>
      intro others same
      cases others with
      | nil => rfl
      | cons q others => exact absurd same.symm (written_ne_nil q others)
  | cons p pairs ih =>
      intro others same
      cases others with
      | nil => exact absurd same (written_ne_nil p pairs)
      | cons q others =>
          obtain ⟨⟨run, after⟩, run', after'⟩ := p.cut_text (head_written pairs)
          obtain ⟨⟨qrun, qafter⟩, qrun', qafter'⟩ := q.cut_text (head_written others)
          rw [written_cons, written_cons] at same
          have behind : p.unit ++ written pairs = q.unit ++ written others := by
            rw [← after, ← qafter, same]
          have first : p = q := by
            apply Pair.eq_of_text
            · rw [← run, ← qrun, same]
            · rw [← run', ← qrun', behind]
          have rest : written pairs = written others := by rw [← after', ← qafter', behind]
          rw [first, ih rest]

theorem isAboveZero_of_known : ∀ entry ∈ units, isAboveZero entry.2 = true := by
  decide +kernel

theorem notBelowZero_addTo (nonnegative : NotBelowZero sum) (pairs : List Pair) :
    NotBelowZero (addTo sum pairs) := by
  induction pairs generalizing sum with
  | nil => exact nonnegative
  | cons p pairs ih =>
      have scale : isAboveZero p.scale = true := isAboveZero_of_known (p.unit, p.scale) p.known
      exact ih (nonnegative.add ((notBelowZero_toFloat _ _).mul scale))

/-- A sum that is finite and not beyond 2 to the 63rd. -/
def Within (sum : Float) : Prop := sum.isFinite = true ∧ ¬ sum > 9223372036854775808.0

theorem refused_iff :
    (!sum.isFinite || decide (sum > 9223372036854775808.0)) = true ↔ ¬ Within sum := by
  rw [Within, Bool.or_eq_true, Bool.not_eq_true', decide_eq_true_iff,
    Classical.not_and_iff_not_or_not, Classical.not_not, Bool.not_eq_true]

theorem parse?_eq_some_iff {d : Nat} : parse? s = some d ↔
    ∃ pairs, pairs ≠ [] ∧ written pairs = s ∧ Within (addTo 0 pairs) ∧
    d = wholePart (addTo 0 pairs) := by
  rw [parse?]
  constructor
  · intro read
    split at read
    · cases read
    · next more =>
        split at read
        · next total added =>
            obtain ⟨pairs, rfl, rfl⟩ := sumPairs_eq_some_iff.mp added
            split at read
            · cases read
            · next within =>
                rw [refused_iff, Classical.not_not] at within
                refine ⟨pairs, ?_, rfl, within, (Option.some.inj read).symm⟩
                rintro rfl
                exact more rfl
        · cases read
  · rintro ⟨pairs, filled, rfl, within, rfl⟩
    obtain ⟨p, others, rfl⟩ := List.exists_cons_of_ne_nil filled
    rw [if_neg (mt List.isEmpty_iff.mp (written_ne_nil p others)),
      sumPairs_eq_some_iff.mpr ⟨_, rfl, rfl⟩]
    dsimp only
    rw [if_neg (mt refused_iff.mp (Classical.not_not.mpr within))]

/-- How a text is read as a length. -/
structure ReadAsPairs (s : List Char) : Prop where
  /-- Each turn of the loop takes a character at least. -/
  takes : ∀ sum sum' rest, turn? sum s = some (sum', rest) → ∃ front, front ≠ [] ∧ s = front ++ rest
  ends : ∀ sum, ∃ turns ≤ s.length, Scan sum s turns (sumPairs sum s)
  /-- Where pairs follow one another, a turn takes the first of them, whatever comes after it. -/
  turn : ∀ sum p pairs, written (p :: pairs) = s →
    turn? sum s = some (sum + p.nanos, written pairs)
  unique : ∀ pairs others, written pairs = s → written others = s → pairs = others
  /-- What is accepted are one or more pairs whose sum is finite and not beyond 2 to the 63rd. -/
  accepts : ∀ d, parse? s = some d ↔
    ∃ pairs, pairs ≠ [] ∧ written pairs = s ∧ Within (addTo 0 pairs) ∧ d = wholePart (addTo 0 pairs)
  nonnegative : ∀ pairs, 0 ≤ addTo 0 pairs
  bounded : ∀ d, parse? s = some d → d ≤ 9_223_372_036_854_775_807

/-- The loop ends on every text, and the lengths are the sequences of pairs within the bound, each
of them in one way. No sum falls below zero, and no length is beyond the signed numbers of 64
bits. -/
theorem parse?_iff_written (s : List Char) : ReadAsPairs s where
  takes _ _ _ := turn?_takes
  ends sum := scan_sumPairs sum s
  turn := by
    rintro sum p pairs rfl
    exact turn?_written sum p pairs
  unique := by
    rintro pairs others rfl same
    exact written_injective same.symm
  accepts _ := parse?_eq_some_iff
  nonnegative pairs := (notBelowZero_addTo (notBelowZero_ofScientific 0 false 0) pairs).zero_le
  bounded := by
    intro d read
    obtain ⟨pairs, -, -, -, rfl⟩ := parse?_eq_some_iff.mp read
    exact Nat.min_le_right _ _

theorem parse?_iff_written_twoHours :
    turn? 0 "1.5h30m".toList = some (5_400_000_000_000, "30m".toList) ∧
      parse? "1.5h30m".toList = some 7_200_000_000_000 := by
  let hours : Pair :=
    ⟨['1', '.', '5'], ['1'], ['5'], ['h'], 3600e9, .pointed (by decide) (by simp), by simp [units]⟩
  let minutes : Pair :=
    ⟨['3', '0'], ['3', '0'], [], ['m'], 60e9, .whole (by decide) (by simp), by simp [units]⟩
  have same : written [hours, minutes] = "1.5h30m".toList := by decide +kernel
  have product : (0 : Float) + hours.nanos = 5_400_000_000_000 := by decide +kernel
  have within : Within (addTo 0 [hours, minutes]) := ⟨by decide +kernel, by decide +kernel⟩
  have length : 7_200_000_000_000 = wholePart (addTo 0 [hours, minutes]) := by decide +kernel
  have reads := parse?_iff_written "1.5h30m".toList
  have first := reads.turn 0 hours [minutes] same
  rw [product] at first
  exact ⟨first, (reads.accepts _).mpr
    ⟨[hours, minutes], List.cons_ne_nil _ _, same, within, length⟩⟩

end FleetBoard.Time.Span

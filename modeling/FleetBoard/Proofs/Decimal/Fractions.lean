import FleetBoard.Proofs.Decimal.Numerals
import FleetBoard.Proofs.Time.Layouts

/-!
# Decimal numbers in writing

Digits with at most one point among them, and perhaps an exponent. Where the digits end is clear
from the text (`splitDecimal?_eq_some_iff`), so a text writes at most one number. A sign may stand
before it, and a few words may stand in its place (`readFloat?_eq_some_iff`); a text that writes a
finite double is none of these words.
-/

namespace FleetBoard.Decimal

variable {s whole fraction : List Char} {n : Int}

/-- Digits with at most one point, and the digits before and after it. -/
inductive Fixed : List Char → List Char → List Char → Prop
  | whole {digits : List Char} (filled : digits ≠ []) (all : ∀ c ∈ digits, c.isDigit = true) :
      Fixed digits [] digits
  | pointed {whole fraction : List Char} (filled : whole ++ fraction ≠ [])
      (all : ∀ c ∈ whole ++ fraction, c.isDigit = true) :
      Fixed whole fraction (whole ++ '.' :: fraction)

/-- Nothing, or a letter `e` in either case and a number with sign. -/
inductive Exponent : Int → List Char → Prop
  | none : Exponent 0 []
  | some {e : Char} {s : List Char} {n : Int} (letter : e = 'e' ∨ e = 'E') (number : Signed s n) :
      Exponent n (e :: s)

def afterPoint : List Char → List Char × List Char
  | '.' :: s => (s.takeWhile Char.isDigit, s.dropWhile Char.isDigit)
  | s => ([], s)

def exponent? : List Char → Option Int
  | [] => some 0
  | e :: s => if e = 'e' ∨ e = 'E' then signed? s else none

theorem splitDecimal?_eq (s : List Char) : splitDecimal? s =
    if (s.takeWhile Char.isDigit).isEmpty && (afterPoint (s.dropWhile Char.isDigit)).1.isEmpty
    then none
    else (exponent? (afterPoint (s.dropWhile Char.isDigit)).2).map fun n =>
      (s.takeWhile Char.isDigit, (afterPoint (s.dropWhile Char.isDigit)).1, n) := by
  rw [splitDecimal?]
  generalize s.dropWhile Char.isDigit = after
  fun_cases afterPoint after
  all_goals simp only
  case' case1 t =>
    generalize t.takeWhile Char.isDigit = fraction
    generalize t.dropWhile Char.isDigit = after
  -- from here on it is the same with a point and without: what is left of the text is the exponent
  all_goals
    refine congrArg (ite _ none) ?_
    cases after with
    | nil => rfl
    | cons e rest =>
        rw [exponent?]
        dsimp only
        split
        · fun_cases signed? rest with
          | case1 digits => cases read : readNat? digits <;> simp [read]
          | case2 rest other => cases readNat? (dropPlus rest) <;> simp
        · rfl

theorem exponent?_eq_some_iff : exponent? s = some n ↔ Exponent n s := by
  constructor
  · intro read
    cases s with
    | nil =>
        cases read
        exact .none
    | cons e s =>
        rw [exponent?] at read
        split at read
        · next letter => exact .some letter (signed?_eq_some_iff.mp read)
        · cases read
  · rintro (_ | ⟨letter, number⟩)
    · rfl
    · rw [exponent?, if_pos letter]
      exact signed?_eq_some_iff.mpr number

/-- What begins an exponent is no part of the number before it. -/
theorem Exponent.stops {exponent : Int} (form : Exponent exponent s) :
    ∀ c ∈ s.head?, c.isDigit = false ∧ c ≠ '.' := by
  rintro c here
  cases form with
  | none => cases here
  | some letter number =>
      obtain rfl := Option.some_inj.mp here
      rcases letter with rfl | rfl <;> decide

/-- A number and its exponent are cut where the number ends. -/
theorem splitDecimal?_eq_some_iff {exponent : Int} :
    splitDecimal? s = some (whole, fraction, exponent) ↔
    ∃ number rest, s = number ++ rest ∧ Fixed whole fraction number ∧ Exponent exponent rest := by
  rw [splitDecimal?_eq]
  constructor
  · intro read
    split at read
    · cases read
    · next filled =>
        obtain ⟨n, found, same⟩ := Option.map_eq_some_iff.mp read
        cases same
        have form := exponent?_eq_some_iff.mp found
        have front : s = s.takeWhile Char.isDigit ++ s.dropWhile Char.isDigit :=
          List.takeWhile_append_dropWhile.symm
        have digits : ∀ t : List Char, ∀ c ∈ t.takeWhile Char.isDigit, c.isDigit = true :=
          fun _ _ inside => List.mem_takeWhile_imp inside
        rw [Bool.and_eq_true, List.isEmpty_iff, List.isEmpty_iff] at filled
        revert form filled
        generalize s.dropWhile Char.isDigit = after at front
        fun_cases afterPoint after with
        | case1 t =>
            intro filled form
            refine ⟨s.takeWhile Char.isDigit ++ '.' :: t.takeWhile Char.isDigit, _, ?_,
              .pointed ?_ ?_, form⟩
            · simpa using front
            · simpa using filled
            · intro c inside
              rcases List.mem_append.mp inside with before | behind
              · exact digits s c before
              · exact digits t c behind
        | case2 after other =>
            intro filled form
            exact ⟨s.takeWhile Char.isDigit, _, front,
              .whole (fun empty => filled ⟨empty, rfl⟩) (digits s), form⟩
  · rintro ⟨number, rest, rfl, form, last⟩
    have stops := last.stops
    cases form with
    | whole filled all =>
        obtain ⟨run, after⟩ := Time.span_append all fun c here => (stops c here).1
        have plain : afterPoint rest = ([], rest) := by
          rw [afterPoint.eq_def]
          split
          · exact absurd rfl (stops '.' rfl).2
          · rfl
        rw [run, after, plain, exponent?_eq_some_iff.mpr last]
        simp [filled]
    | pointed filled all =>
        obtain ⟨before, behind⟩ := List.forall_mem_append.mp all
        rw [List.append_assoc, List.cons_append]
        have point : ∀ c ∈ ('.' :: (fraction ++ rest)).head?, c.isDigit = false := by
          rintro c ⟨⟩
          rfl
        obtain ⟨run, after⟩ := Time.span_append before point
        obtain ⟨run', after'⟩ := Time.span_append behind fun c here => (stops c here).1
        rw [run, after, afterPoint, run', after', exponent?_eq_some_iff.mpr last]
        simpa using filled

/-- A decimal number without sign, and the nearest double. -/
def Unsigned (s : List Char) (x : Float) : Prop :=
  ∃ whole fraction exponent number rest, s = number ++ rest ∧ Fixed whole fraction number ∧
    Exponent exponent rest ∧
    x = toFloat (whole ++ fraction) (exponent - fraction.length)

theorem readUnsignedFloat?_eq_some_iff {x : Float} :
    readUnsignedFloat? s = some x ↔ Unsigned s x := by
  rw [readUnsignedFloat?]
  constructor
  · intro read
    split at read
    · next whole fraction exponent found =>
        obtain ⟨number, rest, same, form, last⟩ := splitDecimal?_eq_some_iff.mp found
        exact ⟨whole, fraction, exponent, number, rest, same, form, last,
          (Option.some.inj read).symm⟩
    · cases read
  · rintro ⟨whole, fraction, exponent, number, rest, same, form, last, rfl⟩
    rw [splitDecimal?_eq_some_iff.mpr ⟨number, rest, same, form, last⟩]

/-! ### Signs and words -/

/-- The words for infinity and for what is no number, in any case. -/
inductive Word (s : List Char) : Float → Prop
  | infinity (word : s.map Char.toLower = "inf".toList ∨ s.map Char.toLower = "infinity".toList) :
      Word s (1.0 / 0.0)
  | noNumber (word : s.map Char.toLower = "nan".toList) : Word s (0.0 / 0.0)

/-- A text for a double with at most one sign before it. -/
inductive WithSign (form : List Char → Float → Prop) : List Char → Float → Prop
  | plain {s : List Char} {x : Float} (body : form s x) : WithSign form s x
  | plus {s : List Char} {x : Float} (body : form s x) : WithSign form ('+' :: s) x
  | minus {s : List Char} {x : Float} (body : form s x) : WithSign form ('-' :: s) (-x)

/-- A digit, a point or a letter of an exponent or a sign: the characters of decimal numbers. -/
def isFigure (c : Char) : Bool := c.isDigit || c = '.' || c = 'e' || c = 'E' || c = '+' || c = '-'

/-- The double that a text without sign writes, be it a number or a word. -/
def body? (s : List Char) : Option Float :=
  if String.ofList (s.map Char.toLower) = "inf" ∨ String.ofList (s.map Char.toLower) = "infinity"
  then some (1.0 / 0.0)
  else if String.ofList (s.map Char.toLower) = "nan" then some (0.0 / 0.0)
  else readUnsignedFloat? s

variable {x : Float}

theorem Fixed.chars {number : List Char} (form : Fixed whole fraction number) :
    ∀ c ∈ number, c.isDigit = true ∨ c = '.' := by
  cases form with
  | whole filled all => exact fun c inside => .inl (all c inside)
  | pointed filled all =>
      obtain ⟨before, behind⟩ := List.forall_mem_append.mp all
      refine List.forall_mem_append.mpr ⟨fun c inside => .inl (before c inside), ?_⟩
      exact List.forall_mem_cons.mpr ⟨.inr rfl, fun c inside => .inl (behind c inside)⟩

theorem Fixed.ne_nil {number : List Char} (form : Fixed whole fraction number) : number ≠ [] := by
  cases form with
  | whole filled all => exact filled
  | pointed filled all => simp

theorem Unsigned.head (number : Unsigned s x) :
    ∃ c t, s = c :: t ∧ (c.isDigit = true ∨ c = '.') := by
  obtain ⟨whole, fraction, exponent, front, rest, rfl, form, -, -⟩ := number
  obtain ⟨c, t, rfl⟩ := List.exists_cons_of_ne_nil form.ne_nil
  exact ⟨c, t ++ rest, rfl, form.chars c List.mem_cons_self⟩

/-- No word begins like a number or with a sign. -/
theorem Word.head (word : Word s x) :
    ∃ c t, s = c :: t ∧ c.isDigit = false ∧ c ∉ ['.', '+', '-'] := by
  have first : ∃ c t, s = c :: t ∧ (c.toLower = 'i' ∨ c.toLower = 'n') := by
    rcases word with ⟨same | same⟩ | same <;> obtain ⟨c, t, rfl, lower, -⟩ :=
      List.map_eq_cons_iff.mp same
    · exact ⟨c, t, rfl, .inl lower⟩
    · exact ⟨c, t, rfl, .inl lower⟩
    · exact ⟨c, t, rfl, .inr lower⟩
  obtain ⟨c, t, rfl, letter⟩ := first
  refine ⟨c, t, rfl, ?_, ?_⟩
  · rw [← Bool.not_eq_true]
    intro digit
    have digit := Time.isDigit_toLower digit
    rcases letter with same | same <;> rw [same] at digit <;> cases digit
  · rintro among
    simp only [List.mem_cons, List.not_mem_nil, or_false] at among
    rcases among with rfl | rfl | rfl <;> revert letter <;> decide

theorem WithSign.head_of_word (word : WithSign Word s x) :
    ∃ c t, s = c :: t ∧ c.isDigit = false ∧ c ≠ '.' := by
  cases word with
  | plain body =>
      obtain ⟨c, t, rfl, plain, clear⟩ := body.head
      refine ⟨c, t, rfl, plain, ?_⟩
      rintro rfl
      exact clear (by decide)
  | plus => exact ⟨'+', _, rfl, by decide, by decide⟩
  | minus => exact ⟨'-', _, rfl, by decide, by decide⟩

theorem Unsigned.no_word {y : Float} (number : Unsigned s x) (word : Word s y) : False := by
  obtain ⟨c, t, rfl, plain, clear⟩ := word.head
  obtain ⟨_, _, ⟨⟩, digit | rfl⟩ := number.head
  · rw [digit] at plain
    cases plain
  · exact clear (by decide)

theorem body?_eq_some_iff : body? s = some x ↔ Word s x ∨ Unsigned s x := by
  have same (word : String) : String.ofList (s.map Char.toLower) = word ↔
      s.map Char.toLower = word.toList := by
    rw [← String.toList_inj, String.toList_ofList]
  simp only [body?, same]
  constructor
  · intro read
    split at read
    · next word =>
        cases read
        exact .inl (.infinity word)
    split at read
    · next word =>
        cases read
        exact .inl (.noNumber word)
    · exact .inr (readUnsignedFloat?_eq_some_iff.mp read)
  · rintro ((word | word) | number)
    · rw [if_pos word]
    · rw [if_pos word, if_neg]
      rw [word]
      decide
    · rw [if_neg fun word => number.no_word (.infinity word), if_neg fun word =>
        number.no_word (.noNumber word)]
      exact readUnsignedFloat?_eq_some_iff.mpr number

theorem no_sign_of_body (read : body? s = some x) : '+' ∉ s.head? ∧ '-' ∉ s.head? := by
  rcases body?_eq_some_iff.mp read with word | number
  · obtain ⟨c, t, rfl, -, clear⟩ := word.head
    rw [List.head?_cons, Option.mem_some_iff, Option.mem_some_iff]
    constructor <;> rintro rfl <;> exact clear (by decide)
  · obtain ⟨c, t, rfl, first⟩ := number.head
    rw [List.head?_cons, Option.mem_some_iff, Option.mem_some_iff]
    rcases first with digit | rfl
    · constructor <;> rintro rfl <;> cases digit
    · decide

theorem readFloat?_minus (s : List Char) : readFloat? ('-' :: s) = (body? s).map fun x => -x := rfl

theorem readFloat?_of_no_minus (plain : '-' ∉ s.head?) : readFloat? s = body? (dropPlus s) := by
  rw [readFloat?.eq_def]
  split
  · next negative body same =>
      split at same
      · exact absurd rfl plain
      · cases same
        exact Option.map_id_apply

theorem readFloat?_eq_some_iff : readFloat? s = some x ↔
    WithSign (fun body x => Word body x ∨ Unsigned body x) s x := by
  constructor
  · intro read
    by_cases minus : '-' ∈ s.head?
    · obtain ⟨t, rfl⟩ := List.head?_eq_some_iff.mp minus
      obtain ⟨y, found, rfl⟩ := Option.map_eq_some_iff.mp ((readFloat?_minus t).symm.trans read)
      exact .minus (body?_eq_some_iff.mp found)
    · rw [readFloat?_of_no_minus minus, dropPlus.eq_def] at read
      split at read
      · exact .plus (body?_eq_some_iff.mp read)
      · exact .plain (body?_eq_some_iff.mp read)
  · rintro (body | body | body)
    · have read := body?_eq_some_iff.mpr body
      obtain ⟨plus, minus⟩ := no_sign_of_body read
      rw [readFloat?_of_no_minus minus, dropPlus.eq_def]
      split
      · exact absurd rfl plus
      · exact read
    · rw [readFloat?_of_no_minus (by simp)]
      exact body?_eq_some_iff.mpr body
    · exact Option.map_eq_some_iff.mpr ⟨_, body?_eq_some_iff.mpr body, rfl⟩

theorem number_or_word_of_read (read : readFloat? s = some x) :
    WithSign Unsigned s x ∨ WithSign Word s x := by
  rcases readFloat?_eq_some_iff.mp read with body | body | body <;> rcases body with word | number
  · exact .inr (.plain word)
  · exact .inl (.plain number)
  · exact .inr (.plus word)
  · exact .inl (.plus number)
  · exact .inr (.minus word)
  · exact .inl (.minus number)

theorem WithSign.isFinite_of_word (word : WithSign Word s x) : x.isFinite = false := by
  rcases word with body | body | body <;> cases body <;> decide +kernel

theorem WithSign.mono {form other : List Char → Float → Prop} (wider : ∀ s x, form s x → other s x)
    (signed : WithSign form s x) : WithSign other s x := by
  cases signed with
  | plain body => exact .plain (wider _ _ body)
  | plus body => exact .plus (wider _ _ body)
  | minus body => exact .minus (wider _ _ body)

/-- Only a number writes a double that is finite. -/
theorem readFloat?_eq_some_finite_iff :
    readFloat? s = some x ∧ x.isFinite = true ↔ WithSign Unsigned s x ∧ x.isFinite = true := by
  rw [and_congr_left_iff]
  intro finite
  constructor
  · intro read
    refine (number_or_word_of_read read).resolve_right fun word => ?_
    rw [word.isFinite_of_word] at finite
    cases finite
  · intro number
    exact readFloat?_eq_some_iff.mpr (number.mono fun _ _ => Or.inr)

/-! ### Characters of numbers -/

theorem figures_of_digits (digits : ∀ c ∈ s, c.isDigit = true) : ∀ c ∈ s, isFigure c = true := by
  intro c inside
  simp [isFigure, digits c inside]

theorem Signed.isFigure (number : Signed s n) : ∀ c ∈ s, isFigure c = true := by
  rcases number with ⟨digits, -, all, -, rfl | rfl⟩ | ⟨-, all⟩
  · exact figures_of_digits all
  · exact List.forall_mem_cons.mpr ⟨rfl, figures_of_digits all⟩
  · exact List.forall_mem_cons.mpr ⟨rfl, figures_of_digits all⟩

theorem Exponent.isFigure (form : Exponent n s) : ∀ c ∈ s, isFigure c = true := by
  cases form with
  | none => exact List.forall_mem_nil _
  | some letter number =>
      refine List.forall_mem_cons.mpr ⟨?_, number.isFigure⟩
      rcases letter with rfl | rfl <;> rfl

theorem Unsigned.isFigure (number : Unsigned s x) : ∀ c ∈ s, isFigure c = true := by
  obtain ⟨whole, fraction, exponent, front, rest, rfl, form, last, -⟩ := number
  refine List.forall_mem_append.mpr ⟨?_, last.isFigure⟩
  intro c inside
  rcases form.chars c inside with digit | rfl
  · simp [Decimal.isFigure, digit]
  · rfl

theorem WithSign.isFigure (number : WithSign Unsigned s x) : ∀ c ∈ s, isFigure c = true := by
  cases number with
  | plain body => exact body.isFigure
  | plus body => exact List.forall_mem_cons.mpr ⟨rfl, body.isFigure⟩
  | minus body => exact List.forall_mem_cons.mpr ⟨rfl, body.isFigure⟩

end FleetBoard.Decimal

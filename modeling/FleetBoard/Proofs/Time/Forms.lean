import FleetBoard.Time.Layout
import Mathlib.Algebra.Group.Nat.Defs
import Mathlib.Data.List.TakeWhile
import Mathlib.Tactic.ByContra

/-!
# What the pieces of a layout accept

For each piece the texts that it stands for, with what they say of a time. A piece reads a text of
this kind off the start of what is left, and nothing else. Two kinds of pieces read as far as they
can, so reading gives back what was written only where the text after them cannot be read as more of
the same.
-/

namespace FleetBoard.Time

structure Digits (width n : Nat) (s : List Char) : Prop where
  width : s.length = width
  digits : ∀ c ∈ s, c.isDigit = true
  value : Decimal.ofDigits s = n

/-- Nothing, or a point and one to nine digits, with the nanoseconds they mean. -/
inductive FractionForm : List Char → Nat → Prop
  | none : FractionForm [] 0
  | some {digits : List Char} {nanos : Nat} (digit : ∀ c ∈ digits, c.isDigit = true)
      (first : 1 ≤ digits.length) (last : digits.length ≤ 9)
      (value : nanos * 10 ^ digits.length = Decimal.ofDigits digits * 10 ^ 9) :
      FractionForm ('.' :: digits) nanos

/-- The three-letter name at a place of a list, in any case. -/
structure NameForm (names : List String) (place : Nat) (s : List Char) : Prop where
  width : s.length = 3
  found : names[place]? = some (String.ofList (s.map Char.toLower))

/-- One or two spaces and a day of one or two digits. -/
inductive LooseDayForm (day : Nat) : List Char → Prop
  | one {digits : List Char} {width : Nat} (bounds : 1 ≤ width ∧ width ≤ 2)
      (number : Digits width day digits) : LooseDayForm day (' ' :: digits)
  | two {digits : List Char} {width : Nat} (bounds : 1 ≤ width ∧ width ≤ 2)
      (number : Digits width day digits) : LooseDayForm day (' ' :: ' ' :: digits)

structure ZoneNameForm (s : List Char) : Prop where
  bounds : 3 ≤ s.length ∧ s.length ≤ 5
  capitals : ∀ c ∈ s, isCapital c = true

/-- A sign, a minus if the zone is behind, and hours and minutes of two digits with `between`
between. -/
inductive OffsetForm (between : List Char) (behind : Bool) (hours minutes : Nat) : List Char → Prop
  | mk {hh mm : List Char} (hour : Digits 2 hours hh) (minute : Digits 2 minutes mm) :
      OffsetForm between behind hours minutes
        ((if behind then '-' else '+') :: (hh ++ (between ++ mm)))

/-- The width of a field that is a number, and how it is set. -/
def Piece.number? : Piece → Option (Nat × (Fields → Nat → Fields))
  | .year => some (4, fun f n => { f with year := n })
  | .month => some (2, fun f n => { f with month := n })
  | .day => some (2, fun f n => { f with day := n })
  | .hour => some (2, fun f n => { f with hour := n })
  | .minute => some (2, fun f n => { f with minute := n })
  | .second => some (2, fun f n => { f with second := n })
  | _ => none

/-- The texts of a piece, and the fields after them. -/
inductive Piece.Writes (f : Fields) : Piece → List Char → Fields → Prop
  | lit (c : Char) : Writes f (.lit c) [c] f
  | number {p : Piece} {width n : Nat} {set : Fields → Nat → Fields} {s : List Char}
      (kind : p.number? = some (width, set)) (form : Digits width n s) : Writes f p s (set f n)
  | noFraction : Writes f .fraction [] f
  | fraction {n : Nat} {digits : List Char} (form : FractionForm ('.' :: digits) n) :
      Writes f .fraction ('.' :: digits) { f with nanos := n }
  | monthName {k : Nat} {s : List Char} (form : NameForm monthNames k s) :
      Writes f .monthName s { f with month := k + 1 }
  | weekday {k : Nat} {s : List Char} (form : NameForm weekdayNames k s) : Writes f .weekday s f
  | looseDay {n : Nat} {s : List Char} (form : LooseDayForm n s) :
      Writes f .looseDay s { f with day := n }
  | zoneName {s : List Char} (form : ZoneNameForm s) : Writes f .zoneName s f
  | offset {behind : Bool} {h m : Nat} {s : List Char} (form : OffsetForm [] behind h m s) :
      Writes f .offset s { f with behind := behind, offsetHour := h, offsetMinute := m }
  | offsetColon {behind : Bool} {h m : Nat} {s : List Char} (form : OffsetForm [':'] behind h m s) :
      Writes f .offsetColon s { f with behind := behind, offsetHour := h, offsetMinute := m }

namespace Piece

variable {f g : Fields} {w : List Char}

theorem writes_lit_iff {c : Char} : (lit c).Writes f w g ↔ w = [c] ∧ g = f := by
  constructor
  · intro written
    cases written with
    | lit => exact ⟨rfl, rfl⟩
    | number kind => cases kind
  · rintro ⟨rfl, rfl⟩
    exact .lit c

theorem writes_number_iff {p : Piece} {width : Nat} {set : Fields → Nat → Fields}
    (kind : p.number? = some (width, set)) :
    p.Writes f w g ↔ ∃ n, Digits width n w ∧ g = set f n := by
  constructor
  · intro written
    cases written with
    | number other form =>
        cases kind.symm.trans other
        exact ⟨_, form, rfl⟩
    | _ => cases kind
  · rintro ⟨n, form, rfl⟩
    exact .number kind form

theorem writes_fraction_iff (plain : f.nanos = 0) :
    fraction.Writes f w g ↔ ∃ n, FractionForm w n ∧ g = { f with nanos := n } := by
  constructor
  · intro written
    cases written with
    | noFraction => exact ⟨0, .none, by rw [← plain]⟩
    | fraction form => exact ⟨_, form, rfl⟩
    | number kind => cases kind
  · rintro ⟨n, form, rfl⟩
    cases w with
    | nil =>
        cases form
        have same : { f with nanos := 0 } = f := by rw [← plain]
        rw [same]
        exact .noFraction
    | cons c w =>
        cases form with
        | some digit first last value => exact .fraction (.some digit first last value)

theorem writes_monthName_iff :
    monthName.Writes f w g ↔ ∃ k, NameForm monthNames k w ∧ g = { f with month := k + 1 } := by
  constructor
  · intro written
    cases written with
    | monthName form => exact ⟨_, form, rfl⟩
    | number kind => cases kind
  · rintro ⟨k, form, rfl⟩
    exact .monthName form

theorem writes_weekday_iff : weekday.Writes f w g ↔ (∃ k, NameForm weekdayNames k w) ∧ g = f := by
  constructor
  · intro written
    cases written with
    | weekday form => exact ⟨⟨_, form⟩, rfl⟩
    | number kind => cases kind
  · rintro ⟨⟨k, form⟩, rfl⟩
    exact .weekday form

theorem writes_looseDay_iff :
    looseDay.Writes f w g ↔ ∃ n, LooseDayForm n w ∧ g = { f with day := n } := by
  constructor
  · intro written
    cases written with
    | looseDay form => exact ⟨_, form, rfl⟩
    | number kind => cases kind
  · rintro ⟨n, form, rfl⟩
    exact .looseDay form

theorem writes_zoneName_iff : zoneName.Writes f w g ↔ ZoneNameForm w ∧ g = f := by
  constructor
  · intro written
    cases written with
    | zoneName form => exact ⟨form, rfl⟩
    | number kind => cases kind
  · rintro ⟨form, rfl⟩
    exact .zoneName form

theorem writes_offset_iff : offset.Writes f w g ↔ ∃ behind h m, OffsetForm [] behind h m w ∧
    g = { f with behind := behind, offsetHour := h, offsetMinute := m } := by
  constructor
  · intro written
    cases written with
    | offset form => exact ⟨_, _, _, form, rfl⟩
    | number kind => cases kind
  · rintro ⟨behind, h, m, form, rfl⟩
    exact .offset form

theorem writes_offsetColon_iff : offsetColon.Writes f w g ↔ ∃ behind h m,
    OffsetForm [':'] behind h m w ∧
      g = { f with behind := behind, offsetHour := h, offsetMinute := m } := by
  constructor
  · intro written
    cases written with
    | offsetColon form => exact ⟨_, _, _, form, rfl⟩
    | number kind => cases kind
  · rintro ⟨behind, h, m, form, rfl⟩
    exact .offsetColon form

end Piece

/-! ### Parts that are read in one go -/

theorem takeDigits_eq_some_iff {width n : Nat} {s rest : List Char} :
    takeDigits width s = some (n, rest) ↔ ∃ digits, Digits width n digits ∧ s = digits ++ rest := by
  rw [takeDigits]
  constructor
  · intro read
    split at read
    · next fits =>
        cases read
        exact ⟨s.take width, ⟨fits.1, List.all_eq_true.mp fits.2, rfl⟩,
          (List.take_append_drop width s).symm⟩
    · cases read
  · rintro ⟨digits, form, rfl⟩
    have front : (digits ++ rest).take width = digits := by rw [← form.width, List.take_left]
    have back : (digits ++ rest).drop width = rest := by rw [← form.width, List.drop_left]
    rw [front, back, if_pos ⟨form.width, List.all_eq_true.mpr form.digits⟩, form.value]

theorem idxOf?_eq_some_iff {names : List String} (distinct : names.Nodup) {name : String}
    {k : Nat} :
    names.idxOf? name = some k ↔ names[k]? = some name := by
  rw [List.idxOf?_eq_some_iff, List.getElem?_eq_some_iff]
  constructor
  · rintro ⟨inside, here, -⟩
    exact ⟨inside, here⟩
  · rintro ⟨inside, rfl⟩
    refine ⟨inside, rfl, ?_⟩
    intro j earlier same
    exact Nat.ne_of_lt earlier ((List.getElem_inj distinct).mp same)

theorem takeName_eq_some_iff {names : List String} (distinct : names.Nodup)
    (widths : ∀ name ∈ names, name.length = 3) {k : Nat} {s rest : List Char} :
    takeName names s = some (k, rest) ↔ ∃ name, NameForm names k name ∧ s = name ++ rest := by
  rw [takeName]
  constructor
  · intro read
    split at read
    · next place found =>
        cases read
        rw [idxOf?_eq_some_iff distinct] at found
        have width := widths _ (List.mem_of_getElem? found)
        rw [String.length_ofList, List.length_map] at width
        exact ⟨s.take 3, ⟨width, found⟩, (List.take_append_drop 3 s).symm⟩
    · cases read
  · rintro ⟨name, form, rfl⟩
    have front : (name ++ rest).take 3 = name := by rw [← form.width, List.take_left]
    have back : (name ++ rest).drop 3 = rest := by rw [← form.width, List.drop_left]
    rw [front, back, (idxOf?_eq_some_iff distinct).mpr form.found]

theorem takeSign_eq_some_iff {behind : Bool} {s rest : List Char} :
    takeSign s = some (behind, rest) ↔ s = (if behind then '-' else '+') :: rest := by
  rw [takeSign.eq_def]
  split
  · cases behind <;> simp [eq_comm]
  · cases behind <;> simp [eq_comm]
  · next plus minus =>
      refine ⟨nofun, ?_⟩
      rintro rfl
      cases behind
      · exact absurd rfl (plus rest)
      · exact absurd rfl (minus rest)

/-- Takes off what stands between the hours and the minutes of an offset. -/
def takeColon : Bool → List Char → Option (List Char)
  | false, s => some s
  | true, ':' :: s => some s
  | true, _ => none

theorem takeColon_eq_some_iff {colon : Bool} {s rest : List Char} :
    takeColon colon s = some rest ↔ s = (if colon then [':'] else []) ++ rest := by
  rw [takeColon.eq_def]
  split
  · simp
  · simp
  · next other =>
      refine ⟨nofun, ?_⟩
      rintro rfl
      exact absurd rfl (other rest)

theorem readOffset_eq (colon : Bool) (f : Fields) (s : List Char) : readOffset colon f s =
    (takeSign s).bind fun sign => (takeDigits 2 sign.2).bind fun hours =>
      (takeColon colon hours.2).bind fun s => (takeDigits 2 s).map fun minutes =>
        ({ f with behind := sign.1, offsetHour := hours.1, offsetMinute := minutes.1 },
          minutes.2) := by
  rw [readOffset]
  cases takeSign s with
  | none => rfl
  | some sign =>
      obtain ⟨behind, s⟩ := sign
      dsimp only [Option.bind_some, bind, Option.bind]
      cases takeDigits 2 s with
      | none => rfl
      | some hours =>
          obtain ⟨hours, s⟩ := hours
          dsimp only
          fun_cases takeColon colon s with
          | case1 =>
              dsimp only
              cases takeDigits 2 s <;> rfl
          | case2 s =>
              split
              · next absent => cases absent
              · next same =>
                  cases same
                  dsimp only
                  cases takeDigits 2 s <;> rfl
              · next other => exact absurd rfl (other s)
          | case3 s other =>
              split
              · contradiction
              · next s _ => exact absurd rfl (other s)
              · rfl

theorem readOffset_eq_some_iff {colon : Bool} {f g : Fields} {s rest : List Char} :
    readOffset colon f s = some (g, rest) ↔ ∃ behind hours minutes offset,
      OffsetForm (if colon then [':'] else []) behind hours minutes offset ∧ s = offset ++ rest ∧
        g = { f with behind := behind, offsetHour := hours, offsetMinute := minutes } := by
  simp only [readOffset_eq, Option.bind_eq_some_iff, Option.map_eq_some_iff, Prod.exists,
    takeSign_eq_some_iff, takeColon_eq_some_iff, takeDigits_eq_some_iff]
  constructor
  · rintro ⟨behind, _, rfl, hours, _, ⟨hh, hour, rfl⟩, _, rfl, minutes, _, ⟨mm, minute, rfl⟩, same⟩
    cases same
    exact ⟨behind, hours, minutes, _, .mk hour minute, by simp, rfl⟩
  · rintro ⟨behind, hours, minutes, _, ⟨hour, minute⟩, rfl, rfl⟩
    refine ⟨behind, _, rfl, hours, _, ⟨_, hour, ?_⟩, _, rfl, minutes, rest, ⟨_, minute, rfl⟩, rfl⟩
    simp

/-- A run that is as long as can be is read as a whole. -/
theorem span_append {p : Char → Bool} {run rest : List Char} (all : ∀ c ∈ run, p c = true)
    (stops : ∀ c ∈ rest.head?, p c = false) :
    (run ++ rest).takeWhile p = run ∧ (run ++ rest).dropWhile p = rest := by
  rw [List.takeWhile_append_of_pos all, List.dropWhile_append_of_pos all]
  cases rest with
  | nil => simp
  | cons c rest =>
      have differs := stops c rfl
      simp [differs]

theorem nanosOfDigits_eq_iff {digits : List Char} {n : Nat} (last : digits.length ≤ 9) :
    n * 10 ^ digits.length = Decimal.ofDigits digits * 10 ^ 9 ↔ n = nanosOfDigits digits := by
  have split : 10 ^ 9 = 10 ^ (9 - digits.length) * 10 ^ digits.length := by
    rw [← Nat.pow_add, Nat.sub_add_cancel last]
  rw [split, ← Nat.mul_assoc, Nat.mul_left_inj (Nat.ne_of_gt (Nat.pow_pos (by decide)))]
  rfl

/-! ### Pieces -/

theorem distinct_monthNames : monthNames.Nodup := by decide

theorem distinct_weekdayNames : weekdayNames.Nodup := by decide

theorem width_monthNames : ∀ name ∈ monthNames, name.length = 3 := by decide

theorem width_weekdayNames : ∀ name ∈ weekdayNames, name.length = 3 := by decide

theorem Piece.read_number {p : Piece} {width : Nat} {set : Fields → Nat → Fields}
    (kind : p.number? = some (width, set)) (f : Fields) (s : List Char) :
    p.read f s = (takeDigits width s).map fun t => (set f t.1, t.2) := by
  cases p <;> cases kind <;> rfl

theorem Piece.writes_of_read_number {p : Piece} {width : Nat} {set : Fields → Nat → Fields}
    (kind : p.number? = some (width, set)) {f g : Fields} {s rest : List Char}
    (read : p.read f s = some (g, rest)) : ∃ w, s = w ++ rest ∧ p.Writes f w g := by
  rw [read_number kind] at read
  obtain ⟨⟨n, _⟩, taken, same⟩ := Option.map_eq_some_iff.mp read
  cases same
  obtain ⟨digits, form, rfl⟩ := takeDigits_eq_some_iff.mp taken
  exact ⟨digits, rfl, .number kind form⟩

/-- What is read off the start of a text is written there. -/
theorem Piece.writes_of_read {p : Piece} {f g : Fields} {s rest : List Char}
    (read : p.read f s = some (g, rest)) : ∃ w, s = w ++ rest ∧ p.Writes f w g := by
  cases p with
  | lit c =>
      cases s with
      | nil => cases read
      | cons d s =>
          simp only [Piece.read] at read
          split at read
          · next same =>
              cases read
              subst same
              exact ⟨[d], rfl, .lit d⟩
          · cases read
  | year => exact writes_of_read_number rfl read
  | month => exact writes_of_read_number rfl read
  | day => exact writes_of_read_number rfl read
  | hour => exact writes_of_read_number rfl read
  | minute => exact writes_of_read_number rfl read
  | second => exact writes_of_read_number rfl read
  | fraction =>
      simp only [Piece.read] at read
      split at read
      · next s =>
          split at read
          · next bounds =>
              cases read
              refine ⟨'.' :: s.takeWhile Char.isDigit, ?_,
                .fraction (.some ?_ bounds.1 bounds.2 ?_)⟩
              · rw [List.cons_append, List.takeWhile_append_dropWhile]
              · exact fun c inside => List.mem_takeWhile_imp inside
              · exact (nanosOfDigits_eq_iff bounds.2).mpr rfl
          · cases read
      · cases read
        exact ⟨[], rfl, .noFraction⟩
  | monthName =>
      obtain ⟨⟨k, _⟩, taken, same⟩ := Option.map_eq_some_iff.mp read
      cases same
      obtain ⟨name, form, rfl⟩ :=
        (takeName_eq_some_iff distinct_monthNames width_monthNames).mp taken
      exact ⟨name, rfl, .monthName form⟩
  | weekday =>
      obtain ⟨⟨k, _⟩, taken, same⟩ := Option.map_eq_some_iff.mp read
      cases same
      obtain ⟨name, form, rfl⟩ :=
        (takeName_eq_some_iff distinct_weekdayNames width_weekdayNames).mp taken
      exact ⟨name, rfl, .weekday form⟩
  | looseDay =>
      simp only [Piece.read] at read
      split at read
      · next s =>
          have loose (t : List Char) (bounds : 1 ≤ (t.takeWhile Char.isDigit).length ∧
              (t.takeWhile Char.isDigit).length ≤ 2) : Digits (t.takeWhile Char.isDigit).length
                (Decimal.ofDigits (t.takeWhile Char.isDigit)) (t.takeWhile Char.isDigit) :=
            ⟨rfl, fun c inside => List.mem_takeWhile_imp inside, rfl⟩
          split at read
          · next t =>
              split at read
              · next bounds =>
                  cases read
                  refine ⟨_, ?_, .looseDay (.two bounds (loose t bounds))⟩
                  simp
              · cases read
          · split at read
            · next bounds =>
                cases read
                refine ⟨_, ?_, .looseDay (.one bounds (loose s bounds))⟩
                simp
            · cases read
      · cases read
  | zoneName =>
      simp only [Piece.read] at read
      split at read
      · next bounds =>
          cases read
          refine ⟨s.takeWhile isCapital, List.takeWhile_append_dropWhile.symm,
            .zoneName ⟨bounds, ?_⟩⟩
          exact fun c inside => List.mem_takeWhile_imp inside
      · cases read
  | offset =>
      obtain ⟨behind, h, m, w, form, rfl, rfl⟩ := (@readOffset_eq_some_iff false f g s rest).mp read
      exact ⟨w, rfl, .offset form⟩
  | offsetColon =>
      obtain ⟨behind, h, m, w, form, rfl, rfl⟩ := (@readOffset_eq_some_iff true f g s rest).mp read
      exact ⟨w, rfl, .offsetColon form⟩

/-- May the character stand after a piece that reads as far as it can? -/
def Piece.takesMore : Piece → Char → Bool
  | .fraction, c => c = '.' || c.isDigit
  | .looseDay, c => c.isDigit
  | .zoneName, c => isCapital c
  | _, _ => false

/-- What is written at the start of a text is read off, if the piece takes no more of the text. -/
theorem Piece.read_of_writes {p : Piece} {f g : Fields} {w rest : List Char}
    (written : p.Writes f w g) (stops : ∀ c ∈ rest.head?, p.takesMore c = false) :
    p.read f (w ++ rest) = some (g, rest) := by
  cases written with
  | lit c => simp [Piece.read]
  | number kind form =>
      rw [read_number kind, takeDigits_eq_some_iff.mpr ⟨w, form, rfl⟩]
      rfl
  | noFraction =>
      have point : ∀ t, rest ≠ '.' :: t := by
        rintro t rfl
        cases stops '.' rfl
      simp only [Piece.read, List.nil_append]
  | fraction form =>
      cases form with
      | some digit first last value =>
          next digits n =>
          obtain ⟨run, after⟩ := span_append digit fun c next => by
            have more := stops c next
            simp only [takesMore, Bool.or_eq_false_iff] at more
            exact more.2
          have bounds := And.intro first last
          rw [nanosOfDigits_eq_iff last] at value
          simp only [Piece.read, List.cons_append, run, after, if_pos bounds, value]
  | monthName form =>
      have taken :=
        (takeName_eq_some_iff distinct_monthNames width_monthNames).mpr
        ⟨w, form, @rfl _ (w ++ rest)⟩
      simp only [Piece.read, taken, Option.map_some]
  | weekday form =>
      have taken :=
        (takeName_eq_some_iff distinct_weekdayNames width_weekdayNames).mpr
        ⟨w, form, @rfl _ (w ++ rest)⟩
      simp only [Piece.read, taken, Option.map_some]
  | looseDay form =>
      cases form with
      | one bounds number =>
          next digits width =>
          obtain ⟨run, after⟩ := span_append number.digits stops
          have noSpace : ∀ t, digits ++ rest ≠ ' ' :: t := by
            intro t same
            cases digits with
            | nil =>
                have empty : 0 = width := number.width
                omega
            | cons d digits =>
                cases same
                cases number.digits ' ' List.mem_cons_self
          have within : 1 ≤ digits.length ∧ digits.length ≤ 2 := number.width ▸ bounds
          simp only [Piece.read, List.cons_append, run, after, if_pos within, number.value]
      | two bounds number =>
          next digits width =>
          obtain ⟨run, after⟩ := span_append number.digits stops
          have within : 1 ≤ digits.length ∧ digits.length ≤ 2 := number.width ▸ bounds
          simp only [Piece.read, List.cons_append, run, after, if_pos within, number.value]
  | zoneName form =>
      obtain ⟨run, after⟩ := span_append form.capitals stops
      simp only [Piece.read, run, after, if_pos form.bounds]
  | offset form => exact (@readOffset_eq_some_iff false f _ _ rest).mpr ⟨_, _, _, w, form, rfl, rfl⟩
  | offsetColon form =>
      exact (@readOffset_eq_some_iff true f _ _ rest).mpr ⟨_, _, _, w, form, rfl, rfl⟩

end FleetBoard.Time

import FleetBoard.Proofs.Log.Timestamps
import FleetBoard.Proofs.Time.Rfc3339

/-!
# Times that people type

The form of RFC 3339 as a grammar. A `T` in either case or a space stands between date and time of
day, a fraction has any number of digits, of which whole nanoseconds count, and the zone is a `Z` in
either case or an offset with a colon, whose sign may be the minus sign proper. The reader accepts
these texts and no others.
-/

namespace FleetBoard.Time

/-- Nothing, or a point and digits, with the whole nanoseconds that they mean. -/
inductive TypedFraction : Nat → List Char → Prop
  | none : TypedFraction 0 []
  | some {digits : List Char} (filled : digits ≠ []) (all : ∀ c ∈ digits, c.isDigit = true) :
      TypedFraction (Decimal.ofDigits digits * 10 ^ 9 / 10 ^ digits.length) ('.' :: digits)

/-- The letter for universal time, or an offset of less than a day. -/
inductive TypedZone : Int → List Char → Prop
  | universal {c : Char} (letter : c = 'Z' ∨ c = 'z') : TypedZone 0 [c]
  | shift {offset : Int} {s : List Char} (form : ShiftForm [':'] offset s) : TypedZone offset s
  | minus {offset : Int} {s : List Char} (form : ShiftForm [':'] offset ('-' :: s)) :
      TypedZone offset ('−' :: s)

/-- A date, a time of day and the seconds that the zone is ahead. -/
inductive Typed (d : Date) (k : Clock) : Int → List Char → Prop
  | mk {offset : Int} {separator : Char} {date hh mm ss fraction zone : List Char}
      (dateForm : DateForm '-' d date) (separated :
        separator = 'T' ∨ separator = 't' ∨ separator = ' ') (hourForm : Digits 2 k.hour hh)
      (minuteForm : Digits 2 k.minute mm) (secondForm : Digits 2 k.second ss)
      (fractionForm : TypedFraction k.nanos fraction) (zoneForm : TypedZone offset zone) :
      Typed d k offset (date ++ separator :: (hh ++ ':' :: (mm ++ ':' :: ss) ++ (fraction ++ zone)))

variable {f g : Fields} {d : Date} {k : Clock} {offset : Int} {s rest : List Char}

theorem ShiftForm.head (form : ShiftForm [':'] offset s) : ∃ t, s = '+' :: t ∨ s = '-' :: t := by
  obtain ⟨⟨-, -⟩, -, -⟩ := form
  split
  · exact ⟨_, .inr rfl⟩
  · exact ⟨_, .inl rfl⟩

theorem TypedZone.stops (form : TypedZone offset s) :
    ∀ c ∈ s.head?, c.isDigit = false ∧ c ≠ '.' := by
  rintro c here
  cases form with
  | universal letter =>
      obtain rfl := Option.some_inj.mp here
      rcases letter with rfl | rfl <;> decide
  | shift form =>
      obtain ⟨t, rfl | rfl⟩ := form.head <;> obtain rfl := Option.some_inj.mp here <;> decide
  | minus form =>
      obtain rfl := Option.some_inj.mp here
      decide

namespace Rfc3339

/-! ### Date and time of day -/

theorem readFrom_ymd_eq_some_iff : (Layout.ymd '-').readFrom {} s = some (g, rest) ↔
    ∃ date year month day, s = date ++ rest ∧ DateForm '-' ⟨(year : Nat), month, day⟩ date ∧
      g = { year := year, month := month, day := day } := by
  constructor
  · intro read
    obtain ⟨w, rfl, written⟩ := Layout.writes_of_readFrom read
    rw [← List.append_nil (Layout.ymd '-')] at written
    obtain ⟨date, _, year, month, day, rfl, form, last⟩ := Layout.writes_ymd_iff.mp written
    obtain ⟨rfl, rfl⟩ := Layout.writes_nil_iff.mp last
    exact ⟨date, year, month, day, by rw [List.append_nil], form, rfl⟩
  · rintro ⟨date, year, month, day, rfl, form, rfl⟩
    exact readFrom_ymd form rest

theorem readFrom_hms_eq_some_iff :
    Layout.readFrom f s [.hour, .lit ':', .minute, .lit ':', .second] = some (g, rest) ↔
      ∃ hh mm ss hour minute second, s = hh ++ ':' :: (mm ++ ':' :: ss) ++ rest ∧ Digits 2 hour hh ∧
        Digits 2 minute mm ∧ Digits 2 second ss ∧
        g = { f with hour := hour, minute := minute, second := second } := by
  constructor
  · intro read
    obtain ⟨w, rfl, written⟩ := Layout.writes_of_readFrom read
    simp only [Layout.writes_lit_cons_iff, Layout.writes_number_cons_iff (p := .hour) rfl,
      Layout.writes_number_cons_iff (p := .minute) rfl,
      Layout.writes_number_cons_iff (p := .second) rfl, Layout.writes_nil_iff] at written
    obtain ⟨hh, _, hour, rfl, hourForm, _, rfl, mm, _, minute, rfl, minuteForm, _, rfl, ss, _,
      second, rfl, secondForm, rfl, rfl⟩ := written
    exact ⟨hh, mm, ss, hour, minute, second, by simp, hourForm, minuteForm, secondForm, rfl⟩
  · rintro ⟨hh, mm, ss, hour, minute, second, rfl, hourForm, minuteForm, secondForm, rfl⟩
    exact readFrom_hms hourForm minuteForm secondForm f rest

/-! ### Fractions of any length -/

/-- Digits after some number bring it up to a place below the next number. -/
theorem bounds_ofDigitChars {digits : List Char} (all : ∀ c ∈ digits, c.isDigit = true) (n : Nat) :
    n * 10 ^ digits.length ≤ Nat.ofDigitChars 10 digits n ∧
      Nat.ofDigitChars 10 digits n < (n + 1) * 10 ^ digits.length := by
  induction digits generalizing n with
  | nil => simp [Nat.ofDigitChars_eq_foldl]
  | cons c digits ih =>
      obtain ⟨first, later⟩ := List.forall_mem_cons.mp all
      have small : c.toNat - '0'.toNat ≤ 9 := by
        simp only [Char.isDigit, Bool.and_eq_true, decide_eq_true_eq, ge_iff_le,
          UInt32.le_iff_toNat_le] at first
        change 48 ≤ c.val.toNat ∧ c.val.toNat ≤ 57 at first
        change c.val.toNat - 48 ≤ 9
        omega
      obtain ⟨least, most⟩ := ih later (10 * n + (c.toNat - '0'.toNat))
      rw [Nat.ofDigitChars_cons, List.length_cons, Nat.pow_succ']
      generalize c.toNat - '0'.toNat = digit at small least most ⊢
      constructor
      · refine Nat.le_trans ?_ least
        rw [← Nat.mul_assoc, Nat.mul_comm n 10]
        exact Nat.mul_le_mul_right _ (Nat.le_add_right _ _)
      · refine Nat.lt_of_lt_of_le most ?_
        rw [← Nat.mul_assoc]
        exact Nat.mul_le_mul_right _ (by omega)

/-- The digits beyond the ninth do not make another nanosecond. -/
theorem nanosOfDigits_take {digits : List Char} (all : ∀ c ∈ digits, c.isDigit = true) :
    nanosOfDigits (digits.take 9) = Decimal.ofDigits digits * 10 ^ 9 / 10 ^ digits.length := by
  rcases Nat.lt_or_ge 9 digits.length with long | short
  · have front : (digits.take 9).length = 9 := List.length_take_of_le (Nat.le_of_lt long)
    have whole : Decimal.ofDigits digits = Nat.ofDigitChars 10 (digits.drop 9)
        (Decimal.ofDigits (digits.take 9)) := by
      change Nat.ofDigitChars 10 digits 0 = _
      conv_lhs => rw [← List.take_append_drop 9 digits]
      exact Nat.ofDigitChars_append 0
    have places : 10 ^ digits.length = 10 ^ (digits.drop 9).length * 10 ^ 9 := by
      rw [← Nat.pow_add, List.length_drop, Nat.sub_add_cancel (Nat.le_of_lt long)]
    have kept : nanosOfDigits (digits.take 9) = Decimal.ofDigits (digits.take 9) := by
      rw [nanosOfDigits, front]
      exact Nat.mul_one _
    have later : ∀ c ∈ digits.drop 9, c.isDigit = true :=
      fun c inside => all c (List.mem_of_mem_drop inside)
    have bounds := bounds_ofDigitChars later (Decimal.ofDigits (digits.take 9))
    rw [kept, whole, places, Nat.mul_div_mul_right _ _ (by decide)]
    exact (Nat.div_eq_of_lt_le bounds.1 bounds.2).symm
  · have equal := (nanosOfDigits_eq_iff short).mpr rfl
    rw [List.take_of_length_le short, ← equal, Nat.mul_div_cancel _ (Nat.pow_pos (by decide))]

theorem typedFraction_of_read (plain : f.nanos = 0) (read : readFraction f s = some (g, rest)) :
    ∃ nanos fraction, s = fraction ++ rest ∧ TypedFraction nanos fraction ∧
    g = { f with nanos := nanos } := by
  rw [readFraction.eq_def] at read
  split at read
  · next t =>
      dsimp only at read
      split at read
      · cases read
      · next filled =>
          cases read
          have all : ∀ c ∈ t.takeWhile Char.isDigit, c.isDigit = true :=
            fun c inside => List.mem_takeWhile_imp inside
          refine ⟨_, '.' :: t.takeWhile Char.isDigit, ?_,
            .some (mt List.isEmpty_iff.mpr filled) all, ?_⟩
          · rw [List.cons_append, List.takeWhile_append_dropWhile]
          · rw [nanosOfDigits_take all]
  · cases read
    exact ⟨0, [], rfl, .none, by rw [← plain]⟩

theorem readFraction_typed {nanos : Nat} {fraction : List Char}
    (form : TypedFraction nanos fraction) (plain : f.nanos = 0)
    (stops : ∀ c ∈ rest.head?, c.isDigit = false ∧ c ≠ '.') :
    readFraction f (fraction ++ rest) = some ({ f with nanos := nanos }, rest) := by
  cases form with
  | none =>
      rw [List.nil_append, readFraction.eq_def, ← plain]
      split
      · exact absurd rfl (stops '.' rfl).2
      · rfl
  | some filled all =>
      next digits =>
      obtain ⟨run, after⟩ := span_append all fun c here => (stops c here).1
      rw [List.cons_append, readFraction, run, after, nanosOfDigits_take all,
        if_neg (mt List.isEmpty_iff.mp filled)]

/-! ### Zones -/

theorem shiftForm_of_read (tells : f.Tells d k 0) (read : readOffset true f s = some (g, []))
    (hour : g.offsetHour < 24) (minute : g.offsetMinute < 60) :
    ∃ offset, ShiftForm [':'] offset s ∧ g.Tells d k offset := by
  obtain ⟨behind, hours, minutes, w, form, rfl, rfl⟩ := readOffset_eq_some_iff.mp read
  rw [List.append_nil]
  exact ⟨_, .mk form hour minute, ⟨tells.date, tells.clock, rfl, hour, minute⟩⟩

theorem readOffset_of_shiftForm (tells : f.Tells d k 0) (form : ShiftForm [':'] offset s) :
    ∃ g, readOffset true f s = some (g, []) ∧ g.Tells d k offset := by
  obtain ⟨form, hour, minute⟩ := form
  exact ⟨_, readOffset_eq_some_iff.mpr ⟨_, _, _, s, form, (List.append_nil s).symm, rfl⟩,
    ⟨tells.date, tells.clock, rfl, hour, minute⟩⟩

theorem typedZone_of_read (tells : f.Tells d k 0) (read : readZone f s = some (g, []))
    (hour : g.offsetHour < 24) (minute : g.offsetMinute < 60) :
    ∃ offset, TypedZone offset s ∧ g.Tells d k offset := by
  rw [readZone.eq_def] at read
  split at read
  · cases read
    exact ⟨0, .universal (.inl rfl), tells⟩
  · cases read
    exact ⟨0, .universal (.inr rfl), tells⟩
  · obtain ⟨offset, form, told⟩ := shiftForm_of_read tells read hour minute
    exact ⟨offset, .minus form, told⟩
  · obtain ⟨offset, form, told⟩ := shiftForm_of_read tells read hour minute
    exact ⟨offset, .shift form, told⟩

theorem readZone_of_typedZone (tells : f.Tells d k 0) (form : TypedZone offset s) :
    ∃ g, readZone f s = some (g, []) ∧ g.Tells d k offset := by
  cases form with
  | universal letter => rcases letter with rfl | rfl <;> exact ⟨f, rfl, tells⟩
  | shift form =>
      obtain ⟨g, read, told⟩ := readOffset_of_shiftForm tells form
      refine ⟨g, ?_, told⟩
      obtain ⟨t, rfl | rfl⟩ := form.head <;> exact read
  | minus form => exact readOffset_of_shiftForm tells form

/-! ### The whole form -/

/-- What comes after the character between date and time of day. -/
def afterSeparator : List Char → Option (List Char)
  | c :: s => if isSeparator c then some s else none
  | [] => none

theorem read_eq (s : List Char) : read s =
    (Layout.readFrom {} s (Layout.ymd '-')).bind fun date => (afterSeparator date.2).bind fun s =>
      (Layout.readFrom date.1 s [.hour, .lit ':', .minute, .lit ':', .second]).bind fun clock =>
        (readFraction clock.1 clock.2).bind fun fraction =>
        (readZone fraction.1 fraction.2).bind fun zone =>
          if zone.2.isEmpty then some zone.1 else none := by
  rw [read]
  cases Layout.readFrom {} s (Layout.ymd '-') with
  | none => rfl
  | some date =>
      obtain ⟨f, s⟩ := date
      dsimp only [Option.bind_some, bind, Option.bind]
      cases s with
      | nil => rfl
      | cons c s =>
          rw [afterSeparator]
          dsimp only
          split <;> rfl

theorem afterSeparator_eq_some_iff :
    afterSeparator s = some rest ↔ ∃ c, s = c :: rest ∧ (c = 'T' ∨ c = 't' ∨ c = ' ') := by
  have separates (c : Char) : isSeparator c = true ↔ c = 'T' ∨ c = 't' ∨ c = ' ' := by
    simp [isSeparator, or_assoc]
  simp only [← separates]
  constructor
  · intro read
    cases s with
    | nil => cases read
    | cons c s =>
        rw [afterSeparator] at read
        split at read
        · next separator =>
            cases read
            exact ⟨c, rfl, separator⟩
        · cases read
  · rintro ⟨c, rfl, separator⟩
    exact if_pos separator

/-- The reader takes the texts of the grammar, and finds in them what they say. -/
theorem exists_read_iff_typed :
    (∃ f, read s = some f ∧ f.Tells d k offset) ↔ Typed d k offset s := by
  simp only [read_eq, Option.bind_eq_some_iff, Prod.exists]
  constructor
  · rintro ⟨f, ⟨f₁, s₁, date, s₂, separator, f₂, s₃, clock, f₃, s₄, fraction, g, s₅, zone, done⟩,
      told⟩
    split at done
    · next ended =>
        obtain rfl := List.isEmpty_iff.mp ended
        obtain rfl := Option.some.inj done
        obtain ⟨date, year, month, day, rfl, dateForm, rfl⟩ := readFrom_ymd_eq_some_iff.mp date
        obtain ⟨c, rfl, separated⟩ := afterSeparator_eq_some_iff.mp separator
        obtain ⟨hh, mm, ss, hour, minute, second, rfl, hourForm, minuteForm, secondForm, rfl⟩ :=
          readFrom_hms_eq_some_iff.mp clock
        obtain ⟨nanos, fraction, rfl, fractionForm, rfl⟩ := typedFraction_of_read rfl fraction
        have tells := Fields.tells_shown year month day ⟨hour, minute, second, nanos⟩
        obtain ⟨other, zoneForm, shown⟩ := typedZone_of_read tells zone told.hour told.minute
        obtain rfl := told.date.symm.trans shown.date
        obtain rfl := told.clock.symm.trans shown.clock
        obtain rfl := told.offset.symm.trans shown.offset
        exact .mk dateForm separated hourForm minuteForm secondForm fractionForm zoneForm
    · cases done
  · intro typed
    obtain ⟨dateForm, separated, hourForm, minuteForm, secondForm, fractionForm, zoneForm⟩ := typed
    obtain ⟨year, month, day⟩ := d
    obtain ⟨year, rfl⟩ := dateForm.exists_year
    obtain ⟨g, zone, told⟩ := readZone_of_typedZone (Fields.tells_shown year month day k) zoneForm
    exact ⟨g, ⟨_, _, readFrom_ymd dateForm _, _, afterSeparator_eq_some_iff.mpr ⟨_, rfl, separated⟩,
      _, _, readFrom_hms hourForm minuteForm secondForm _ _, _, _,
      readFraction_typed fractionForm rfl zoneForm.stops, g, [], zone, rfl⟩, told⟩

/-- The reader gives the instant at which the date and the time of day are shown, if they exist. -/
theorem instant?_eq_some_iff_typed {t : Instant} : instant? s = some t ↔
    ∃ d k offset, Typed d k offset s ∧ d.Valid ∧ k.Valid ∧ Stamp.ShownAt d k offset t := by
  rw [instant?]
  constructor
  · intro found
    split at found
    · next f read =>
        rw [Fields.instant?] at found
        split at found
        · next valid =>
            obtain ⟨date, clock, hour, minute⟩ := valid
            exact ⟨_, _, _, exists_read_iff_typed.mp ⟨f, read, rfl, rfl, rfl, hour, minute⟩, date,
              clock, (Stamp.shownAt_iff date clock).mpr (Option.some.inj found)⟩
        · cases found
    · cases found
  · rintro ⟨d, k, offset, typed, date, clock, shown⟩
    obtain ⟨f, read, rfl, rfl, rfl, hour, minute⟩ := exists_read_iff_typed.mpr typed
    rw [read]
    dsimp only
    rw [Fields.instant?, if_pos ⟨date, clock, hour, minute⟩,
      (Stamp.shownAt_iff date clock).mp shown]

end Rfc3339

end FleetBoard.Time

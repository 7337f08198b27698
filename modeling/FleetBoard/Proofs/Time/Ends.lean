import FleetBoard.Proofs.Time.Written
import Mathlib

/-!
# Where a written time ends

A written time ends with a digit or a letter, and no time goes on behind it with a bracket, a space
or a tab: where a text begins with a time and one of these, the whole text is no time in any layout.
To see this, the layout of the one, with the character behind it, is compared with the layout of the
other.
-/

namespace FleetBoard.Time

variable {d e : Date} {k j : Clock} {offset shift : Int} {s w rest : List Char} {c : Char}

/-! ### The last character -/

/-- A text that ends with a digit or a letter. -/
def EndsPlain (s : List Char) : Prop := ∃ front c, s = front ++ [c] ∧ c.isAlphanum = true

theorem EndsPlain.prepend (ends : EndsPlain s) (w : List Char) : EndsPlain (w ++ s) := by
  obtain ⟨front, c, rfl, plain⟩ := ends
  exact ⟨w ++ front, c, (List.append_assoc ..).symm, plain⟩

theorem EndsPlain.cons (ends : EndsPlain s) (c : Char) : EndsPlain (c :: s) := ends.prepend [c]

theorem endsPlain_of_digits (filled : s ≠ []) (digits : ∀ c ∈ s, c.isDigit = true) :
    EndsPlain s := by
  refine ⟨s.dropLast, s.getLast filled, (List.dropLast_concat_getLast filled).symm, ?_⟩
  rw [Char.isAlphanum, digits _ (List.getLast_mem filled), Bool.or_true]

theorem Digits.endsPlain {width n : Nat} (form : Digits (width + 1) n s) : EndsPlain s := by
  refine endsPlain_of_digits ?_ form.digits
  rintro rfl
  cases form.width

theorem ClockForm.endsPlain (form : ClockForm k s) : EndsPlain s := by
  obtain ⟨-, -, second, fraction⟩ := form
  refine (EndsPlain.cons (EndsPlain.prepend (EndsPlain.cons ?_ ':') _) ':').prepend _
  generalize k.nanos = nanos at fraction
  cases fraction with
  | none =>
      rw [List.append_nil]
      exact second.endsPlain
  | some digit first =>
      have filled := List.length_pos_iff.mp first
      exact ((endsPlain_of_digits filled digit).cons '.').prepend _

theorem OffsetForm.endsPlain {between : List Char} {behind : Bool} {hours minutes : Nat}
    (form : OffsetForm between behind hours minutes s) : EndsPlain s := by
  obtain ⟨-, minute⟩ := form
  exact ((minute.endsPlain.prepend _).prepend _).cons _

theorem ShiftForm.endsPlain {between : List Char} (form : ShiftForm between offset s) :
    EndsPlain s := by
  obtain ⟨form, -, -⟩ := form
  exact form.endsPlain

theorem YearForm.endsPlain {year : Int} (form : YearForm year s) : EndsPlain s := by
  obtain ⟨n, -, form⟩ := form
  exact form.endsPlain

/-- However a time is written, it ends with a digit or a letter. -/
theorem Written.endsPlain (written : Written d k offset s) : EndsPlain s := by
  cases written with
  | iso dateForm clockForm zoneForm =>
      refine (EndsPlain.cons ?_ 'T').prepend _
      cases zoneForm with
      | bare =>
          rw [List.append_nil]
          exact clockForm.endsPlain
      | universal => exact ⟨_, 'Z', rfl, rfl⟩
      | colon form | plain form => exact form.endsPlain.prepend _
  | spaced dateForm clockForm | slashed dateForm clockForm =>
      exact (clockForm.endsPlain.cons ' ').prepend _
  | commonLog dayForm monthForm yearForm clockForm zoneForm =>
      apply_rules [EndsPlain.prepend, EndsPlain.cons, zoneForm.endsPlain]
  | ansiC weekdayForm monthForm dayForm clockForm yearForm
  | unixDate weekdayForm monthForm dayForm clockForm zoneForm yearForm
  | rubyDate weekdayForm monthForm dayForm clockForm zoneForm yearForm =>
      apply_rules [EndsPlain.prepend, EndsPlain.cons, yearForm.endsPlain]

/-! ### No comma -/

theorem comma_not_mem_digits (digits : ∀ c ∈ s, c.isDigit = true) : ',' ∉ s := by
  intro inside
  cases digits ',' inside

theorem NameForm.comma_not_mem {names : List String} {place : Nat}
    (lower : (names.all fun name => name.toList.all Char.isLower) = true)
    (form : NameForm names place s) :
    ',' ∉ s := by
  intro inside
  have letters := List.all_eq_true.mp lower _ (List.mem_of_getElem? form.found)
  rw [String.toList_ofList] at letters
  cases List.all_eq_true.mp letters _ (List.mem_map_of_mem inside)

theorem OffsetForm.comma_not_mem {between : List Char} {behind : Bool} {hours minutes : Nat}
    (form : OffsetForm between behind hours minutes s) (other : ',' ∉ between) : ',' ∉ s := by
  obtain ⟨hour, minute⟩ := form
  simp only [List.mem_cons, List.mem_append, not_or]
  exact ⟨by cases behind <;> decide, comma_not_mem_digits hour.digits, other,
    comma_not_mem_digits minute.digits⟩

/-- A piece writes no comma, unless it is one. -/
theorem Piece.comma_not_mem {p : Piece} {f g : Fields} (other : p ≠ .lit ',')
    (written : p.Writes f w g) : ',' ∉ w := by
  cases written with
  | lit c =>
      rw [List.mem_singleton]
      rintro rfl
      exact other rfl
  | number kind form => exact comma_not_mem_digits form.digits
  | noFraction => exact List.not_mem_nil
  | fraction form =>
      obtain ⟨⟩ | ⟨digit⟩ := form
      exact List.not_mem_cons_of_ne_of_not_mem (by decide) (comma_not_mem_digits digit)
  | monthName form => exact form.comma_not_mem (by decide)
  | weekday form => exact form.comma_not_mem (by decide)
  | looseDay form =>
      cases form with
      | one bounds number =>
          exact List.not_mem_cons_of_ne_of_not_mem (by decide) (comma_not_mem_digits number.digits)
      | two bounds number =>
          exact List.not_mem_cons_of_ne_of_not_mem (by decide)
            (List.not_mem_cons_of_ne_of_not_mem (by decide) (comma_not_mem_digits number.digits))
  | zoneName form =>
      intro inside
      cases form.capitals ',' inside
  | offset form => exact form.comma_not_mem List.not_mem_nil
  | offsetColon form => exact form.comma_not_mem (by decide)

theorem Layout.comma_not_mem {l : Layout} {f g : Fields} (others : .lit ',' ∉ l)
    (written : l.Writes f s g) :
    ',' ∉ s := by
  induction written with
  | nil => exact List.not_mem_nil
  | cons first later ih =>
      rw [List.mem_cons, not_or] at others
      rw [List.mem_append, not_or]
      exact ⟨Piece.comma_not_mem (Ne.symm others.1) first, ih others.2⟩

/-- No time is written with a comma. -/
theorem Written.comma_not_mem (written : Written d k offset s) : ',' ∉ s := by
  have others : ∀ l ∈ Layout.ofLogs, Piece.lit ',' ∉ l := by decide
  obtain ⟨l, inside, f, writes, -⟩ := Layout.exists_layout_of_written written
  exact Layout.comma_not_mem (others l inside) writes

/-! ### Nothing goes on -/

def stops : List Char := ['[', ']', '(', ')', '\x7b', '\x7d', '<', '>', ' ', '\t']

/-- No time begins with another one that ends before a bracket, a space or a tab. -/
theorem Written.not_longer (written : Written d k offset s) (stop : c ∈ stops)
    (longer : Written e j shift (s ++ c :: rest)) : False := by
  have ends : stops.all (fun c =>
      Layout.ofLogs.all fun l => Layout.isSeparated (l ++ [.lit c])) = true := by
    decide
  have apart : stops.all (fun c => Layout.ofLogs.all fun l => Layout.ofLogs.all fun m =>
      Layout.isApart (Layout.loosen (l ++ [.lit c])) m.loosen &&
        !(Layout.loosen (l ++ [.lit c])).isPrefixOf m.loosen) = true := by
    decide
  obtain ⟨l, inside, f, writes, -⟩ := Layout.exists_layout_of_written written
  obtain ⟨m, among, g, whole, -⟩ := Layout.exists_layout_of_written longer
  have front :=
    Layout.readFrom_append_lit (List.all_eq_true.mp (List.all_eq_true.mp ends c stop) l inside)
    writes rest
  have all := Layout.readFrom_of_writes (Layout.isSeparated_of_mem_ofLogs m among) whole
  have pair :=
    List.all_eq_true.mp (List.all_eq_true.mp (List.all_eq_true.mp apart c stop) l inside) m among
  rw [Bool.and_eq_true, Bool.not_eq_true'] at pair
  have begins :=
    (Layout.prefix_of_reads pair.1 (Layout.readFrom_loosen front) (Layout.readFrom_loosen all)).1
  rw [← List.isPrefixOf_iff_prefix, pair.2] at begins
  cases begins

end FleetBoard.Time

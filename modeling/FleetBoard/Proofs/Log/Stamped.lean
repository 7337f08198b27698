import FleetBoard.Log.Entry
import FleetBoard.Proofs.Log.LongestPrefix
import FleetBoard.Proofs.Text.Words
import FleetBoard.Proofs.Time.Ends

/-!
# A stamped line is its timestamp and its message

A line that begins with a timestamp, perhaps in brackets, and goes on after a space or a tab with a
message is classified by the two: the message has no part in the timestamp, whatever it holds. For a
longer beginning of the line to be a timestamp, its core would have to be a time that goes on with
the bracket or the space behind it. What is dropped between the two are blanks and brackets, and
these are no part of a word, so the level is that of the message.
-/

namespace FleetBoard

open Time

namespace Stamp

open Text (isBlank isBlank_of_isAlphanum Trims trims_iff utf8 utf8_append IsBoundary isBoundary_iff)

variable {t u : Instant} {r s w₁ w₂ y z line p q more after separator : List Char} {c : Char}
    {e d : Nat}

/-- A text that writes an instant in one of the ways, perhaps with a comma before the fraction of
the second. -/
inductive Renders (t : Instant) (r : List Char) : Prop
  | mk {s : List Char} {d : Date} {k : Clock} {offset : Int} (comma : PointForComma r s)
      (written : Written d k offset s) (date : d.Valid) (clock : k.Valid)
      (shown : ShownAt d k offset t)

/-- A timestamp without blanks and brackets around it is a text that writes an instant. -/
theorem renders_of_parse (plain : Text.trim r = r) (bare : Text.trimBy isBracket r = r)
    (found : parse r = some t) :
    Renders t r := by
  obtain ⟨s, d, k, offset, core, written, date, clock, shown⟩ := parse_eq_some_iff.mp found
  refine ⟨?_, written, date, clock, shown⟩
  rw [pointForComma_iff, ← core_iff.mp core, Stamp.core, plain, bare]

/-! ### Characters around a time -/

/-- A bracket is neither a blank nor part of a time, and may stand behind one. -/
theorem isBracket_spec (bracket : isBracket c = true) :
    isBlank c = false ∧ c.isAlphanum = false ∧ c ∈ stops := by
  have all : ("[]()\x7b\x7d<>".toList.all fun c =>
      !isBlank c && !c.isAlphanum && stops.contains c) = true := by
    decide
  have this := List.all_eq_true.mp all c (List.contains_iff_mem.mp bracket)
  rw [Bool.and_eq_true, Bool.and_eq_true, Bool.not_eq_true', Bool.not_eq_true',
    List.contains_iff_mem] at this
  exact ⟨this.1.1, this.1.2, this.2⟩

theorem isBracket_of_isAlphanum (alphanum : c.isAlphanum = true) : isBracket c = false := by
  rw [← Bool.not_eq_true]
  intro bracket
  rw [(isBracket_spec bracket).2.1] at alphanum
  cases alphanum

/-- What separates a timestamp from its message is a blank and no bracket. -/
theorem separator_spec (separates : c = ' ' ∨ c = '\t') :
    isBlank c = true ∧ isBracket c = false ∧ c ∈ stops := by
  cases separates with
  | inl space => subst space; decide
  | inr tab => subst tab; decide

theorem isDigit_of_mem_stops (stop : c ∈ stops) : c.isDigit = false := by
  have none : (stops.all fun c => !c.isDigit) = true := by decide
  simpa using List.all_eq_true.mp none c stop

/-! ### A time in brackets -/

theorem Renders.exists_head (renders : Renders t r) :
    ∃ c rest, r = c :: rest ∧ c.isAlphanum = true := by
  obtain ⟨comma, written, -, -, -⟩ := renders
  exact comma.exists_head written

theorem Renders.endsPlain (renders : Renders t r) : EndsPlain r := by
  obtain ⟨comma, written, -, -, -⟩ := renders
  cases comma with
  | point first nonempty digits => exact ((endsPlain_of_digits nonempty digits).cons ',').prepend _
  | same => exact written.endsPlain

theorem Renders.exists_first (renders : Renders t r) (opening : ∀ c ∈ w₁, isBracket c = true)
    (w₂ : List Char) :
    ∃ c rest, w₁ ++ (r ++ w₂) = c :: rest ∧ isBlank c = false := by
  cases w₁ with
  | nil =>
      obtain ⟨c, rest, rfl, head⟩ := renders.exists_head
      exact ⟨c, rest ++ w₂, rfl, isBlank_of_isAlphanum head⟩
  | cons c w₁ => exact ⟨c, w₁ ++ (r ++ w₂), rfl, (isBracket_spec (opening c List.mem_cons_self)).1⟩

/-- Blanks behind a time in brackets, and behind what else is there, are trimmed. -/
theorem Renders.trims_isBlank (renders : Renders t r) (opening : ∀ c ∈ w₁, isBracket c = true)
    (closing : ∀ c ∈ w₂, isBracket c = true) (last : ∀ c ∈ z.getLast?, isBlank c = false)
    (blank : ∀ c ∈ after, isBlank c = true) :
    Trims isBlank (w₁ ++ (r ++ w₂) ++ (z ++ after)) (w₁ ++ (r ++ w₂) ++ z) := by
  refine ⟨⟨[], after, by simp, List.forall_mem_nil _, blank⟩, ?_, ?_⟩
  · obtain ⟨c, more, start, solid⟩ := renders.exists_first opening w₂
    rw [start]
    rintro x ⟨⟩
    exact solid
  · obtain ⟨front, c, rfl, tail⟩ := renders.endsPlain
    apply Text.forall_getLast?_append _ last
    rw [← List.append_assoc, ← List.append_assoc]
    apply Text.forall_getLast?_append
    · rw [List.getLast?_concat]
      rintro x ⟨⟩
      exact isBlank_of_isAlphanum tail
    · exact fun x final => (isBracket_spec (closing x (List.mem_of_getLast? final))).1

/-- Brackets around a time, and around what else is there, are stripped. -/
theorem Renders.trims_isBracket (renders : Renders t r) (opening : ∀ c ∈ w₁, isBracket c = true)
    (last : ∀ c ∈ z.getLast?, isBracket c = false) (closing : ∀ c ∈ after, isBracket c = true) :
    Trims isBracket (w₁ ++ (r ++ (z ++ after))) (r ++ z) := by
  refine ⟨⟨w₁, after, by simp, opening, closing⟩, ?_, ?_⟩
  · obtain ⟨c, rest, rfl, head⟩ := renders.exists_head
    rintro x ⟨⟩
    exact isBracket_of_isAlphanum head
  · obtain ⟨front, c, rfl, tail⟩ := renders.endsPlain
    apply Text.forall_getLast?_append _ last
    rw [List.getLast?_concat]
    rintro x ⟨⟩
    exact isBracket_of_isAlphanum tail

/-- Blanks behind a time in brackets belong to the timestamp. -/
theorem Renders.parse_blanks (renders : Renders t r) (opening : ∀ c ∈ w₁, isBracket c = true)
    (closing : ∀ c ∈ w₂, isBracket c = true) (blank : ∀ c ∈ y, isBlank c = true) :
    parse (w₁ ++ (r ++ w₂) ++ y) = some t := by
  have plain := renders.trims_isBlank opening closing (z := []) nofun blank
  have bare := renders.trims_isBracket opening (z := []) nofun closing
  rw [List.nil_append, List.append_nil] at plain bare
  obtain ⟨comma, written, date, clock, shown⟩ := renders
  exact parse_eq_some_iff.mpr ⟨_, _, _, _, ⟨_, _, plain, bare, comma⟩, written, date, clock, shown⟩

/-- A time does not go on with a bracket or a separator and more, not even where a comma behind it
becomes a point. -/
theorem Renders.not_longer (renders : Renders t r) (stop : c ∈ stops)
    (form : PointForComma (r ++ c :: more) s) {d : Date} {k : Clock} {offset : Int}
    (longer : Written d k offset s) : False := by
  obtain ⟨comma, written, -, -, -⟩ := renders
  generalize whole : r ++ c :: more = bare at form
  cases form with
  | @point before after first nonempty digits =>
      obtain ⟨x, rfl, tail⟩ | ⟨x, rfl, tail⟩ := List.append_eq_append_iff.mp whole
      · -- The comma stands behind the time, and there is none in it.
        rw [List.mem_append, not_or] at first
        cases x with
        | nil =>
            cases tail
            exact absurd stop (by decide)
        | cons x later =>
            obtain ⟨rfl, -⟩ := List.cons.inj tail
            rw [List.append_assoc] at longer
            cases comma with
            | point => exact first.1 (by simp)
            | same => exact written.not_longer stop longer
      · -- The comma is the time's own, and not only digits follow it.
        have inside : c ∈ ',' :: after := by
          rw [tail]
          exact List.mem_append_right x List.mem_cons_self
        cases List.mem_cons.mp inside with
        | inl same =>
            subst same
            exact absurd stop (by decide)
        | inr later =>
            have digit := digits c later
            rw [isDigit_of_mem_stops stop] at digit
            cases digit
  | same =>
      subst whole
      cases comma with
      | point => exact longer.comma_not_mem (by simp)
      | same => exact written.not_longer stop longer

/-- What a timestamp has behind a time in brackets and a separator is blank. -/
theorem Renders.blank_of_parse (renders : Renders t r) (opening : ∀ c ∈ w₁, isBracket c = true)
    (closing : ∀ c ∈ w₂, isBracket c = true) (separates : ∀ c ∈ y.head?, c = ' ' ∨ c = '\t')
    (found : parse (w₁ ++ (r ++ w₂) ++ y) = some u) : ∀ c ∈ y, isBlank c = true := by
  obtain ⟨after, split, blank, last⟩ := Text.dropTail_spec (p := isBlank) y
  generalize Text.dropTail isBlank y = z at split last
  subst split
  cases z with
  | nil => exact blank
  | cons c z =>
      exfalso
      obtain ⟨-, other, stop⟩ := separator_spec (separates c rfl)
      obtain ⟨s, d, k, offset, ⟨plain, bare, blanks, brackets, form⟩, written, -⟩ :=
        parse_eq_some_iff.mp found
      have trimmed := renders.trims_isBlank opening closing last blank
      obtain rfl := (trims_iff.mp blanks).symm.trans (trims_iff.mp trimmed)
      obtain ⟨back, cut, gone, final⟩ := Text.dropTail_spec (p := isBracket) (c :: z)
      generalize Text.dropTail isBracket (c :: z) = v at cut final
      cases v with
      | nil =>
          -- The separator itself is no bracket.
          have bracket := gone c (by rw [← List.nil_append back, ← cut]; exact List.mem_cons_self)
          rw [other] at bracket
          cases bracket
      | cons b v =>
          obtain ⟨rfl, rfl⟩ := List.cons.inj cut
          have stripped := renders.trims_isBracket opening (Text.last_append_cons final w₂) gone
          rw [List.append_assoc, ← List.append_assoc r, ← List.append_assoc w₁] at stripped
          obtain rfl := (trims_iff.mp brackets).symm.trans (trims_iff.mp stripped)
          cases w₂ with
          | nil => exact renders.not_longer stop form written
          | cons b w₂ =>
              exact renders.not_longer (isBracket_spec (closing b List.mem_cons_self)).2.2 form
                written

/-! ### Lines -/

theorem Tried.of_begins (begins : p <+: line) (filled : p ≠ []) (short : (utf8 p).length ≤ window) :
    Tried line (utf8 p).length p := by
  obtain ⟨rest, rfl⟩ := begins
  refine ⟨isBoundary_iff.mpr ⟨p, rest, rfl, rfl⟩, ?_, ?_, ?_⟩
  · rw [utf8_append, List.take_left]
  · cases p with
    | nil => exact absurd rfl filled
    | cons c p =>
        obtain ⟨b, more, bytes, -⟩ := Text.utf8Char_eq_cons c
        rw [Text.utf8_cons, bytes]
        exact Nat.succ_pos _
  · rw [utf8_append, List.length_append]
    exact Nat.le_min.mpr ⟨short, Nat.le_add_right ..⟩

/-- Of two beginnings of a line, the one with fewer bytes is a beginning of the other. -/
theorem Tried.prefix_of_le (one : Tried line e p) (other : Tried line d q) (le : e ≤ d) :
    p <+: q := by
  obtain short | long := List.prefix_or_prefix_of_prefix one.prefix other.prefix
  · exact short
  · obtain ⟨more, rfl⟩ := long
    have bytes := congrArg List.length one.bytes
    have most := one.most
    have least := congrArg List.length other.bytes
    rw [utf8_append, List.length_append, List.length_take] at bytes
    rw [List.length_take] at least
    have same : e = d := by
      have bound := other.most
      omega
    subst same
    rw [one.unique other]

/-- What is more than the stamp begins with the separator. -/
theorem head_separates (filled : separator ≠ []) (separates : ∀ c ∈ separator, c = ' ' ∨ c = '\t')
    (begins : y <+: separator ++ p) : ∀ c ∈ y.head?, c = ' ' ∨ c = '\t' := by
  obtain ⟨space, spaces, rfl⟩ := List.exists_cons_of_ne_nil filled
  intro b first
  obtain ⟨later, rfl⟩ := List.head?_eq_some_iff.mp first
  obtain ⟨rfl, -⟩ := List.cons_prefix_cons.mp begins
  exact separates b List.mem_cons_self

/-- The timestamp of a stamped line, and what is left behind it. -/
theorem extract_stamped (renders : Renders t r) (opening : ∀ c ∈ w₁, isBracket c = true)
    (closing : ∀ c ∈ w₂, isBracket c = true) (short : (utf8 (w₁ ++ (r ++ w₂))).length ≤ window)
    (filled : separator ≠ []) (separates : ∀ c ∈ separator, c = ' ' ∨ c = '\t')
    (message : List Char) :
    extract (w₁ ++ (r ++ w₂) ++ (separator ++ message)) =
      (some t, (Text.trim message).dropWhile isLead) := by
  have alone := renders.parse_blanks opening closing (List.forall_mem_nil _)
  rw [List.append_nil] at alone
  obtain ⟨c, more, start, -⟩ := renders.exists_first opening w₂
  have separated : Text.trim (separator ++ message) = Text.trim message := by
    have blanks : ∀ c ∈ separator, isBlank c = true :=
      fun c inside => (separator_spec (separates c inside)).1
    have around := Text.trimBy_surround blanks (List.forall_mem_nil _) message
    rwa [List.append_nil] at around
  obtain ⟨after, split, blank, last⟩ := Text.dropTail_spec (p := isBlank) (separator ++ message)
  generalize Text.dropTail isBlank (separator ++ message) = z at split last
  have whole := renders.trims_isBlank opening closing last blank
  rw [← split] at whole
  have own : Tried (w₁ ++ (r ++ w₂) ++ z) _ _ :=
    .of_begins (List.prefix_append (w₁ ++ (r ++ w₂)) z)
      (by rw [start]; exact List.cons_ne_nil c more) short
  have found := extracts_extract (w₁ ++ (r ++ w₂) ++ (separator ++ message))
  generalize extract (w₁ ++ (r ++ w₂) ++ (separator ++ message)) = result at found
  cases found with
  | plain trims missing =>
      obtain rfl := (trims_iff.mp trims).symm.trans (trims_iff.mp whole)
      rw [missing _ _ own] at alone
      cases alone
  | @stamped line p rest left u e trims tried cut stamp longest leaves =>
      obtain rfl := (trims_iff.mp trims).symm.trans (trims_iff.mp whole)
      have reaches : (utf8 (w₁ ++ (r ++ w₂))).length ≤ e := by
        by_contra shorter
        rw [longest _ _ own (Nat.lt_of_not_le shorter)] at alone
        cases alone
      obtain ⟨y, rfl⟩ := own.prefix_of_le tried reaches
      obtain rfl := List.append_cancel_left (cut.trans (List.append_assoc ..))
      have begins : y <+: separator ++ message := by
        rw [split, List.append_assoc]
        exact List.prefix_append y (rest ++ after)
      have gone :=
        renders.blank_of_parse opening closing (head_separates filled separates begins) stamp
      have same : some t = some u := (renders.parse_blanks opening closing gone).symm.trans stamp
      have message' : Text.trim rest = Text.trim message := by
        rw [← separated, split, List.append_assoc]
        exact (Text.trimBy_surround gone blank rest).symm
      rw [← same, ← leavesMessage_iff.mp leaves, message']

/-! ### Words -/

theorem isWordChar_of_isLead (lead : isLead c = true) : Text.isWordChar c = false := by
  have none : (")]\x7d> \t".toList.all fun c => !Text.isWordChar c) = true := by decide +kernel
  have this := List.all_eq_true.mp none c (List.contains_iff_mem.mp lead)
  rwa [Bool.not_eq_true'] at this

/-- What is dropped before a message has no part in its words. -/
theorem words_message (message : List Char) :
    Text.words ((Text.trim message).dropWhile isLead) = Text.words message := by
  have lead : Text.IsGap ((Text.trim message).takeWhile isLead) :=
    fun c inside => isWordChar_of_isLead (List.mem_takeWhile_imp inside)
  rw [← Text.words_gap_append lead, List.takeWhile_append_dropWhile]
  have trims : Trims isBlank message (Text.trim message) := trims_iff.mpr rfl
  generalize Text.trim message = plain at trims
  obtain ⟨⟨before, after, rfl, left, right⟩, -, -⟩ := trims
  rw [Text.words_gap_append fun c inside => Text.isWordChar_of_isBlank (left c inside),
    Text.words_append_gap fun c inside => Text.isWordChar_of_isBlank (right c inside)]

end Stamp

namespace LogEntry

open Stamp

variable {t : Instant} {r w₁ w₂ separator : List Char}

/-- A line with a stamp is classified as its message is, and its timestamp is the stamp's, whatever
the message holds: of the beginnings of the line that reach to the end of the stamp, just those are
timestamps that have only blanks behind it, and all of these say the same instant. -/
theorem classify_stamped (renders : Renders t r) (opening : ∀ c ∈ w₁, isBracket c = true)
    (closing : ∀ c ∈ w₂, isBracket c = true) (short : (Text.utf8 (w₁ ++ (r ++ w₂))).length ≤ window)
    (filled : separator ≠ []) (separates : ∀ c ∈ separator, c = ' ' ∨ c = '\t')
    (message : List Char) (channel : Channel) :
    classify channel (String.ofList (w₁ ++ (r ++ w₂) ++ (separator ++ message))) =
        { timestamp := some t
          level := Level.detect message
          message := String.ofList (Escapes.clean ((Text.trim message).dropWhile isLead))
          channel := channel
          raw := String.ofList (w₁ ++ (r ++ w₂) ++ (separator ++ message)) } ∧
      ∀ y, y <+: separator ++ message → ∀ u, parse (w₁ ++ (r ++ w₂) ++ y) = some u ↔
        u = t ∧ ∀ c ∈ y, Text.isBlank c = true := by
  constructor
  · have level := congrArg Level.ofWords (words_message message)
    rw [classify, String.toList_ofList,
      extract_stamped renders opening closing short filled separates]
    rw [← Level.detect, ← Level.detect] at level
    simp only [level]
  · intro y begins u
    constructor
    · intro found
      have gone :=
        renders.blank_of_parse opening closing (head_separates filled separates begins) found
      exact ⟨Option.some.inj (found.symm.trans (renders.parse_blanks opening closing gone)), gone⟩
    · rintro ⟨rfl, blank⟩
      exact renders.parse_blanks opening closing blank

def commaStamp : List Char := "2024-01-01 00:00:00,5".toList

/-- A message that begins with what could be an offset and another time. -/
def timedMessage : List Char := "+01:00] 2025-02-03T04:05:06Z ERROR [x".toList

/-- The offset belongs to the message. -/
theorem classify_stamped_comma :
    (Renders ⟨1704067200, 500_000_000⟩ commaStamp ∧
      classify .stderr "[(2024-01-01 00:00:00,5)] \t+01:00] 2025-02-03T04:05:06Z ERROR [x" =
        { timestamp := some ⟨1704067200, 500_000_000⟩
          level := .error
          message := "+01:00] 2025-02-03T04:05:06Z ERROR [x"
          channel := .stderr
          raw := "[(2024-01-01 00:00:00,5)] \t+01:00] 2025-02-03T04:05:06Z ERROR [x" }) ∧
      parse "[(2024-01-01 00:00:00,5)] \t+01:00".toList = none := by
  have renders : Renders ⟨1704067200, 500_000_000⟩ commaStamp :=
    renders_of_parse (by decide +kernel) (by decide +kernel) (by decide +kernel)
  obtain ⟨classified, others⟩ := @classify_stamped _ _ "[(".toList ")]".toList " \t".toList renders
    (List.all_eq_true.mp (by decide)) (List.all_eq_true.mp (by decide)) (by decide +kernel)
    (by decide) (by simp)
    timedMessage .stderr
  refine ⟨⟨renders, ?_⟩, ?_⟩
  · have level : Level.detect timedMessage = .error := by decide +kernel
    have cleaned : Escapes.clean ((Text.trim timedMessage).dropWhile isLead) = timedMessage := by
      decide +kernel
    rw [level, cleaned] at classified
    exact classified
  · rw [← Option.not_isSome_iff_eq_none, Option.isSome_iff_exists]
    rintro ⟨u, found⟩
    have blank := ((others " \t+01:00".toList (by decide) u).mp found).2 '+' (by decide)
    exact absurd blank (by decide)

end LogEntry

end FleetBoard

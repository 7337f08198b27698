import FleetBoard.Proofs.Log.Timestamps
import FleetBoard.Proofs.Text.Boundary
import Mathlib

/-!
# The timestamp of a line is its longest

A line is searched for a timestamp in every beginning that ends between two characters, up to a
number of bytes, and the longest that is a timestamp counts. The search stops before it begins where
the first character behind brackets is neither a digit nor a letter of ASCII. It loses nothing by
that: however a timestamp is written, it begins with one of these, and what may stand before it are
brackets alone.
-/

namespace FleetBoard.Time

theorem Digits.exists_head {width n : Nat} {s : List Char} (form : Digits (width + 1) n s) :
    ∃ c rest, s = c :: rest ∧ c.isAlphanum = true := by
  obtain ⟨long, digits, -⟩ := form
  cases s with
  | nil => cases long
  | cons c rest =>
      refine ⟨c, rest, rfl, ?_⟩
      rw [Char.isAlphanum, digits c List.mem_cons_self, Bool.or_true]

theorem WeekdayForm.exists_head {s : List Char} (form : WeekdayForm s) :
    ∃ c rest, s = c :: rest ∧ c.isAlphanum = true := by
  have letters : ∀ name ∈ weekdayNames, name.toList.all Char.isLower := by decide
  obtain ⟨place, long, found⟩ := form
  cases s with
  | nil => cases long
  | cons c rest =>
      refine ⟨c, rest, rfl, ?_⟩
      have lower := List.all_eq_true.mp (letters _ (List.mem_of_getElem? found)) c.toLower (by simp)
      rw [Char.isAlphanum, ← Char.isLower_toLower_eq_isAlpha, lower, Bool.true_or]

/-- However a time is written, a digit or a letter comes first. -/
theorem Written.exists_head {d : Date} {k : Clock} {offset : Int} {s : List Char}
    (written : Written d k offset s) :
    ∃ c rest, s = c :: rest ∧ c.isAlphanum = true := by
  have extend {w : List Char} (head : ∃ c rest, w = c :: rest ∧ c.isAlphanum = true)
      (more : List Char) : ∃ c rest, w ++ more = c :: rest ∧ c.isAlphanum = true := by
    obtain ⟨c, rest, rfl, letter⟩ := head
    exact ⟨c, rest ++ more, rfl, letter⟩
  have dated {between : Char} {w : List Char} (form : DateForm between d w) :
      ∃ c rest, w = c :: rest ∧ c.isAlphanum = true := by
    obtain ⟨-, yearForm, -, -⟩ := form
    exact extend yearForm.exists_head _
  cases written with
  | iso dateForm | spaced dateForm | slashed dateForm => exact extend (dated dateForm) _
  | commonLog dayForm => exact extend dayForm.exists_head _
  | ansiC weekdayForm | unixDate weekdayForm | rubyDate weekdayForm =>
      exact extend weekdayForm.exists_head _

end FleetBoard.Time

namespace FleetBoard.Stamp

open Time
open Text (utf8 utf8_cons utf8_append IsBoundary isBoundary_iff Trims trims_iff)

variable {line p rest message text : List Char} {t : Instant} {count e k room : Nat}

/-! ### The specification -/

/-- The first `e` bytes of a line, as a text. The line is cut between two characters, behind its
first byte and not behind the window. -/
structure Tried (line : List Char) (e : Nat) (p : List Char) : Prop where
  boundary : IsBoundary line e
  bytes : utf8 p = (utf8 line).take e
  least : 1 ≤ e
  most : e ≤ min window (utf8 line).length

/-- What is left behind a timestamp, without blanks around it and then without the characters of
`isLead` before it. -/
def LeavesMessage (rest message : List Char) : Prop :=
  ∃ plain lead, Trims Text.isBlank rest plain ∧ plain = lead ++ message ∧
    (∀ c ∈ lead, isLead c = true) ∧
    ∀ c ∈ message.head?, isLead c = false

/-- What a search through all beginnings of a line finds. -/
inductive Extracts (text : List Char) : Option Instant × List Char → Prop
  | stamped {line p rest message : List Char} {t : Instant} {e : Nat}
      (trims : Trims Text.isBlank text line) (tried : Tried line e p) (split : line = p ++ rest)
      (stamp : parse p = some t) (longest : ∀ d q, Tried line d q → e < d → parse q = none)
      (leaves : LeavesMessage rest message) :
      Extracts text (some t, message)
  | plain {line : List Char} (trims : Trims Text.isBlank text line)
      (missing : ∀ e p, Tried line e p → parse p = none) : Extracts text (none, line)

theorem leavesMessage_iff :
    LeavesMessage rest message ↔ (Text.trim rest).dropWhile isLead = message := by
  constructor
  · rintro ⟨plain, lead, trims, rfl, gone, first⟩
    rw [Text.trim, trims_iff.mp trims, List.dropWhile_append_of_pos gone,
      Text.dropWhile_eq_self first]
  · rintro rfl
    refine ⟨Text.trim rest, (Text.trim rest).takeWhile isLead, trims_iff.mpr rfl, ?_, ?_,
      Text.head?_dropWhile⟩
    · exact List.takeWhile_append_dropWhile.symm
    · intro c inside
      exact List.mem_takeWhile_imp inside

theorem Tried.prefix (tried : Tried line e p) : p <+: line := by
  obtain ⟨a, b, rfl, rfl⟩ := isBoundary_iff.mp tried.boundary
  have bytes := tried.bytes
  rw [utf8_append, List.take_left] at bytes
  rw [Text.utf8_injective bytes]
  exact List.prefix_append a b

theorem exists_tried (boundary : IsBoundary line e) (least : 1 ≤ e)
    (most : e ≤ min window (utf8 line).length) :
    ∃ p, Tried line e p := by
  obtain ⟨a, b, rfl, rfl⟩ := isBoundary_iff.mp boundary
  refine ⟨a, boundary, ?_, least, most⟩
  rw [utf8_append, List.take_left]

theorem Tried.unique {q : List Char} (one : Tried line e p) (other : Tried line e q) : p = q :=
  Text.utf8_injective (one.bytes.trans other.bytes.symm)

/-- A search finds one thing. -/
theorem Extracts.unique {r s : Option Instant × List Char} (one : Extracts text r)
    (other : Extracts text s) :
    r = s := by
  cases one with
  | @stamped line p rest message t e trims tried split stamp longest leaves =>
      cases other with
      | @stamped other q more message' u d trims' tried' split' stamp' longest' leaves' =>
          obtain rfl := (trims_iff.mp trims).symm.trans (trims_iff.mp trims')
          have same : e = d := by
            rcases Nat.lt_trichotomy e d with before | same | behind
            · rw [longest d q tried' before] at stamp'
              cases stamp'
            · exact same
            · rw [longest' e p tried behind] at stamp
              cases stamp
          subst same
          obtain rfl := tried.unique tried'
          obtain rfl := List.append_cancel_left (split.symm.trans split')
          rw [← leavesMessage_iff.mp leaves, ← leavesMessage_iff.mp leaves', ← stamp, ← stamp']
      | plain trims' missing =>
          obtain rfl := (trims_iff.mp trims).symm.trans (trims_iff.mp trims')
          rw [missing e p tried] at stamp
          cases stamp
  | plain trims missing =>
      cases other with
      | stamped trims' tried' _ stamp' =>
          obtain rfl := (trims_iff.mp trims).symm.trans (trims_iff.mp trims')
          rw [missing _ _ tried'] at stamp'
          cases stamp'
      | plain trims' =>
          rw [← trims_iff.mp trims, ← trims_iff.mp trims']

/-! ### The search -/

theorem prefix_takeBytes_iff : p <+: takeBytes room line ↔ p <+: line ∧ (utf8 p).length ≤ room := by
  induction line generalizing p room with
  | nil =>
      rw [takeBytes, List.prefix_nil]
      refine ⟨?_, And.left⟩
      rintro rfl
      exact ⟨rfl, Nat.zero_le room⟩
  | cons c line ih =>
      cases p with
      | nil => simp [utf8]
      | cons d p =>
          rw [takeBytes, utf8_cons, List.length_append, Text.length_utf8Char]
          split
          · next fits =>
              rw [List.cons_prefix_cons, List.cons_prefix_cons, ih, and_assoc]
              refine and_congr_right ?_
              rintro rfl
              refine and_congr_right fun _ => ?_
              omega
          · next large =>
              rw [List.prefix_nil, List.cons_prefix_cons]
              refine ⟨nofun, ?_⟩
              rintro ⟨⟨rfl, -⟩, short⟩
              omega

/-- What is tried are the beginnings of one or more characters that the window has room for. -/
theorem tried_iff_take :
    (∃ e, Tried line e p) ↔ ∃ k, 1 ≤ k ∧ k ≤ (takeBytes window line).length ∧ p = line.take k := by
  constructor
  · rintro ⟨e, tried⟩
    have begins := tried.prefix
    have size : (utf8 p).length = e := by
      rw [tried.bytes, List.length_take]
      have most := tried.most
      omega
    have inside : p <+: takeBytes window line :=
      prefix_takeBytes_iff.mpr ⟨begins, size ▸ Nat.le_trans tried.most (Nat.min_le_left ..)⟩
    refine ⟨p.length, ?_, inside.length_le, List.prefix_iff_eq_take.mp begins⟩
    rw [Nat.one_le_iff_ne_zero, Ne, List.length_eq_zero_iff]
    rintro rfl
    exact absurd (size ▸ tried.least) (by decide)
  · rintro ⟨k, least, most, rfl⟩
    have begins : takeBytes window line <+: line := (prefix_takeBytes_iff.mp (List.prefix_refl _)).1
    have inside : line.take k <+: takeBytes window line :=
      List.prefix_of_prefix_length_le (List.take_prefix k line) begins
        (Nat.le_trans (List.length_take_le k line) most)
    have short := (prefix_takeBytes_iff.mp inside).2
    have whole : utf8 line = utf8 (line.take k) ++ utf8 (line.drop k) := by
      rw [← utf8_append, List.take_append_drop]
    refine ⟨(utf8 (line.take k)).length, ?_, ?_, ?_, ?_⟩
    · exact isBoundary_iff.mpr ⟨_, line.drop k, (List.take_append_drop k line).symm, rfl⟩
    · rw [whole, List.take_left]
    · cases line with
      | nil => exact absurd most (by rw [takeBytes]; exact Nat.not_le.mpr least)
      | cons c line =>
          obtain ⟨b, more, bytes, -⟩ := Text.utf8Char_eq_cons c
          obtain ⟨j, rfl⟩ := Nat.exists_eq_add_of_le' least
          rw [List.take_succ_cons, utf8_cons, bytes]
          exact Nat.succ_pos _
    · rw [whole, List.length_append]
      omega

theorem longest_eq_none_iff :
    longest line count = none ↔ ∀ k, 1 ≤ k → k ≤ count → parse (line.take k) = none := by
  induction count with
  | zero =>
      refine ⟨fun _ k least most => ?_, fun _ => rfl⟩
      omega
  | succ count ih =>
      rw [longest]
      cases found : parse (line.take (count + 1)) with
      | some t =>
          refine ⟨nofun, fun none => ?_⟩
          rw [none (count + 1) (Nat.succ_pos count) (Nat.le_refl _)] at found
          cases found
      | none =>
          refine ih.trans ⟨fun none k least most => ?_, fun none k least most =>
            none k least (by omega)⟩
          rcases Nat.lt_or_eq_of_le most with before | rfl
          · exact none k least (Nat.le_of_lt_succ before)
          · exact found

theorem longest_spec (found : longest line count = some (t, k)) : (1 ≤ k ∧ k ≤ count) ∧
    parse (line.take k) = some t ∧ ∀ j, k < j → j ≤ count → parse (line.take j) = none := by
  induction count with
  | zero => cases found
  | succ count ih =>
      rw [longest] at found
      cases last : parse (line.take (count + 1)) with
      | some u =>
          rw [last] at found
          cases found
          refine ⟨⟨Nat.succ_pos count, Nat.le_refl _⟩, last, fun j behind most => ?_⟩
          omega
      | none =>
          rw [last] at found
          obtain ⟨bounds, stamp, none⟩ := ih found
          refine ⟨⟨bounds.1, Nat.le_succ_of_le bounds.2⟩, stamp, fun j behind most => ?_⟩
          rcases Nat.lt_or_eq_of_le most with before | rfl
          · exact none j behind (Nat.le_of_lt_succ before)
          · exact last

/-- The first character of a time is no comma, so it is the first one also where a comma is to
become a point. -/
theorem PointForComma.exists_head {bare s : List Char} {d : Date} {k : Clock} {offset : Int}
    (form : PointForComma bare s) (written : Written d k offset s) :
    ∃ c rest, bare = c :: rest ∧ c.isAlphanum = true := by
  obtain ⟨c, rest, same, letter⟩ := written.exists_head
  cases form with
  | @point before after =>
      cases before with
      | nil =>
          cases same
          exact absurd letter (by decide)
      | cons x before =>
          cases same
          exact ⟨_, _, rfl, letter⟩
  | same => exact ⟨c, rest, same, letter⟩

/-- Where a beginning of a line is a timestamp, the line passes the check of its first character.
Blanks cannot stand before the timestamp, since the line begins with none, and brackets are passed
over. -/
theorem mayBegin_of_parse (first : ∀ c ∈ line.head?, Text.isBlank c = false) (begins : p <+: line)
    (found : parse p = some t) : mayBegin line = true := by
  obtain ⟨s, d, k, offset, ⟨plain, bare, blanks, brackets, form⟩, written, -⟩ :=
    parse_eq_some_iff.mp found
  obtain ⟨c, more, rfl, letter⟩ := form.exists_head written
  obtain ⟨⟨opening, closing, rfl, gone, -⟩, other, -⟩ := brackets
  obtain ⟨⟨before, after, rfl, blank, -⟩, -, -⟩ := blanks
  obtain ⟨tail, rfl⟩ := begins
  cases before with
  | cons x before =>
      have solid := first x rfl
      rw [blank x List.mem_cons_self] at solid
      cases solid
  | nil =>
      have rest : [] ++ (opening ++ (c :: more ++ closing) ++ after) ++ tail =
          opening ++ c :: (more ++ (closing ++ (after ++ tail))) := by
        simp
      rw [rest, mayBegin, List.dropWhile_append_of_pos gone, List.dropWhile_cons, other c rfl]
      exact letter

theorem extracts_extract (text : List Char) : Extracts text (extract text) := by
  have trims : Trims Text.isBlank text (Text.trim text) := trims_iff.mpr rfl
  rw [extract]
  generalize Text.trim text = line at trims ⊢
  have nothing (missing : ∀ k, 1 ≤ k → k ≤ (takeBytes window line).length →
      parse (line.take k) = none) : Extracts text (none, line) := by
    refine .plain trims fun e p tried => ?_
    obtain ⟨k, least, most, rfl⟩ := tried_iff_take.mp ⟨e, tried⟩
    exact missing k least most
  split
  · next refused =>
      refine nothing fun k _ _ => ?_
      cases found : parse (line.take k) with
      | none => rfl
      | some t =>
          rw [mayBegin_of_parse trims.first (List.take_prefix k line) found] at refused
          cases refused
  · split
    · next t k found =>
        obtain ⟨⟨least, most⟩, stamp, behind⟩ := longest_spec found
        obtain ⟨e, tried⟩ := tried_iff_take.mpr ⟨k, least, most, rfl⟩
        refine .stamped trims tried (List.take_append_drop k line).symm stamp ?_
          (leavesMessage_iff.mpr rfl)
        intro d q other longer
        obtain ⟨j, -, most', rfl⟩ := tried_iff_take.mp ⟨d, other⟩
        refine behind j ?_ most'
        by_contra short
        have within : (utf8 line).take d <+: (utf8 line).take e := by
          rw [← other.bytes, ← tried.bytes]
          obtain ⟨more, same⟩ := List.take_prefix_take_left (l := line) (Nat.not_lt.mp short)
          exact ⟨utf8 more, by rw [← utf8_append, same]⟩
        have sizes := within.length_le
        have most'' := other.most
        rw [List.length_take, List.length_take] at sizes
        omega
    · next missing => exact nothing (longest_eq_none_iff.mp missing)

/-- What is found at the beginning of a line, and what is tried for it. -/
structure SearchesAll (text : List Char) : Prop where
  extracts : ∀ r, extract text = r ↔ Extracts text r
  early : ∀ p t, p <+: Text.trim text → parse p = some t → mayBegin (Text.trim text) = true
  whole : ∀ e p, Tried (Text.trim text) e p → p <+: Text.trim text
  every : ∀ e, IsBoundary (Text.trim text) e → 1 ≤ e →
    e ≤ min window (utf8 (Text.trim text)).length → ∃ p, Tried (Text.trim text) e p

/-- The search for the timestamp of a line is the search for the longest of all the beginnings that
end between two characters. A line that the check of its first character refuses has no timestamp at
its beginning, no character is cut, and no position within the window is left out. -/
theorem extract_longest_prefix (text : List Char) : SearchesAll text := by
  refine {
    extracts := fun r => ⟨?_, ?_⟩
    early := ?_
    whole := fun e p tried => tried.prefix
    every := fun e => exists_tried }
  · rintro rfl
    exact extracts_extract text
  · intro extracts
    exact (extracts_extract text).unique extracts
  · intro p t begins found
    exact mayBegin_of_parse (trims_iff.mpr rfl : Trims Text.isBlank text _).first begins found

/-- A timestamp in brackets, and a message whose first character has two bytes. -/
def bracketed : List Char := "(2024-01-01 00:00:00) él".toList

/-- The blank behind the bracket belongs to the longest beginning that is a timestamp. -/
theorem extract_longest_prefix_bracketed :
    Extracts bracketed (some ⟨1704067200, 0⟩, "él".toList) ∧
      (bracketed.take 21 <+: Text.trim bracketed ∧
        parse (bracketed.take 21) = some ⟨1704067200, 0⟩ ∧
        mayBegin (Text.trim bracketed) = true) ∧
      (Tried (Text.trim bracketed) 22 (bracketed.take 22) ∧
        bracketed.take 22 <+: Text.trim bracketed) ∧
      (IsBoundary (Text.trim bracketed) 24 ∧ ∃ p, Tried (Text.trim bracketed) 24 p) := by
  have searches := extract_longest_prefix bracketed
  have bare : Text.trim bracketed = bracketed := by decide +kernel
  have early := searches.early
  have whole := searches.whole
  have every := searches.every
  rw [bare] at early whole every ⊢
  have found : extract bracketed = (some ⟨1704067200, 0⟩, "él".toList) := by decide +kernel
  have stamp : parse (bracketed.take 21) = some ⟨1704067200, 0⟩ := by decide +kernel
  have tried : Tried bracketed 22 (bracketed.take 22) :=
    ⟨.inr ⟨0xc3, by decide +kernel, by decide⟩, by decide +kernel, by decide, by decide +kernel⟩
  have boundary : IsBoundary bracketed 24 := .inr ⟨0x6c, by decide +kernel, by decide⟩
  exact ⟨(searches.extracts _).mp found,
    ⟨List.take_prefix 21 bracketed, stamp, early _ _ (List.take_prefix 21 bracketed) stamp⟩,
    ⟨tried, whole 22 _ tried⟩, ⟨boundary, every 24 boundary (by decide) (by decide +kernel)⟩⟩

end FleetBoard.Stamp

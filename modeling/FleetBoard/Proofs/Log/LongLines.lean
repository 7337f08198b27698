import FleetBoard.Proofs.Log.Splitting
import FleetBoard.Proofs.Text.Lossy
import Mathlib.Algebra.Order.BigOperators.Group.List

/-!
# What the lines of a text keep of it

A line that grows too long is cut at a number of bytes. Where the cut falls between two characters
the pieces are the line again. Where it falls inside a character, both pieces hold replacement
characters in place of it; where it falls behind a carriage return, the return is dropped as if the
line ended there. So the lines are the text without its line ends just if no cut of any line does
one of these.

That damage is never undone by other damage is seen by counting. No line has fewer replacement
characters than the text has there, so none may be in excess anywhere; and then every character that
is missing is a carriage return, so none may be missing anywhere.
-/

namespace FleetBoard.LineSplitter

open Text (utf8 utf8Char utf8_append utf8_cons utf8Lossy replacement isContinuation)

/-! ### The specification -/

/-- A text without the ends of its lines: without line feeds, and without the carriage returns
directly before a line feed and at the very end. -/
def withoutLineEnds : List Char → List Char
  | [] => []
  | c :: s =>
    if c = '\n' ∨ c = '\r' ∧ (s = [] ∨ s.head? = some '\n') then withoutLineEnds s
    else c :: withoutLineEnds s

/-- What lies between two line feeds is spared if every cut of it falls between two characters, and
not behind a carriage return with more to follow. -/
def Spared (segment : List Char) : Prop :=
  ∀ k, (k + 1) * capacity ≤ (utf8 segment).length →
    ∃ a b, segment = a ++ b ∧ (utf8 a).length = (k + 1) * capacity ∧
    (a.getLast? = some '\r' → b = [])

/-! ### Segments -/

def withoutReturn (segment : List Char) : List Char :=
  if segment.getLast? = some '\r' then segment.dropLast else segment

/-- The characters of the lines of a segment. -/
def shown (segment : List UInt8) : List Char :=
  (fullPieces segment ++ [remainder segment]).flatMap fun piece => (textOf piece).toList

theorem withoutReturn_append {a b : List Char} (more : b ≠ []) :
    withoutReturn (a ++ b) = a ++ withoutReturn b := by
  rw [withoutReturn, withoutReturn, List.getLast?_append_of_ne_nil a more]
  split
  · rw [List.dropLast_append_of_ne_nil more]
  · rfl

theorem withoutReturn_of_other {a : List Char} (other : a.getLast? ≠ some '\r') :
    withoutReturn a = a :=
  if_neg other

theorem length_withoutReturn_lt {a : List Char} (last : a.getLast? = some '\r') :
    (withoutReturn a).length < a.length := by
  have filled : a ≠ [] := by
    rintro rfl
    cases last
  rw [withoutReturn, if_pos last, List.length_dropLast]
  exact Nat.sub_lt (List.length_pos_iff.mpr filled) Nat.one_pos

theorem count_withoutReturn (a : List Char) :
    (withoutReturn a).count replacement = a.count replacement := by
  rw [withoutReturn]
  split
  · next last =>
      obtain ⟨front, rfl⟩ := List.getLast?_eq_some_iff.mp last
      rw [List.dropLast_concat, List.count_append]
      rfl
  · rfl

/-- Taking the line ends off a text is cutting it at its line feeds and taking off the carriage
returns. -/
theorem withoutLineEnds_eq (text : List Char) :
    withoutLineEnds text = (Text.splitAll (· == '\n') text).flatMap withoutReturn := by
  induction text with
  | nil => rfl
  | cons c s ih =>
      rw [withoutLineEnds, ih, Text.splitAll]
      by_cases feed : c = '\n'
      · rw [if_pos (.inl feed), if_pos (beq_iff_eq.mpr feed)]
        rfl
      rw [if_neg (beq_iff_eq.not.mpr feed)]
      cases s with
      | nil =>
          by_cases return_ : c = '\r' <;> simp [feed, return_, Text.splitAll, withoutReturn]
      | cons d s =>
          rw [Text.splitAll]
          by_cases next_ : d = '\n'
          · by_cases return_ : c = '\r' <;> simp [feed, return_, next_, withoutReturn]
          · have other : ¬ (c = '\n' ∨ c = '\r' ∧ (d :: s = [] ∨ (d :: s).head? = some '\n')) := by
              simp [feed, next_]
            rw [if_neg other, if_neg (beq_iff_eq.not.mpr next_)]
            cases Text.splitAll (· == '\n') s with
            | nil =>
                have joined := withoutReturn_append (a := [c]) (List.cons_ne_nil d [])
                simp only [List.flatMap_cons, List.flatMap_nil, List.append_nil, List.cons_append,
                  List.nil_append] at joined ⊢
                exact joined.symm
            | cons first others =>
                have joined := withoutReturn_append (a := [c]) (List.cons_ne_nil d first)
                simp only [List.flatMap_cons, List.cons_append, List.nil_append] at joined ⊢
                rw [joined, List.cons_append]

/-- The line feeds among the bytes of a text are its own. -/
theorem splitAll_utf8 (text : List Char) :
    Text.splitAll (· == lineFeed) (utf8 text) = (Text.splitAll (· == '\n') text).map utf8 := by
  induction text with
  | nil => rfl
  | cons c s ih =>
      rw [utf8_cons, Text.splitAll]
      by_cases feed : c = '\n'
      · subst feed
        have byte : utf8Char '\n' = [lineFeed] := rfl
        rw [byte, List.singleton_append, Text.splitAll, ih]
        rfl
      · have clear : lineFeed ∉ utf8Char c := by
          intro inside
          obtain ⟨d, there, same⟩ := Text.mem_of_mem_utf8 (s := [c]) (by decide)
            (List.mem_append_left [] inside)
          obtain rfl := List.mem_singleton.mp there
          exact feed (Char.toNat_inj.mp same)
        obtain ⟨first, others, split, joined⟩ :=
          Text.exists_splitAll_append (clear_of_not_mem clear) (utf8 s)
        rw [joined, if_neg (beq_iff_eq.not.mpr feed)]
        rw [ih] at split
        cases pieces : Text.splitAll (· == '\n') s with
        | nil =>
            rw [pieces] at split
            cases split
        | cons piece pieces' =>
            rw [pieces, List.map_cons, List.cons.injEq] at split
            rw [List.map_cons, utf8_cons, split.1, split.2]

/-! ### Lines -/

variable {segment piece u v w : List UInt8} {a b s : List Char}

theorem toList_textOf (piece : List UInt8) : (textOf piece).toList =
    utf8Lossy (if piece.getLast? = some carriageReturn then piece.dropLast else piece) := by
  rw [textOf, Text.lossyString, String.toList_ofList]

theorem flatMap_piecesOf (segments : List (List UInt8)) :
    (piecesOf segments).flatMap (fun piece => (textOf piece).toList) = segments.flatMap shown := by
  have nothing : (textOf []).toList = [] := by
    rw [toList_textOf]
    rfl
  induction segments with
  | nil => rfl
  | cons segment segments ih =>
      cases segments with
      | nil =>
          rw [piecesOf, List.flatMap_cons, List.flatMap_nil, List.append_nil, shown]
          split
          · next empty => simp [empty, nothing]
          · rfl
      | cons other segments =>
          rw [piecesOf, List.flatMap_append, List.flatMap_cons, ih]
          · simp [shown]
          · exact List.cons_ne_nil other segments

theorem shown_of_short (short : segment.length < capacity) :
    shown segment = (textOf segment).toList := by
  rw [shown, fullPieces_of_short short, remainder_of_short short, List.nil_append,
    List.flatMap_cons, List.flatMap_nil, List.append_nil]

theorem shown_append (full : piece.length = capacity) :
    shown (piece ++ segment) = (textOf piece).toList ++ shown segment := by
  rw [shown, fullPieces_append full, remainder_append full, List.cons_append, List.flatMap_cons,
    shown]

theorem textOf_utf8 (s : List Char) : (textOf (utf8 s)).toList = withoutReturn s := by
  rw [toList_textOf]
  rcases List.eq_nil_or_concat s with rfl | ⟨front, c, rfl⟩
  · rfl
  rw [List.concat_eq_append]
  by_cases return_ : c = '\r'
  · subst return_
    have bytes : utf8 (front ++ ['\r']) = utf8 front ++ [carriageReturn] := utf8_append front ['\r']
    rw [bytes, List.getLast?_concat, if_pos rfl, List.dropLast_concat, Text.utf8Lossy_utf8,
      withoutReturn, List.getLast?_concat, if_pos rfl, List.dropLast_concat]
  · have other : (utf8 (front ++ [c])).getLast? ≠ some carriageReturn := by
      intro last
      rw [utf8_append, List.getLast?_append_of_ne_nil] at last
      · obtain ⟨d, there, same⟩ := Text.mem_of_mem_utf8 (by decide) (List.mem_of_getLast? last)
        obtain rfl := List.mem_singleton.mp there
        exact return_ (Char.toNat_inj.mp same)
      · obtain ⟨first, more, bytes, -⟩ := Text.utf8Char_eq_cons c
        rw [utf8_cons, bytes]
        exact List.cons_ne_nil _ _
    rw [if_neg other, Text.utf8Lossy_utf8, withoutReturn_of_other]
    rw [List.getLast?_concat]
    exact fun same => return_ (Option.some.inj same)

/-! ### Segments whose cuts fall between characters -/

/-- A segment is short, or begins with characters that are a full piece. -/
inductive CutBetween : List Char → Prop
  | short {s : List Char} (short : (utf8 s).length < capacity) : CutBetween s
  | cut {a b : List Char} (full : (utf8 a).length = capacity) (later : CutBetween b) :
      CutBetween (a ++ b)

/-- Two beginnings of a text with as many bytes are the same. -/
theorem eq_of_append_eq {a a' b b' : List Char} (same : a ++ b = a' ++ b')
    (size : (utf8 a).length = (utf8 a').length) : a = a' := by
  have bytes := congrArg utf8 same
  rw [utf8_append, utf8_append] at bytes
  exact Text.utf8_injective (List.append_inj_left bytes size)

theorem spared_of_short (short : (utf8 s).length < capacity) : Spared s := by
  intro k most
  rw [Nat.succ_mul] at most
  omega

/-- The first cut is one, and the cuts behind it are those of the rest. -/
theorem spared_append_iff (full : (utf8 a).length = capacity) :
    Spared (a ++ b) ↔ (a.getLast? = some '\r' → b = []) ∧ Spared b := by
  have size : (utf8 (a ++ b)).length = capacity + (utf8 b).length := by
    rw [utf8_append, List.length_append, full]
  constructor
  · intro spared
    constructor
    · obtain ⟨a', b', same, position, last⟩ := spared 0 (by omega)
      obtain rfl := eq_of_append_eq same (by omega)
      obtain rfl := List.append_cancel_left same
      exact last
    · intro k most
      obtain ⟨a', b', same, position, last⟩ := spared (k + 1) (by rw [Nat.succ_mul, size]; omega)
      rcases List.append_eq_append_iff.mp same with ⟨front, rfl, rfl⟩ | ⟨more, rfl, -⟩
      · rw [utf8_append, List.length_append, full, Nat.succ_mul (k + 1)] at position
        refine ⟨front, b', rfl, by omega, fun return_ => last ?_⟩
        rw [List.getLast?_append, return_]
        rfl
      · rw [utf8_append, List.length_append] at full
        rw [Nat.succ_mul, Nat.succ_mul] at position
        have one := capacity_pos
        omega
  · rintro ⟨first, later⟩ k most
    cases k with
    | zero => exact ⟨a, b, rfl, by omega, first⟩
    | succ k =>
        rw [size, Nat.succ_mul] at most
        obtain ⟨front, b', rfl, position, last⟩ := later k (by omega)
        refine ⟨a ++ front, b', (List.append_assoc ..).symm, ?_, ?_⟩
        · rw [utf8_append, List.length_append, full, position, Nat.succ_mul (k + 1), Nat.add_comm]
        · have filled : front ≠ [] := by
            rintro rfl
            rw [Nat.succ_mul] at position
            have none : (utf8 []).length = 0 := rfl
            have one := capacity_pos
            omega
          rw [List.getLast?_append_of_ne_nil a filled]
          exact last

theorem Spared.cutBetween (spared : Spared s) : CutBetween s := by
  induction size : (utf8 s).length using Nat.strongRecOn generalizing s with
  | ind n ih =>
      by_cases short : (utf8 s).length < capacity
      · exact .short short
      obtain ⟨a, b, rfl, position, -⟩ := spared 0 (by omega)
      have full : (utf8 a).length = capacity := by omega
      refine .cut full (ih _ ?_ ((spared_append_iff full).mp spared).2 rfl)
      rw [← size, utf8_append, List.length_append, full]
      exact Nat.lt_add_of_pos_left capacity_pos

theorem shown_utf8_append (full : (utf8 a).length = capacity) :
    shown (utf8 (a ++ b)) = withoutReturn a ++ shown (utf8 b) := by
  rw [utf8_append, shown_append full, textOf_utf8]

/-- A segment that is spared is shown as it is. -/
theorem Spared.shown_eq (spared : Spared s) : shown (utf8 s) = withoutReturn s := by
  have cuts := spared.cutBetween
  induction cuts with
  | short short => rw [shown_of_short short, textOf_utf8]
  | @cut a b full _ ih =>
      obtain ⟨first, later⟩ := (spared_append_iff full).mp spared
      rw [shown_utf8_append full, ih later]
      by_cases ends : b = []
      · subst ends
        simp [withoutReturn]
      · rw [withoutReturn_of_other fun last => ends (first last), withoutReturn_append ends]

/-- No character is shown that is not there, and all are shown only if the segment is spared. -/
theorem CutBetween.length_shown (cuts : CutBetween s) :
    (shown (utf8 s)).length ≤ (withoutReturn s).length ∧
    ((shown (utf8 s)).length = (withoutReturn s).length → Spared s) := by
  induction cuts with
  | short short => exact ⟨by rw [shown_of_short short, textOf_utf8], fun _ => spared_of_short short⟩
  | @cut a b full _ ih =>
      obtain ⟨most, all⟩ := ih
      rw [shown_utf8_append full, spared_append_iff full]
      by_cases ends : b = []
      · subst ends
        have none : shown (utf8 []) = [] := shown_of_short (by decide)
        rw [none, List.append_nil, List.append_nil]
        exact ⟨Nat.le_refl _, fun _ => ⟨fun _ => rfl, spared_of_short (by decide)⟩⟩
      rw [withoutReturn_append ends, List.length_append, List.length_append]
      by_cases last : a.getLast? = some '\r'
      · have fewer := length_withoutReturn_lt last
        exact ⟨by omega, fun same => by omega⟩
      · rw [withoutReturn_of_other last]
        exact ⟨by omega, fun same => ⟨fun return_ => absurd return_ last, all (by omega)⟩⟩

/-! ### Replacement characters -/

theorem count_utf8Lossy_le (piece : List UInt8) :
    (utf8Lossy piece).count replacement ≤ (textOf piece).toList.count replacement := by
  rw [toList_textOf]
  split
  · next last =>
      obtain ⟨front, rfl⟩ := List.getLast?_eq_some_iff.mp last
      rw [List.dropLast_concat]
      exact Text.count_utf8Lossy_return front
  · exact Nat.le_refl _

/-- A piece that begins inside a character shows a replacement character for each byte of it. -/
theorem count_textOf (continues : ∀ x ∈ v, isContinuation x = true) (a : List Char)
    (u : List UInt8) :
    v.length + a.count replacement + (utf8Lossy u).count replacement ≤
      (textOf (v ++ (utf8 a ++ u))).toList.count replacement := by
  refine Nat.le_trans (Nat.le_of_eq ?_) (count_utf8Lossy_le _)
  rw [Text.utf8Lossy_continuations continues, Text.utf8Lossy_utf8_append, List.count_append,
    List.count_append, List.count_replicate_self, Nat.add_assoc]

/-- A cut between two characters. -/
theorem count_shown_between (continues : ∀ x ∈ v, isContinuation x = true)
    (full : (v ++ utf8 a).length = capacity) :
    v.length + a.count replacement + (shown (utf8 b)).count replacement ≤
      (shown (v ++ utf8 (a ++ b))).count replacement := by
  have first := count_textOf continues a []
  rw [List.append_nil] at first
  rw [utf8_append, ← List.append_assoc, shown_append full, List.count_append]
  exact Nat.add_le_add_right first _

/-- A cut inside a character. -/
theorem count_shown_inside {c : Char} (continues : ∀ x ∈ v, isContinuation x = true)
    (parts : utf8Char c = u ++ w) (begun : u ≠ []) (left : w ≠ [])
    (full : (v ++ (utf8 a ++ u)).length = capacity) :
    v.length + a.count replacement + 1 + (shown (w ++ utf8 b)).count replacement ≤
      (shown (v ++ utf8 (a ++ c :: b))).count replacement := by
  have first := count_textOf continues a u
  have one := List.one_le_count_iff.mpr (Text.replacement_mem_utf8Lossy parts begun left)
  have bytes : v ++ utf8 (a ++ c :: b) = v ++ (utf8 a ++ u) ++ (w ++ utf8 b) := by
    rw [utf8_append, utf8_cons, parts]
    simp only [List.append_assoc]
  rw [bytes, shown_append full, List.count_append]
  omega

theorem count_char_le (a b : List Char) (c : Char) :
    (a ++ c :: b).count replacement ≤ a.count replacement + 1 + b.count replacement := by
  rw [List.count_append, List.count_cons]
  split <;> omega

theorem length_right_lt {c : Char} (parts : utf8Char c = u ++ w) : w.length < capacity := by
  have size := congrArg List.length parts
  have four := c.utf8Size_le_four
  have large : 4 < capacity := by decide
  rw [Text.length_utf8Char, List.length_append] at size
  omega

/-- No replacement character of a segment is lost, and each byte before it that continues a
character adds one. -/
theorem count_shown (continues : ∀ x ∈ v, isContinuation x = true) (few : v.length < capacity)
    (s : List Char) :
    v.length + s.count replacement ≤ (shown (v ++ utf8 s)).count replacement := by
  induction size : (utf8 s).length using Nat.strongRecOn generalizing v s with
  | ind n ih =>
      by_cases short : (v ++ utf8 s).length < capacity
      · have whole := count_textOf continues s []
        rw [shown_of_short short]
        rwa [List.append_nil] at whole
      rw [List.length_append] at short
      rcases Text.between_or_inside s (e := capacity - v.length) (by omega) with
        ⟨a, b, rfl, position⟩ | ⟨a, c, b, u, w, rfl, parts, begun, left, position⟩
      · rw [utf8_append, List.length_append] at size
        have cut :=
          count_shown_between (a := a) (b := b) continues (by rw [List.length_append]; omega)
        have later := ih (utf8 b).length (by omega) (v := []) nofun (by decide) b rfl
        rw [List.count_append]
        rw [List.nil_append, List.length_nil] at later
        omega
      · have one : 0 < (utf8Char c).length := by
          rw [parts, List.length_append]
          exact Nat.add_pos_left (List.length_pos_iff.mpr begun) _
        rw [utf8_append, utf8_cons, List.length_append, List.length_append] at size
        have cut := count_shown_inside (a := a) (b := b) continues parts begun left
          (by rw [List.length_append, List.length_append]; omega)
        have later := ih (utf8 b).length (by omega)
          (fun x inside => Text.isContinuation_of_mem_right parts begun inside)
          (length_right_lt parts) b rfl
        have most := count_char_le a b c
        omega

/-- A segment that shows no more replacement characters than it has is cut between characters
only. -/
theorem cutBetween_of_count (same : (shown (utf8 s)).count replacement ≤ s.count replacement) :
    CutBetween s := by
  induction size : (utf8 s).length using Nat.strongRecOn generalizing s with
  | ind n ih =>
      by_cases short : (utf8 s).length < capacity
      · exact .short short
      rcases Text.between_or_inside s (e := capacity) (by omega) with
        ⟨a, b, rfl, full⟩ | ⟨a, c, b, u, w, rfl, parts, begun, left, position⟩
      · rw [utf8_append, List.length_append] at size
        have cut := count_shown_between (v := []) (b := b) nofun full
        have one := capacity_pos
        rw [List.nil_append, List.length_nil] at cut
        rw [List.count_append] at same
        exact .cut full (ih _ (by omega) (by omega) rfl)
      · exfalso
        have cut := count_shown_inside (a := a) (v := []) (b := b) nofun parts begun left
          (by rw [List.nil_append, List.length_append]; exact position)
        have later :=
          count_shown (fun x inside => Text.isContinuation_of_mem_right parts begun inside)
          (length_right_lt parts) b
        have one := List.length_pos_iff.mpr left
        have most := count_char_le a b c
        rw [List.nil_append, List.length_nil] at cut
        omega

/-! ### Texts -/

/-- Where no summand is larger than its counterpart, equal sums have equal summands. -/
theorem eq_of_sum_eq {α : Type} {l : List α} {f g : α → Nat} (le : ∀ x ∈ l, f x ≤ g x)
    (same : (l.map f).sum = (l.map g).sum) : ∀ x ∈ l, f x = g x := by
  intro x inside
  by_contra other
  have less := List.sum_lt_sum f g le ⟨x, inside, Nat.lt_of_le_of_ne (le x inside) other⟩
  exact Nat.ne_of_lt less same

/-- Damage to one segment is not undone by damage to another. -/
theorem flatMap_shown_eq_iff (segments : List (List Char)) :
    (segments.map utf8).flatMap shown = segments.flatMap withoutReturn ↔
    ∀ s ∈ segments, Spared s := by
  rw [List.flatMap_map]
  constructor
  · intro same
    have counts : ∀ s ∈ segments, s.count replacement = (shown (utf8 s)).count replacement := by
      refine eq_of_sum_eq (fun s _ => ?_) ?_
      · have least := count_shown (v := []) nofun (by decide) s
        rwa [List.nil_append, List.length_nil, Nat.zero_add] at least
      · have totals := congrArg (List.count replacement) same
        simp only [List.count_flatMap, Function.comp_def, count_withoutReturn] at totals
        exact totals.symm
    have cuts : ∀ s ∈ segments, CutBetween s := by
      intro s inside
      exact cutBetween_of_count (Nat.le_of_eq (counts s inside).symm)
    have lengths : ∀ s ∈ segments, (shown (utf8 s)).length = (withoutReturn s).length := by
      refine eq_of_sum_eq (fun s inside => (cuts s inside).length_shown.1) ?_
      have totals := congrArg List.length same
      simpa only [List.length_flatMap] using totals
    intro s inside
    exact (cuts s inside).length_shown.2 (lengths s inside)
  · intro spared
    induction segments with
    | nil => rfl
    | cons s segments ih =>
        rw [List.flatMap_cons, List.flatMap_cons, (spared s List.mem_cons_self).shown_eq,
          ih fun t inside => spared t (List.mem_cons_of_mem s inside)]

theorem join_linesOf (text : List Char) :
    (String.join (linesOf (utf8 text))).toList =
      ((Text.splitAll (· == '\n') text).map utf8).flatMap shown := by
  rw [linesOf, splitAll_utf8, String.toList_join, List.flatMap_map, flatMap_piecesOf]

/-- The lines of a text, however its bytes are cut into pushes, are together the text without its
line ends just if no cut of a long line falls inside a character, or behind a carriage return that
does not end the line. In particular they are if all lines are short. -/
theorem lines_keep_text_iff (text : List Char) (pushes : List (List UInt8))
    (whole : pushes.flatten = utf8 text) :
    String.join (calls.run {} pushes) = String.ofList (withoutLineEnds text) ↔
      ∀ segment ∈ Text.splitAll (· == '\n') text, Spared segment := by
  rw [run_calls, whole, ← String.toList_inj, join_linesOf, String.toList_ofList, withoutLineEnds_eq]
  exact flatMap_shown_eq_iff _

theorem utf8_replicate (n : Nat) : utf8 (List.replicate n 'x') = List.replicate n 0x78 := by
  induction n with
  | zero => rfl
  | succ n ih =>
      rw [List.replicate_succ, utf8_cons, ih]
      rfl

theorem clear_replicate (n : Nat) : ∀ c ∈ List.replicate n 'x', (c == '\n') = false := by
  intro c inside
  rw [List.eq_of_mem_replicate inside]
  rfl

def spared : List Char := List.replicate capacity 'x' ++ ['é', '\r', '\n']

/-- The pushes may cut the character, which the line does not. -/
theorem lines_keep_text_iff_spared :
    [utf8 (List.replicate capacity 'x') ++ [0xc3], [0xa9, 0x0d, 0x0a]].flatten = utf8 spared ∧
      (∀ segment ∈ Text.splitAll (· == '\n') spared, Spared segment) ∧
      String.join
        (calls.run {} [utf8 (List.replicate capacity 'x') ++ [0xc3], [0xa9, 0x0d, 0x0a]]) =
        String.ofList (withoutLineEnds spared) := by
  have whole : [utf8 (List.replicate capacity 'x') ++ [0xc3], [0xa9, 0x0d, 0x0a]].flatten =
      utf8 spared := by
    rw [spared, utf8_append, List.flatten_cons, List.append_assoc]
    rfl
  have full : (utf8 (List.replicate capacity 'x')).length = capacity := by
    rw [utf8_replicate, List.length_replicate]
  have cut : Spared (List.replicate capacity 'x' ++ ['é', '\r']) := by
    refine (spared_append_iff full).mpr ⟨fun last => ?_, spared_of_short (by decide)⟩
    cases List.eq_of_mem_replicate (List.mem_of_getLast? last)
  have segments : Text.splitAll (· == '\n') spared =
      [List.replicate capacity 'x' ++ ['é', '\r'], []] := by
    obtain ⟨first, others, split, joined⟩ :=
      Text.exists_splitAll_append (clear_replicate capacity) ['é', '\r', '\n']
    cases split
    exact joined
  have all : ∀ segment ∈ Text.splitAll (· == '\n') spared, Spared segment := by
    rw [segments, List.forall_mem_cons, List.forall_mem_singleton]
    exact ⟨cut, spared_of_short (by decide)⟩
  exact ⟨whole, all, (lines_keep_text_iff spared _ whole).mpr all⟩

/-- A character of two bytes across the end of a full piece. -/
def straddling : List Char := List.replicate (capacity - 1) 'x' ++ ['é']

/-- Each half of the character becomes a replacement character of its own. -/
theorem straddling_replaced :
    calls.run {} [utf8 straddling] =
        [String.ofList (List.replicate (capacity - 1) 'x' ++ [replacement]),
          String.ofList [replacement]] ∧
      withoutLineEnds straddling = straddling ∧
      String.join (calls.run {} [utf8 straddling]) ≠
        String.ofList (withoutLineEnds straddling) := by
  have lines : calls.run {} [utf8 straddling] =
      [String.ofList (List.replicate (capacity - 1) 'x' ++ [replacement]),
        String.ofList [replacement]] := by
    have bytes : [utf8 straddling].flatten =
        utf8 (List.replicate (capacity - 1) 'x') ++ [0xc3] ++ [0xa9] := by
      have character : utf8 ['é'] = [0xc3] ++ [0xa9] := rfl
      rw [straddling, List.flatten_singleton, utf8_append, character, List.append_assoc]
    have clear : lineFeed ∉ utf8 (List.replicate (capacity - 1) 'x') ++ [0xc3] := by
      rw [utf8_replicate, List.mem_append, List.mem_replicate]
      decide
    have full : (utf8 (List.replicate (capacity - 1) 'x') ++ [0xc3]).length = capacity := by
      rw [utf8_replicate, List.length_append, List.length_replicate]
      rfl
    have first : textOf (utf8 (List.replicate (capacity - 1) 'x') ++ [0xc3]) =
        String.ofList (List.replicate (capacity - 1) 'x' ++ [replacement]) := by
      rw [← String.toList_inj, toList_textOf, List.getLast?_concat, if_neg (by decide),
        Text.utf8Lossy_utf8_append, String.toList_ofList]
      rfl
    rw [run_calls, bytes, linesOf_full clear full, first]
    rfl
  have plain : withoutLineEnds straddling = straddling := by
    have clear : ∀ c ∈ straddling, (c == '\n') = false := by
      rw [straddling, List.forall_mem_append, List.forall_mem_singleton]
      exact ⟨clear_replicate _, rfl⟩
    have last : straddling.getLast? ≠ some '\r' := by
      rw [straddling, List.getLast?_concat]
      decide
    rw [withoutLineEnds_eq, Text.splitAll_of_clear clear, List.flatMap_cons, List.flatMap_nil,
      List.append_nil, withoutReturn_of_other last]
  refine ⟨lines, plain, ?_⟩
  rw [lines, plain, Ne, ← String.toList_inj, String.toList_join, String.toList_ofList, straddling]
  intro same
  simp at same

end FleetBoard.LineSplitter

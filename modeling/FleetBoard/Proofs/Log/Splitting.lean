import FleetBoard.Log.Lines
import FleetBoard.Proofs.Text.Trimming

/-!
# The lines of bytes that come in pieces

Which lines a splitter puts out can be said without a splitter. The bytes are cut behind each line
feed, what lies between two of them is cut again into pieces as long as a line may get, and each
piece is a line. The bytes may be pushed in any pieces: a splitter holds what it has been given
since the last line, and this is always too short to be a line of its own.

The window of a push is as large as the room that is left. So a turn of its loop reads as far as the
next line feed, or the room, or the bytes go; and there is room for one byte at least, or the line
would have ended.
-/

namespace FleetBoard.LineSplitter

/-! ### The reference -/

/-- The pieces of full length that a segment begins with. -/
def fullPieces (segment : List UInt8) : List (List UInt8) :=
  (List.range (segment.length / capacity)).map fun k => (segment.drop (k * capacity)).take capacity

/-- What is left of a segment behind its full pieces. -/
def remainder (segment : List UInt8) : List UInt8 :=
  segment.drop (segment.length / capacity * capacity)

/-- The pieces of segments. A line feed ends all of them but the last, of which an empty remainder
is no line. -/
def piecesOf : List (List UInt8) → List (List UInt8)
  | [] => []
  | [last] => fullPieces last ++ if remainder last = [] then [] else [remainder last]
  | segment :: segments => fullPieces segment ++ remainder segment :: piecesOf segments

def textOf (piece : List UInt8) : String :=
  Text.lossyString (if piece.getLast? = some carriageReturn then piece.dropLast else piece)

def linesOf (bytes : List UInt8) : List String :=
  (piecesOf (Text.splitAll (· == lineFeed) bytes)).map textOf

theorem capacity_pos : 0 < capacity := by decide

theorem lineOf_eq (bytes : Array UInt8) : lineOf bytes = textOf bytes.toList := by
  rw [lineOf, textOf, Array.getLast?_toList]
  split
  · rw [Array.toList_pop]
  · rfl

section

variable {segment piece pending : List UInt8}

theorem fullPieces_of_short (short : segment.length < capacity) : fullPieces segment = [] := by
  rw [fullPieces, Nat.div_eq_of_lt short]
  rfl

theorem remainder_of_short (short : segment.length < capacity) : remainder segment = segment := by
  rw [remainder, Nat.div_eq_of_lt short, Nat.zero_mul, List.drop_zero]

theorem length_append_div (full : piece.length = capacity) :
    (piece ++ segment).length / capacity = segment.length / capacity + 1 := by
  rw [List.length_append, full, Nat.add_div_left segment.length capacity_pos]

theorem drop_append (full : piece.length = capacity) (k : Nat) :
    (piece ++ segment).drop ((k + 1) * capacity) = segment.drop (k * capacity) := by
  rw [Nat.succ_mul, Nat.add_comm, ← List.drop_drop, List.drop_left' full]

theorem fullPieces_append (full : piece.length = capacity) :
    fullPieces (piece ++ segment) = piece :: fullPieces segment := by
  have first : ((piece ++ segment).drop (0 * capacity)).take capacity = piece := by
    rw [Nat.zero_mul, List.drop_zero, List.take_left' full]
  rw [fullPieces, length_append_div full, List.range_succ_eq_map, List.map_cons, first,
    List.map_map]
  simp only [Function.comp_def, Nat.succ_eq_add_one, drop_append full]
  rfl

theorem remainder_append (full : piece.length = capacity) :
    remainder (piece ++ segment) = remainder segment := by
  rw [remainder, length_append_div full, drop_append full, remainder]

/-- A full piece at the start of the first segment is a line, and takes no part in the others. -/
theorem piecesOf_append (full : piece.length = capacity) (segments : List (List UInt8)) :
    piecesOf ((piece ++ segment) :: segments) = piece :: piecesOf (segment :: segments) := by
  cases segments <;> simp only [piecesOf, fullPieces_append full, remainder_append full,
    List.cons_append]

theorem clear_of_not_mem (clear : lineFeed ∉ pending) : ∀ b ∈ pending, (b == lineFeed) = false := by
  intro b inside
  rw [beq_eq_false_iff_ne]
  rintro rfl
  exact clear inside

theorem not_mem_of_clear (clear : ∀ b ∈ pending, (b == lineFeed) = false) : lineFeed ∉ pending := by
  intro inside
  cases clear lineFeed inside

theorem linesOf_pending (clear : lineFeed ∉ pending) (short : pending.length < capacity) :
    linesOf pending = if pending = [] then [] else [textOf pending] := by
  rw [linesOf, Text.splitAll_of_clear (clear_of_not_mem clear), piecesOf, fullPieces_of_short short,
    remainder_of_short short]
  split <;> rfl

theorem linesOf_line (clear : lineFeed ∉ pending) (short : pending.length < capacity)
    (bytes : List UInt8) :
    linesOf (pending ++ lineFeed :: bytes) = textOf pending :: linesOf bytes := by
  have split := Text.splitAll_append_cons (p := (· == lineFeed)) (beq_self_eq_true lineFeed)
    (clear_of_not_mem clear) bytes
  obtain ⟨first, others, more, -⟩ :=
    Text.exists_splitAll_append (clear_of_not_mem List.not_mem_nil) bytes
  rw [linesOf, split, linesOf, more, piecesOf, fullPieces_of_short short, remainder_of_short short]
  · rfl
  · exact List.cons_ne_nil first others

theorem linesOf_full (clear : lineFeed ∉ piece) (full : piece.length = capacity)
    (bytes : List UInt8) :
    linesOf (piece ++ bytes) = textOf piece :: linesOf bytes := by
  obtain ⟨first, others, split, joined⟩ :=
    Text.exists_splitAll_append (clear_of_not_mem clear) bytes
  rw [linesOf, joined, piecesOf_append full, linesOf, split, List.map_cons]

end

/-! ### A splitter -/

/-- What is held is the beginning of one line, too short to be cut. -/
structure Holds (s : LineSplitter) : Prop where
  clear : lineFeed ∉ s.pending.toList
  short : s.size < capacity

theorem holds_fresh : Holds {} := ⟨List.not_mem_nil, capacity_pos⟩

variable {s : LineSplitter}

/-- A byte ends the line, fills it, or is held. -/
theorem Holds.step_cases (held : s.Holds) (b : UInt8) :
    (b = lineFeed ∧ reader.step s b = ([lineOf s.pending], {})) ∨
    (b ≠ lineFeed ∧ (s.pending.push b).size = capacity ∧
      reader.step s b = ([lineOf (s.pending.push b)], {})) ∨
    (b ≠ lineFeed ∧ reader.step s b = ([], ⟨s.pending.push b⟩) ∧ Holds ⟨s.pending.push b⟩) := by
  by_cases ends : b = lineFeed
  · exact .inl ⟨ends, if_pos ends⟩
  refine .inr ?_
  have step : reader.step s b =
      if (s.pending.push b).size = capacity then ([lineOf (s.pending.push b)], {})
      else ([], ⟨s.pending.push b⟩) :=
    if_neg ends
  by_cases full : (s.pending.push b).size = capacity
  · exact .inl ⟨ends, full, step.trans (if_pos full)⟩
  refine .inr ⟨ends, step.trans (if_neg full), ?_, ?_⟩
  · rw [Array.toList_push, List.mem_append, List.mem_singleton, not_or]
    exact ⟨held.clear, Ne.symm ends⟩
  · have short : s.pending.size < capacity := held.short
    rw [Array.size_push] at full
    change (s.pending.push b).size < capacity
    rw [Array.size_push]
    omega

theorem Holds.push (held : s.Holds) (bytes : List UInt8) : (s.push bytes).2.Holds := by
  induction bytes generalizing s with
  | nil => exact held
  | cons b bytes ih =>
      change (reader.feed s (b :: bytes)).2.Holds
      rw [Transducer.feed_cons]
      rcases held.step_cases b with ⟨-, step⟩ | ⟨-, -, step⟩ | ⟨-, step, later⟩
      · rw [step]
        exact ih holds_fresh
      · rw [step]
        exact ih holds_fresh
      · rw [step]
        exact ih later

/-- The lines that are read are those of what is held and of the bytes behind it. -/
theorem Holds.run_eq (held : s.Holds) (bytes : List UInt8) :
    reader.run s bytes = linesOf (s.pending.toList ++ bytes) := by
  induction bytes generalizing s with
  | nil =>
      have finish : reader.run s [] = if s.pending.isEmpty then [] else [lineOf s.pending] := rfl
      rw [List.append_nil, linesOf_pending held.clear held.short, finish, lineOf_eq]
      simp only [Array.isEmpty_iff, Array.toList_eq_nil_iff]
  | cons b bytes ih =>
      rw [Transducer.run_cons]
      have pushed : s.pending.toList ++ b :: bytes = (s.pending.push b).toList ++ bytes := by simp
      rcases held.step_cases b with ⟨rfl, step⟩ | ⟨other, full, step⟩ | ⟨-, step, later⟩
      · rw [step, ih holds_fresh, linesOf_line held.clear held.short, lineOf_eq]
        rfl
      · have clear : lineFeed ∉ (s.pending.push b).toList := by
          rw [Array.toList_push, List.mem_append, List.mem_singleton, not_or]
          exact ⟨held.clear, Ne.symm other⟩
        rw [step, ih holds_fresh, pushed, linesOf_full clear full, lineOf_eq]
        rfl
      · rw [step, ih later, pushed]
        rfl

/-! ### Many pushes -/

def calls : Transducer LineSplitter (List UInt8) String where
  step := push
  finish s := s.finish.1.toList

/-- Pushes complete the lines that their bytes do at once. -/
theorem feed_calls (s : LineSplitter) (pushes : List (List UInt8)) :
    calls.feed s pushes = s.push pushes.flatten := by
  induction pushes generalizing s with
  | nil => rfl
  | cons bytes pushes ih =>
      rw [Transducer.feed_cons, ih, List.flatten_cons, push_append]
      rfl

theorem run_calls (pushes : List (List UInt8)) : calls.run {} pushes = linesOf pushes.flatten := by
  have finish : ∀ s, calls.finish s = reader.finish s := finish_line
  rw [Transducer.run_eq, feed_calls, finish]
  exact holds_fresh.run_eq pushes.flatten

/-! ### The loop of a push -/

/-- What a turn of the loop leaves. -/
structure Turn where
  lines : List String
  splitter : LineSplitter
  rest : List UInt8

/-- A turn of the loop. It looks for a line feed among as many bytes as there is room for. -/
def turn (s : LineSplitter) (rest : List UInt8) : Turn :=
  let window := rest.take (capacity - s.size)
  match Text.splitFirst (· == lineFeed) window with
  | some (before, _) => ⟨[lineOf (s.pending ++ before)], {}, rest.drop (before.length + 1)⟩
  | none =>
    let pending := s.pending ++ window
    if pending.size = capacity then ⟨[lineOf pending], {}, rest.drop window.length⟩
    else ⟨[], ⟨pending⟩, rest.drop window.length⟩

/-- The loop goes on while there are bytes. In each turn there is room for a byte, and one is
read. -/
inductive Loops : LineSplitter → List UInt8 → List String → LineSplitter → Prop
  | done (s : LineSplitter) : Loops s [] [] s
  | turn {s s' : LineSplitter} {rest : List UInt8} {lines : List String} (more : rest ≠ [])
      (room : s.size < capacity) (read : (s.turn rest).rest.length < rest.length)
      (later : Loops (s.turn rest).splitter (s.turn rest).rest lines s') :
      Loops s rest ((s.turn rest).lines ++ lines) s'

theorem size_append (pending : Array UInt8) (bytes : List UInt8) :
    (pending ++ bytes).size = pending.size + bytes.length := by
  rw [← Array.length_toList, Array.toList_appendList, List.length_append, Array.length_toList]

theorem push_held {bytes : List UInt8} (clear : lineFeed ∉ bytes)
    (short : s.size + bytes.length < capacity) :
    s.push bytes = ([], ⟨s.pending ++ bytes⟩) := by
  induction bytes generalizing s with
  | nil => simp
  | cons b bytes ih =>
      rw [List.mem_cons, not_or] at clear
      obtain ⟨other, clear⟩ := clear
      have size : s.size = s.pending.size := rfl
      rw [List.length_cons] at short
      have step : reader.step s b = ([], ⟨s.pending.push b⟩) := by
        change (if b = lineFeed then _ else _) = _
        rw [if_neg (Ne.symm other), if_neg]
        rw [Array.size_push]
        omega
      have later :=
        @ih ⟨s.pending.push b⟩ clear (by simp only [LineSplitter.size, Array.size_push]; omega)
      change reader.feed s (b :: bytes) = _
      rw [Transducer.feed_cons, step]
      change (([] : List String) ++ (LineSplitter.push _ bytes).1,
        (LineSplitter.push _ bytes).2) = _
      rw [later]
      simp

theorem push_line {bytes : List UInt8} (clear : lineFeed ∉ bytes)
    (short : s.size + bytes.length < capacity) :
    s.push (bytes ++ [lineFeed]) = ([lineOf (s.pending ++ bytes)], {}) := by
  rw [push_append, push_held clear short]
  rfl

theorem push_full {bytes : List UInt8} (clear : lineFeed ∉ bytes) (room : s.size < capacity)
    (full : s.size + bytes.length = capacity) :
    s.push bytes = ([lineOf (s.pending ++ bytes)], {}) := by
  rcases List.eq_nil_or_concat bytes with rfl | ⟨front, b, rfl⟩
  · exact absurd full (Nat.ne_of_lt room)
  rw [List.concat_eq_append, List.mem_append, List.mem_singleton, not_or] at clear
  rw [List.concat_eq_append, List.length_append, List.length_singleton] at full
  have size : s.size = s.pending.size := rfl
  have whole : (s.pending ++ front).push b = s.pending ++ (front ++ [b]) := by
    rw [← Array.toList_inj]
    simp
  have step : reader.step ⟨s.pending ++ front⟩ b =
      ([lineOf (s.pending ++ (front ++ [b]))], {}) := by
    change (if b = lineFeed then _ else _) = _
    rw [if_neg (Ne.symm clear.2), whole, if_pos]
    rw [size_append, List.length_append, List.length_singleton]
    exact full
  rw [List.concat_eq_append, push_append, push_held clear.1 (by omega)]
  change (([] : List String) ++ (reader.feed _ [b]).1, (reader.feed _ [b]).2) = _
  rw [Transducer.feed_cons, step]
  rfl

/-- A turn reads the bytes that it takes off as a push of them does, and takes off at least one. -/
theorem turn_spec {rest : List UInt8} (room : s.size < capacity) (more : rest ≠ []) :
    ∃ read, rest = read ++ (s.turn rest).rest ∧ read ≠ [] ∧
    s.push read = ((s.turn rest).lines, (s.turn rest).splitter) := by
  rw [turn]
  have fits : (rest.take (capacity - s.size)).length ≤ capacity - s.size := List.length_take_le ..
  have whole := (List.take_append_drop (capacity - s.size) rest).symm
  have filled : rest.take (capacity - s.size) ≠ [] := by
    rw [Ne, List.take_eq_nil_iff, not_or]
    exact ⟨by omega, more⟩
  generalize rest.take (capacity - s.size) = window at fits whole filled ⊢
  generalize rest.drop (capacity - s.size) = beyond at whole
  subst whole
  dsimp only
  split
  · next before after found =>
    obtain ⟨b, here, rfl, clear⟩ := Text.splitFirst_eq_some_iff.mp found
    obtain rfl := beq_iff_eq.mp here
    rw [List.length_append, List.length_cons] at fits
    have front : before ++ lineFeed :: after ++ beyond =
        before ++ [lineFeed] ++ (after ++ beyond) := by
      simp
    refine ⟨before ++ [lineFeed], ?_, by simp, push_line (not_mem_of_clear clear) (by omega)⟩
    rw [front, List.drop_left' (by simp)]
  · next missing =>
    have clear := not_mem_of_clear (Text.splitFirst_eq_none_iff.mp missing)
    rw [List.drop_left]
    refine ⟨window, ?_, filled, ?_⟩
    · split <;> rfl
    have size : (s.pending ++ window).size = s.size + window.length := size_append ..
    split
    · next full => exact push_full clear room (size ▸ full)
    · next other => exact push_held clear (by omega)

/-- The loop of a push ends with nothing but what the push leaves. -/
theorem Loops.push_eq {s' : LineSplitter} {bytes : List UInt8} {lines : List String}
    (loops : Loops s bytes lines s') : s.push bytes = (lines, s') := by
  induction loops with
  | done => rfl
  | @turn s s' rest lines more room _ _ ih =>
      obtain ⟨read, whole, -, pushed⟩ := turn_spec room more
      have joined := push_append s read (s.turn rest).rest
      rwa [← whole, pushed, ih] at joined

/-- The loop of a push ends. -/
theorem Holds.loops (held : s.Holds) (bytes : List UInt8) :
    Loops s bytes (s.push bytes).1 (s.push bytes).2 := by
  induction size : bytes.length using Nat.strongRecOn generalizing s bytes with
  | ind n ih =>
      cases bytes with
      | nil => exact .done s
      | cons b bytes =>
          have more := List.cons_ne_nil b bytes
          obtain ⟨read, whole, filled, pushed⟩ := turn_spec held.short more
          have onward : (s.turn (b :: bytes)).splitter.Holds := by
            have later := held.push read
            rwa [pushed] at later
          have shorter : (s.turn (b :: bytes)).rest.length < (b :: bytes).length := by
            have sizes := congrArg List.length whole
            have one := List.length_pos_iff.mpr filled
            rw [List.length_append] at sizes
            omega
          have loops := Loops.turn more held.short shorter (ih _ (size ▸ shorter) onward _ rfl)
          have joined := push_append s read (s.turn (b :: bytes)).rest
          rw [← whole, pushed] at joined
          rwa [joined]

/-- The lines of a log do not depend on how its bytes are cut into pushes: they are those of the
reference. After every push less is held than a line may have, and the loop of the next one ends,
with room for a byte and a byte read in each of its turns. -/
theorem split_eq_reference (pushes : List (List UInt8)) :
    calls.run {} pushes = linesOf pushes.flatten ∧
    (calls.feed {} pushes).2.size < capacity ∧ (calls.feed {} pushes).2.finish.2.size = 0 ∧
    ∀ bytes lines s, Loops (calls.feed {} pushes).2 bytes lines s ↔
      (calls.feed {} pushes).2.push bytes = (lines, s) := by
  have held : (calls.feed {} pushes).2.Holds := by
    rw [feed_calls]
    exact holds_fresh.push pushes.flatten
  refine ⟨run_calls pushes, held.short, ?_, ?_⟩
  · rw [finish_rest]
    rfl
  · intro bytes lines s
    refine ⟨Loops.push_eq, fun left => ?_⟩
    have loops := held.loops bytes
    rwa [left] at loops

end FleetBoard.LineSplitter

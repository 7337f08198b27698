import FleetBoard.Proofs.Time.Forms

/-!
# What the layouts accept

A layout reads just the texts that are made of texts of its pieces, provided that no piece can run
on into the next. Two layouts with a common beginning read it alike, so whether a text can have both
is settled by the first characters of what is left of them.
-/

namespace FleetBoard.Time

/-- The texts of a layout, and the fields after them. -/
inductive Layout.Writes : Layout → Fields → List Char → Fields → Prop
  | nil {f : Fields} : Writes [] f [] f
  | cons {p : Piece} {l : Layout} {f g h : Fields} {w s : List Char} (first : p.Writes f w g)
      (rest : Writes l g s h) : Writes (p :: l) f (w ++ s) h

variable {p q : Piece} {l m : Layout} {f g h : Fields} {w s rest : List Char}

theorem Layout.writes_nil_iff : Layout.Writes [] f s g ↔ s = [] ∧ f = g := by
  constructor
  · rintro ⟨⟩
    exact ⟨rfl, rfl⟩
  · rintro ⟨rfl, rfl⟩
    exact .nil

theorem Layout.writes_cons_iff : Layout.Writes (p :: l) f s h ↔
    ∃ w rest g, s = w ++ rest ∧ p.Writes f w g ∧ Layout.Writes l g rest h := by
  constructor
  · rintro ⟨⟩
    next first rest => exact ⟨_, _, _, rfl, first, rest⟩
  · rintro ⟨w, rest, g, rfl, first, later⟩
    exact .cons first later

/-! ### Pieces that end where the next begins -/

/-- The characters that a piece can begin with, where they are few. -/
def Piece.openings : Piece → Option (List Char)
  | .lit c => some [c]
  | .offset | .offsetColon => some ['+', '-']
  | _ => none

/-- Does a piece read as far as it can? -/
def Piece.isGreedy : Piece → Bool
  | .fraction | .looseDay | .zoneName => true
  | _ => false

/-- Does a piece end where a layout begins? -/
def Piece.endsBefore (p : Piece) : Layout → Bool
  | [] => true
  | q :: _ =>
    match q.openings with
    | some openings => openings.all fun c => !p.takesMore c
    | none => !p.isGreedy

/-- Does every piece of a layout end where the next begins? -/
def Layout.isSeparated : Layout → Bool
  | [] => true
  | p :: l => p.endsBefore l && Layout.isSeparated l

theorem Piece.opening_of_writes {openings : List Char} (known : p.openings = some openings)
    (written : p.Writes f w g) : ∃ c ∈ openings, ∃ v, w = c :: v := by
  cases written with
  | lit c =>
      cases known
      exact ⟨c, List.mem_singleton_self c, [], rfl⟩
  | offset form =>
      cases known
      obtain ⟨-, -⟩ := form
      exact ⟨_, by split <;> decide, _, rfl⟩
  | offsetColon form =>
      cases known
      obtain ⟨-, -⟩ := form
      exact ⟨_, by split <;> decide, _, rfl⟩
  | number kind => cases p <;> cases kind <;> cases known
  | _ => cases known

theorem Piece.takesMore_of_not_greedy (plain : p.isGreedy = false) (c : Char) :
    p.takesMore c = false := by
  cases p <;> first | rfl | cases plain

/-- A text of a layout does not go on with a piece that ends before the layout. -/
theorem Piece.stops_of_endsBefore (ends : p.endsBefore l = true) (written : l.Writes f s g) :
    ∀ c ∈ s.head?, p.takesMore c = false := by
  intro c next
  cases written with
  | nil => cases next
  | cons first later =>
      rw [endsBefore] at ends
      split at ends
      · next openings known =>
          obtain ⟨d, among, v, rfl⟩ := opening_of_writes known first
          cases next
          simpa using List.all_eq_true.mp ends _ among
      · exact takesMore_of_not_greedy (by simpa using ends) c

/-! ### Reading a layout -/

theorem Layout.readFrom_cons_eq_some_iff {r : Fields × List Char} :
    Layout.readFrom f s (p :: l) = some r ↔
      ∃ g rest, p.read f s = some (g, rest) ∧ l.readFrom g rest = some r := by
  rw [readFrom]
  cases p.read f s with
  | none => simp
  | some read =>
      constructor
      · intro later
        exact ⟨_, _, rfl, later⟩
      · rintro ⟨g, rest, same, later⟩
        cases same
        exact later

theorem Layout.writes_of_readFrom (read : l.readFrom f s = some (g, rest)) :
    ∃ w, s = w ++ rest ∧ l.Writes f w g := by
  induction l generalizing f s with
  | nil =>
      cases read
      exact ⟨[], rfl, .nil⟩
  | cons p l ih =>
      obtain ⟨e, t, first, later⟩ := readFrom_cons_eq_some_iff.mp read
      obtain ⟨v, rfl, front⟩ := Piece.writes_of_read first
      obtain ⟨w, rfl, back⟩ := ih later
      exact ⟨v ++ w, (List.append_assoc ..).symm, .cons front back⟩

theorem Layout.readFrom_of_writes (separated : l.isSeparated = true) (written : l.Writes f s g) :
    l.readFrom f s = some (g, []) := by
  induction written with
  | nil => rfl
  | cons first later ih =>
      rw [isSeparated, Bool.and_eq_true] at separated
      have front := Piece.read_of_writes first (Piece.stops_of_endsBefore separated.1 later)
      exact readFrom_cons_eq_some_iff.mpr ⟨_, _, front, ih separated.2⟩

/-- Pieces that do not read as far as they can are read off whatever stands after them. -/
theorem Layout.readFrom_append_of_writes (plain : ∀ p ∈ l, p.isGreedy = false)
    (written : l.Writes f w g) (rest : List Char) : l.readFrom f (w ++ rest) = some (g, rest) := by
  induction written with
  | nil => rfl
  | cons first _ ih =>
      have others := ih fun q inside => plain q (List.mem_cons_of_mem _ inside)
      have stops := Piece.takesMore_of_not_greedy (plain _ List.mem_cons_self)
      rw [List.append_assoc]
      exact readFrom_cons_eq_some_iff.mpr
        ⟨_, _, Piece.read_of_writes first fun c _ => stops c, others⟩

theorem Layout.Writes.append (one : l.Writes f s g) (other : m.Writes g w h) :
    Layout.Writes (l ++ m) f (s ++ w) h := by
  induction one with
  | nil => exact other
  | cons first _ ih =>
      rw [List.append_assoc]
      exact .cons first (ih other)

/-- A layout is read off the start of a text up to a character at which its pieces end, whatever
follows. -/
theorem Layout.readFrom_append_lit {c : Char}
    (separated : Layout.isSeparated (l ++ [.lit c]) = true) (written : l.Writes f w g)
    (rest : List Char) :
    Layout.readFrom f (w ++ c :: rest) (l ++ [.lit c]) = some (g, rest) := by
  induction written with
  | nil => simp [readFrom, Piece.read]
  | @cons p l f g h w s first later ih =>
      rw [List.cons_append, isSeparated, Bool.and_eq_true] at separated
      have whole := later.append (.cons (.lit c) .nil)
      have stops := Piece.stops_of_endsBefore separated.1 whole
      have front : p.read f (w ++ (s ++ c :: rest)) = some (g, s ++ c :: rest) := by
        apply Piece.read_of_writes first
        intro d next
        apply stops d
        cases s <;> exact next
      rw [List.append_assoc]
      exact readFrom_cons_eq_some_iff.mpr ⟨_, _, front, ih separated.2⟩

/-- A layout whose pieces are separated reads exactly its own texts. -/
theorem Layout.read_eq_some_iff (separated : l.isSeparated = true) :
    l.read s = some f ↔ l.Writes {} s f := by
  rw [read]
  constructor
  · intro done
    split at done
    · next g whole =>
        cases done
        obtain ⟨w, rfl, written⟩ := writes_of_readFrom whole
        rwa [List.append_nil]
    · cases done
  · intro written
    rw [readFrom_of_writes separated written]

theorem Layout.readFrom_of_read (done : l.read s = some f) : l.readFrom {} s = some (f, []) := by
  rw [read] at done
  split at done
  · next g whole =>
      cases done
      exact whole
  · cases done

/-! ### Layouts that no text has both of -/

/-- What can be said of a character in a fixed place of a written time. -/
inductive CharClass where
  | only (c : Char)
  | digit
  | noDigit
  | capital
  | sign
  deriving DecidableEq

namespace CharClass

def holds : CharClass → Char → Bool
  | only d, c => c = d
  | digit, c => c.isDigit
  | noDigit, c => !c.isDigit
  | capital, c => isCapital c
  | sign, c => c = '+' || c = '-'

/-- Have two classes no character in common? The answer is for the pairs that occur, in one
order. -/
def excludes : CharClass → CharClass → Bool
  | only c, k => !k.holds c
  | digit, noDigit | digit, capital | digit, sign | capital, sign => true
  | _, _ => false

/-- Have two classes no character in common, as far as is known? -/
def isApart (j k : CharClass) : Bool := j.excludes k || k.excludes j

theorem not_isDigit_of_isCapital {c : Char} (capital : isCapital c = true) : c.isDigit = false := by
  simp only [isCapital, Bool.and_eq_true, decide_eq_true_eq, Char.le_def,
    UInt32.le_iff_toNat_le] at capital
  change 65 ≤ c.val.toNat ∧ c.val.toNat ≤ 90 at capital
  rw [← Bool.not_eq_true]
  intro digit
  simp only [Char.isDigit, Bool.and_eq_true, decide_eq_true_eq, ge_iff_le,
    UInt32.le_iff_toNat_le] at digit
  change 48 ≤ c.val.toNat ∧ c.val.toNat ≤ 57 at digit
  omega

theorem not_holds_of_excludes {j k : CharClass} (apart : j.excludes k = true) {c : Char}
    (one : j.holds c = true) (other : k.holds c = true) : False := by
  cases j with
  | only d =>
      obtain rfl : c = d := by simpa [holds] using one
      change (!k.holds c) = true at apart
      rw [other] at apart
      cases apart
  | digit =>
      cases k with
      | noDigit => simp_all [holds]
      | capital => simp_all [holds, not_isDigit_of_isCapital other]
      | sign =>
          have either : c = '+' ∨ c = '-' := by simpa [holds] using other
          rcases either with rfl | rfl <;> cases one
      | only | digit => cases apart
  | capital =>
      cases k with
      | sign =>
          have either : c = '+' ∨ c = '-' := by simpa [holds] using other
          rcases either with rfl | rfl <;> cases one
      | only | digit | noDigit | capital => cases apart
  | noDigit => cases k <;> cases apart
  | sign => cases k <;> cases apart

theorem not_holds_of_isApart {j k : CharClass} (apart : j.isApart k = true) {c : Char}
    (one : j.holds c = true) (other : k.holds c = true) : False := by
  rcases Bool.or_eq_true_iff.mp apart with apart | apart
  · exact not_holds_of_excludes apart one other
  · exact not_holds_of_excludes apart other one

end CharClass

/-- A text begins with characters of these classes. -/
def Begins : List CharClass → List Char → Prop
  | [], _ => True
  | _ :: _, [] => False
  | k :: classes, c :: s => k.holds c = true ∧ Begins classes s

theorem begins_of_prefix {classes : List CharClass} (begins : Begins classes w) (s : List Char) :
    Begins classes (w ++ s) := by
  induction classes generalizing w with
  | nil => trivial
  | cons k classes ih =>
      cases w with
      | nil => cases begins
      | cons c w => exact ⟨begins.1, ih begins.2⟩

theorem not_begins_of_isApart {classes others : List CharClass}
    (apart : ((classes.zip others).any fun (j, k) => j.isApart k) = true)
    (one : Begins classes s) (other : Begins others s) : False := by
  induction classes generalizing others s with
  | nil => cases apart
  | cons j classes ih =>
      cases others with
      | nil => cases apart
      | cons k others =>
          cases s with
          | nil => cases one
          | cons c s =>
              rw [List.zip_cons_cons, List.any_cons, Bool.or_eq_true] at apart
              rcases apart with apart | apart
              · exact CharClass.not_holds_of_isApart apart one.1 other.1
              · exact ih apart one.2 other.2

/-- The classes of the characters that a piece begins with, and whether these are all. -/
def Piece.classes : Piece → List CharClass × Bool
  | .lit c => ([.only c], true)
  | .year => (List.replicate 4 .digit, true)
  | .month | .day | .hour | .minute | .second => (List.replicate 2 .digit, true)
  | .fraction => ([], false)
  | .monthName | .weekday => ([.noDigit], false)
  | .looseDay => ([.only ' '], false)
  | .zoneName => ([.capital], false)
  | .offset => (.sign :: (List.replicate 2 .digit ++ List.replicate 2 .digit), true)
  | .offsetColon =>
      (.sign :: (List.replicate 2 .digit ++ .only ':' :: List.replicate 2 .digit), true)

/-- The classes of the first characters of a layout. -/
def Layout.classes : Layout → List CharClass
  | [] => []
  | p :: l =>
    match p.classes with
    | (classes, true) => classes ++ Layout.classes l
    | (classes, false) => classes

theorem Digits.begins {width n : Nat} {more : List CharClass} (form : Digits width n w)
    (later : Begins more s) : Begins (List.replicate width .digit ++ more) (w ++ s) := by
  obtain ⟨rfl, digits, -⟩ := form
  induction w with
  | nil => exact later
  | cons c w ih =>
      exact ⟨digits c List.mem_cons_self, ih fun d inside =>
        digits d (List.mem_cons_of_mem c inside)⟩

theorem isDigit_toLower {c : Char} (digit : c.isDigit = true) : c.toLower.isDigit = true := by
  have same : c.toLower = c := by
    simp only [Char.isDigit, Bool.and_eq_true, decide_eq_true_eq, ge_iff_le,
      UInt32.le_iff_toNat_le] at digit
    change 48 ≤ c.val.toNat ∧ c.val.toNat ≤ 57 at digit
    delta Char.toLower
    rw [dif_neg]
    rintro ⟨capital, -⟩
    rw [ge_iff_le, UInt32.le_iff_toNat_le] at capital
    change 65 ≤ c.val.toNat at capital
    omega
  rw [same]
  exact digit

/-- A name has no digits, and is not empty. -/
theorem NameForm.begins {names : List String}
    (letters : ∀ name ∈ names, ∀ c ∈ name.toList, c.isDigit = false) {place : Nat}
    (form : NameForm names place w) : Begins [.noDigit] w := by
  cases w with
  | nil => cases form.width
  | cons c w =>
      have inside : c.toLower ∈ (String.ofList ((c :: w).map Char.toLower)).toList := by simp
      have letter := letters _ (List.mem_of_getElem? form.found) _ inside
      refine ⟨?_, trivial⟩
      cases digit : c.isDigit with
      | false => simp [CharClass.holds, digit]
      | true => rw [isDigit_toLower digit] at letter; cases letter

theorem Piece.begins_whole {classes more : List CharClass} (known : p.classes = (classes, true))
    (written : p.Writes f w g) (later : Begins more s) : Begins (classes ++ more) (w ++ s) := by
  have signed (behind : Bool) : CharClass.sign.holds (if behind then '-' else '+') = true := by
    cases behind <;> rfl
  cases written with
  | lit c =>
      cases known
      exact ⟨decide_eq_true rfl, later⟩
  | number kind form => cases p <;> cases kind <;> cases known <;> exact form.begins later
  | offset form =>
      cases known
      obtain ⟨hour, minute⟩ := form
      simp only [List.cons_append, List.append_assoc, List.nil_append]
      exact ⟨signed _, hour.begins (minute.begins later)⟩
  | offsetColon form =>
      cases known
      obtain ⟨hour, minute⟩ := form
      simp only [List.cons_append, List.append_assoc, List.nil_append]
      refine ⟨signed _, hour.begins ?_⟩
      exact ⟨rfl, minute.begins later⟩
  | _ => cases known

theorem Piece.begins_part {classes : List CharClass} (known : p.classes = (classes, false))
    (written : p.Writes f w g) : Begins classes w := by
  cases written with
  | noFraction =>
      cases known
      trivial
  | fraction =>
      cases known
      trivial
  | monthName form =>
      cases known
      exact form.begins (by simp [monthNames])
  | weekday form =>
      cases known
      exact form.begins (by simp [weekdayNames])
  | looseDay form =>
      cases known
      cases form <;> exact ⟨rfl, trivial⟩
  | zoneName form =>
      cases known
      cases w with
      | nil => exact absurd form.bounds.1 (by decide)
      | cons c w => exact ⟨form.capitals c List.mem_cons_self, trivial⟩
  | number kind => cases p <;> cases kind <;> cases known
  | _ => cases known

theorem Layout.begins_classes (written : l.Writes f s g) : Begins l.classes s := by
  induction written with
  | nil => trivial
  | cons first _ ih =>
      rw [classes]
      split
      · next known => exact Piece.begins_whole known first ih
      · next known => exact begins_of_prefix (Piece.begins_part known first) _

/-- Is it settled, after the common beginning of two layouts, that no text has both? -/
def Layout.isApart : Layout → Layout → Bool
  | [], m => !m.classes.isEmpty
  | l, [] => !l.classes.isEmpty
  | p :: l, q :: m =>
    if p = q then Layout.isApart l m
    else ((Layout.classes (p :: l)).zip (Layout.classes (q :: m))).any fun (j, k) => j.isApart k

theorem Layout.classes_of_readFrom_nil (read : l.readFrom f [] = some (g, rest)) :
    l.classes = [] := by
  obtain ⟨w, empty, written⟩ := writes_of_readFrom read
  obtain ⟨rfl, -⟩ := List.nil_eq_append_iff.mp empty
  have begins := begins_classes written
  cases known : l.classes with
  | nil => rfl
  | cons k classes =>
      rw [known] at begins
      cases begins

theorem Layout.begins_of_readFrom (read : l.readFrom f s = some (g, rest)) :
    Begins l.classes s := by
  obtain ⟨w, rfl, written⟩ := writes_of_readFrom read
  exact begins_of_prefix (begins_classes written) rest

/-- Where two layouts are apart, the one can be read off the start of a text that has the other only
if it is a beginning of the other, and something is left. -/
theorem Layout.prefix_of_reads (apart : l.isApart m = true) (one : l.readFrom f s = some (g, rest))
    (other : m.readFrom f s = some (h, [])) : l <+: m ∧ rest ≠ [] := by
  fun_induction isApart l m generalizing f s with
  | case1 m =>
      refine ⟨List.nil_prefix, ?_⟩
      rintro rfl
      cases one
      simp [classes_of_readFrom_nil other] at apart
  | case2 l =>
      cases other
      simp [classes_of_readFrom_nil one] at apart
  | case3 l p m ih =>
      obtain ⟨d, t, first, one⟩ := readFrom_cons_eq_some_iff.mp one
      obtain ⟨e, u, second, other⟩ := readFrom_cons_eq_some_iff.mp other
      cases first.symm.trans second
      obtain ⟨begins, left⟩ := ih apart one other
      exact ⟨(List.prefix_cons_inj p).mpr begins, left⟩
  | case4 =>
      exact (not_begins_of_isApart apart (begins_of_readFrom one) (begins_of_readFrom other)).elim

/-! ### The layouts of log lines -/

/-- The layout with loose days for days between spaces. Only so can a layout be compared with one
that has a loose day in this place. -/
def Layout.loosen : Layout → Layout
  | .lit ' ' :: .day :: .lit ' ' :: l => .looseDay :: .lit ' ' :: Layout.loosen l
  | p :: l => p :: Layout.loosen l
  | [] => []

/-- A day of two digits after one space can be read as a loose day. -/
theorem Layout.readFrom_loosen (read : l.readFrom f s = some (g, rest)) :
    l.loosen.readFrom f s = some (g, rest) := by
  fun_induction loosen l generalizing f s with
  | case1 l ih =>
      obtain ⟨d, _, space, read⟩ := readFrom_cons_eq_some_iff.mp read
      obtain ⟨_, _, day, read⟩ := readFrom_cons_eq_some_iff.mp read
      obtain ⟨_, t, after, read⟩ := readFrom_cons_eq_some_iff.mp read
      obtain ⟨_, rfl, one⟩ := Piece.writes_of_read space
      obtain ⟨rfl, rfl⟩ := Piece.writes_lit_iff.mp one
      obtain ⟨digits, rfl, number⟩ := Piece.writes_of_read day
      obtain ⟨n, form, rfl⟩ := (Piece.writes_number_iff rfl).mp number
      obtain ⟨_, rfl, two⟩ := Piece.writes_of_read after
      obtain ⟨rfl, rfl⟩ := Piece.writes_lit_iff.mp two
      have loose (f : Fields) : Piece.looseDay.Writes f (' ' :: digits) { f with day := n } :=
        .looseDay (.one ⟨Nat.le_succ 1, Nat.le_refl 2⟩ form)
      have stops : ∀ t : List Char, ∀ c ∈ (' ' :: t).head?, Piece.looseDay.takesMore c = false := by
        rintro t c ⟨⟩
        rfl
      have front := Piece.read_of_writes (loose d) (stops t)
      have back : Layout.readFrom { d with day := n } (' ' :: t) (.lit ' ' :: loosen l) = _ :=
        readFrom_cons_eq_some_iff.mpr ⟨_, t, rfl, ih read⟩
      exact readFrom_cons_eq_some_iff.mpr ⟨_, _, front, back⟩
  | case2 p l _ ih =>
      obtain ⟨e, t, first, read⟩ := readFrom_cons_eq_some_iff.mp read
      exact readFrom_cons_eq_some_iff.mpr ⟨e, t, first, ih read⟩
  | case3 => exact read

theorem Layout.isSeparated_of_mem_ofLogs : ∀ l ∈ Layout.ofLogs, l.isSeparated = true := by decide

/-- No text has two of the layouts. -/
theorem Layout.ofLogs_exclusive : Layout.ofLogs.Pairwise fun l m =>
    ∀ s f g, l.read s = some f → m.read s = some g → False := by
  have apart : (Layout.ofLogs.map loosen).Pairwise fun l m => l.isApart m = true := by decide
  rw [List.pairwise_map] at apart
  refine apart.imp ?_
  intro l m apart s f g one other
  have reads := prefix_of_reads apart (readFrom_loosen (readFrom_of_read one))
    (readFrom_loosen (readFrom_of_read other))
  exact reads.2 rfl

end FleetBoard.Time

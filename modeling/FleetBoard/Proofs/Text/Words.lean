import FleetBoard.Proofs.Text.Trimming
import FleetBoard.Text.Word
import Mathlib

/-!
# Words are maximal runs

The words of a text are read in one pass. What they are can be said without it: a text is made of
words with gaps around them in one way only (`Spells`), and these words are the runs of word
characters that no other word character touches (`IsRun`). To find a keyword between two boundaries
is to find such a run.
-/

namespace FleetBoard.Text

def IsGap (s : List Char) : Prop := ∀ c ∈ s, isWordChar c = false

structure IsWord (w : List Char) : Prop where
  filled : w ≠ []
  letters : ∀ c ∈ w, isWordChar c = true

/-- A maximal run: a word with no word character before or behind it. -/
structure IsRun (s w : List Char) : Prop where
  word : IsWord w
  around : ∃ before after, s = before ++ (w ++ after) ∧
    (∀ c ∈ before.getLast?, isWordChar c = false) ∧
    ∀ c ∈ after.head?, isWordChar c = false

/-- The text is made of these words, with a gap before each of them and a last one behind. No gap
between two words is empty. -/
inductive Spells : List (List Char) → List Char → Prop
  | gap {s : List Char} (plain : IsGap s) : Spells [] s
  | word {gap w rest : List Char} {ws : List (List Char)} (plain : IsGap gap) (word : IsWord w)
      (ends : ∀ c ∈ rest.head?, isWordChar c = false) (later : Spells ws rest) :
      Spells (w :: ws) (gap ++ (w ++ rest))

/-- Of the characters on the two sides of a position, just one is a word character. There may be
none on a side. -/
def AtBoundary (before after : List Char) : Prop :=
  before.getLast?.any isWordChar ≠ after.head?.any isWordChar

/-- The keyword stands somewhere in the text, whatever the case of its letters, from boundary to
boundary. -/
def Finds (keyword s : List Char) : Prop :=
  ∃ before w after, s = before ++ (w ++ after) ∧ lowerAscii w = keyword ∧
    AtBoundary before (w ++ after) ∧
    AtBoundary (before ++ w) after

variable {gap w v s t rest keyword : List Char} {ws : List (List Char)}

/-! ### Characters -/

theorem isWordChar_of_isAlphanum {c : Char} (alphanum : c.isAlphanum = true) :
    isWordChar c = true := by
  have small : c.toNat < 0x80 := by
    simp only [Char.isAlphanum, Char.isAlpha, Char.isUpper, Char.isLower, Char.isDigit,
      Bool.or_eq_true, Bool.and_eq_true, decide_eq_true_eq, ge_iff_le, UInt32.le_iff_toNat_le]
      at alphanum
    change ((65 ≤ c.toNat ∧ c.toNat ≤ 90) ∨ 97 ≤ c.toNat ∧ c.toNat ≤ 122) ∨
      48 ≤ c.toNat ∧ c.toNat ≤ 57 at alphanum
    omega
  rw [isWordChar, if_pos small, alphanum, Bool.true_or]

theorem isWordChar_toLower (c : Char) : isWordChar c.toLower = isWordChar c := by
  have letter {d : Char} (alpha : d.isAlpha = true) : isWordChar d = true :=
    isWordChar_of_isAlphanum (by rw [Char.isAlphanum, alpha, Bool.true_or])
  by_cases capital : c.isUpper = true
  · have alpha : c.isAlpha = true := by rw [Char.isAlpha, capital, Bool.true_or]
    rw [letter alpha, letter ((Char.isAlpha_toLower_eq_isAlpha c).trans alpha)]
  · rw [Char.toLower_eq_of_not_isUpper capital]

/-- No blank belongs to a word. -/
theorem isWordChar_of_isBlank {c : Char} (blank : isBlank c = true) : isWordChar c = false := by
  have codes : ∀ n ∈ [0x09, 0x0a, 0x0b, 0x0c, 0x0d, 0x20, 0x85, 0xa0, 0x1680, 0x2000, 0x2001,
    0x2002, 0x2003, 0x2004, 0x2005, 0x2006, 0x2007, 0x2008, 0x2009, 0x200a, 0x2028, 0x2029, 0x202f,
    0x205f, 0x3000], isWordChar (Char.ofNat n) = false := by decide +kernel
  rw [← Char.ofNat_toNat c]
  apply codes
  simp only [isBlank, Bool.or_eq_true, Bool.and_eq_true, decide_eq_true_eq, beq_iff_eq] at blank
  simp only [List.mem_cons, List.not_mem_nil, or_false]
  omega

theorem isBlank_of_isAlphanum {c : Char} (alphanum : c.isAlphanum = true) : isBlank c = false := by
  rw [← Bool.not_eq_true]
  intro blank
  cases (isWordChar_of_isAlphanum alphanum).symm.trans (isWordChar_of_isBlank blank)

/-! ### The reading -/

theorem wordReader_step_letter {c : Char} (letter : isWordChar c = true) (current : List Char) :
    wordReader.step current c = ([], c :: current) := if_pos letter

theorem wordReader_step_gap {c : Char} (plain : isWordChar c = false) (current : List Char) :
    wordReader.step current c = (wordReader.finish current, []) :=
  if_neg (by rw [plain]; exact Bool.false_ne_true)

theorem words_gap_append (plain : IsGap gap) (s : List Char) : words (gap ++ s) = words s := by
  induction gap with
  | nil => rfl
  | cons c gap ih =>
      rw [words, List.cons_append, Transducer.run_cons,
        wordReader_step_gap (plain c List.mem_cons_self)]
      exact ih fun d inside => plain d (List.mem_cons_of_mem c inside)

theorem feed_letters (letters : ∀ c ∈ w, isWordChar c = true) (current : List Char) :
    wordReader.feed current w = ([], w.reverse ++ current) := by
  induction w generalizing current with
  | nil => rfl
  | cons c w ih =>
      have later := ih fun d inside => letters d (List.mem_cons_of_mem c inside)
      rw [Transducer.feed_cons, wordReader_step_letter (letters c List.mem_cons_self), later,
        List.reverse_cons, List.append_assoc]
      rfl

theorem finish_reverse (filled : w ≠ []) : wordReader.finish w.reverse = [w] := by
  show (if w.reverse.isEmpty = true then [] else [w.reverse.reverse]) = [w]
  rw [List.reverse_reverse, if_neg]
  rwa [List.isEmpty_iff, List.reverse_eq_nil_iff]

/-- A word that ends where it seems to end is put out. -/
theorem words_word_append (word : IsWord w) (ends : ∀ c ∈ rest.head?, isWordChar c = false) :
    words (w ++ rest) = w :: words rest := by
  rw [words, Transducer.run_append, feed_letters word.letters, List.append_nil, List.nil_append]
  cases rest with
  | nil => exact finish_reverse word.filled
  | cons c rest =>
      have plain := ends c rfl
      rw [words, Transducer.run_cons, Transducer.run_cons, wordReader_step_gap plain,
        wordReader_step_gap plain, finish_reverse word.filled]
      rfl

/-- A gap at the end changes no word. -/
theorem words_append_gap (plain : IsGap gap) (s : List Char) : words (s ++ gap) = words s := by
  cases gap with
  | nil => rw [List.append_nil]
  | cons c gap =>
      have none := words_gap_append (fun d inside => plain d (List.mem_cons_of_mem c inside)) []
      rw [List.append_nil] at none
      rw [words, Transducer.run_append, Transducer.run_cons,
        wordReader_step_gap (plain c List.mem_cons_self)]
      show _ ++ (_ ++ words gap) = _
      rw [none]
      show _ ++ (_ ++ []) = _
      rw [List.append_nil]
      rfl

/-! ### The words of a text -/

theorem Spells.words_eq (spells : Spells ws s) : words s = ws := by
  induction spells with
  | @gap s plain =>
      have none := words_gap_append plain []
      rwa [List.append_nil] at none
  | word plain word ends later ih => rw [words_gap_append plain, words_word_append word ends, ih]

theorem isGap_nil : IsGap [] := fun _ inside => absurd inside List.not_mem_nil

theorem IsGap.cons {c : Char} (plain : isWordChar c = false) (more : IsGap gap) :
    IsGap (c :: gap) :=
  List.forall_mem_cons.mpr ⟨plain, more⟩

theorem isWord_cons {c : Char} (letter : isWordChar c = true)
    (letters : ∀ d ∈ w, isWordChar d = true) :
    IsWord (c :: w) := ⟨List.cons_ne_nil c w, List.forall_mem_cons.mpr ⟨letter, letters⟩⟩

/-- One character more in front belongs to the first gap, or to the first word, or is a word of its
own. -/
theorem Spells.exists_cons (spells : Spells ws s) (c : Char) : ∃ vs, Spells vs (c :: s) := by
  by_cases letter : isWordChar c = true
  · have alone := isWord_cons letter (List.forall_mem_nil _)
    cases spells with
    | gap plain =>
        have ends : ∀ d ∈ s.head?, isWordChar d = false :=
          fun d first => plain d (List.mem_of_head? first)
        exact ⟨_, .word isGap_nil alone ends (.gap plain)⟩
    | @word gap w rest ws plain word ends later =>
        cases gap with
        | nil => exact ⟨_, .word isGap_nil (isWord_cons letter word.letters) ends later⟩
        | cons d gap =>
            have stops : ∀ e ∈ (d :: gap ++ (w ++ rest)).head?, isWordChar e = false := by
              rintro e ⟨⟩
              exact plain d List.mem_cons_self
            exact ⟨_, .word isGap_nil alone stops (.word plain word ends later)⟩
  · rw [Bool.not_eq_true] at letter
    cases spells with
    | gap plain => exact ⟨_, .gap (plain.cons letter)⟩
    | word plain word ends later => exact ⟨_, .word (plain.cons letter) word ends later⟩

theorem spells_words (s : List Char) : Spells (words s) s := by
  have made : ∃ ws, Spells ws s := by
    induction s with
    | nil => exact ⟨[], .gap isGap_nil⟩
    | cons c s ih =>
        obtain ⟨ws, spells⟩ := ih
        exact spells.exists_cons c
  obtain ⟨ws, spells⟩ := made
  rwa [spells.words_eq]

/-- A text is made of words in one way. -/
theorem spells_iff : Spells ws s ↔ words s = ws := by
  constructor
  · exact Spells.words_eq
  · rintro rfl
    exact spells_words s

/-! ### Runs -/

theorem last_of_append {b : List Char} {P : Char → Prop} (last : ∀ c ∈ (s ++ b).getLast?, P c) :
    ∀ c ∈ b.getLast?, P c := by
  intro c inside
  apply last
  rw [List.getLast?_append, inside]
  rfl

theorem last_append_cons {c : Char} {b : List Char} {P : Char → Prop}
    (last : ∀ d ∈ (c :: b).getLast?, P d) (s : List Char) : ∀ d ∈ (s ++ c :: b).getLast?, P d := by
  intro d inside
  apply last
  rw [List.getLast?_append, List.getLast?_cons] at inside
  rw [List.getLast?_cons]
  exact inside

theorem IsRun.not_of_isGap (plain : IsGap s) (run : IsRun s w) : False := by
  obtain ⟨⟨filled, letters⟩, before, after, rfl, -, -⟩ := run
  cases w with
  | nil => exact filled rfl
  | cons c w =>
      have other := plain c (by simp)
      rw [letters c List.mem_cons_self] at other
      cases other

/-- A run stays one when something is added behind a separator. -/
theorem IsRun.append (run : IsRun s w) (ends : ∀ c ∈ t.head?, isWordChar c = false) :
    IsRun (s ++ t) w := by
  obtain ⟨word, before, after, rfl, left, right⟩ := run
  refine ⟨word, before, after ++ t, by simp only [List.append_assoc], left, ?_⟩
  cases after with
  | nil => exact ends
  | cons c after => exact right

/-- A run stays one when something is added before it, unless a word character comes to touch it. -/
theorem IsRun.prepend (run : IsRun t w) (ends : ∀ c ∈ t.head?, isWordChar c = false)
    (s : List Char) :
    IsRun (s ++ t) w := by
  obtain ⟨word, before, after, rfl, left, right⟩ := run
  refine ⟨word, s ++ before, after, by simp only [List.append_assoc], ?_, right⟩
  cases before with
  | nil =>
      cases w with
      | nil => exact absurd rfl word.filled
      | cons c w =>
          have other := ends c rfl
          rw [word.letters c List.mem_cons_self] at other
          cases other
  | cons c before => exact last_append_cons left s

/-- Two words at the start of a text that both end there are the same. -/
theorem eq_of_append_eq_append {a b : List Char} (one : IsWord w) (other : IsWord v)
    (left : ∀ c ∈ a.head?, isWordChar c = false) (right : ∀ c ∈ b.head?, isWordChar c = false)
    (same : w ++ a = v ++ b) : w = v := by
  have first := words_word_append one left
  rw [same, words_word_append other right] at first
  exact (List.cons.inj first).1.symm

/-- Behind a gap and a word, a run is that word or a run of what follows. -/
theorem IsRun.eq_or_later (plain : IsGap gap) (word : IsWord v)
    (ends : ∀ c ∈ rest.head?, isWordChar c = false) (run : IsRun (gap ++ (v ++ rest)) w) :
    w = v ∨ IsRun rest w := by
  obtain ⟨own, before, after, split, left, right⟩ := run
  obtain ⟨x, rfl, same⟩ | ⟨x, rfl, same⟩ := List.append_eq_append_iff.mp split
  · obtain ⟨y, rfl, tail⟩ | ⟨y, rfl, tail⟩ := List.append_eq_append_iff.mp same
    · exact .inr ⟨own, y, after, tail, last_of_append (last_of_append left), right⟩
    · -- What the run's text has before it ends inside the word, so it ends with the gap.
      cases x with
      | nil => exact .inl (eq_of_append_eq_append own word right ends tail)
      | cons c x =>
          have inside := List.getLast_mem (List.cons_ne_nil c x)
          have other := last_of_append left _ (List.getLast?_eq_some_getLast (List.cons_ne_nil c x))
          rw [word.letters _ (List.mem_append_left y inside)] at other
          cases other
  · cases x with
    | nil => exact .inl (eq_of_append_eq_append own word right ends same)
    | cons c x =>
        cases w with
        | nil => exact absurd rfl own.filled
        | cons d w =>
            obtain ⟨rfl, -⟩ := List.cons.inj same
            have other := plain d (List.mem_append_right before List.mem_cons_self)
            rw [own.letters d List.mem_cons_self] at other
            cases other

/-- The words that a text is made of are its runs. -/
theorem Spells.mem_iff (spells : Spells ws s) : w ∈ ws ↔ IsRun s w := by
  induction spells with
  | gap plain =>
      constructor
      · intro inside
        cases inside
      · intro run
        exact (run.not_of_isGap plain).elim
  | @word gap v rest ws plain word ends later ih =>
      rw [List.mem_cons, ih]
      constructor
      · intro member
        cases member with
        | inl same =>
            subst same
            exact ⟨word, gap, rest, rfl, fun c last => plain c (List.mem_of_getLast? last), ends⟩
        | inr run =>
            rw [← List.append_assoc]
            exact run.prepend ends (gap ++ v)
      · exact IsRun.eq_or_later plain word ends

theorem mem_words_iff : w ∈ words s ↔ IsRun s w := (spells_words s).mem_iff

/-! ### Searches between boundaries -/

theorem isWord_lowerAscii_iff : IsWord (lowerAscii w) ↔ IsWord w := by
  constructor
  · rintro ⟨filled, letters⟩
    refine ⟨mt (congrArg lowerAscii) filled, ?_⟩
    intro c inside
    rw [← isWordChar_toLower]
    exact letters c.toLower (List.mem_map_of_mem inside)
  · rintro ⟨filled, letters⟩
    refine ⟨mt List.map_eq_nil_iff.mp filled, List.forall_mem_map.mpr ?_⟩
    intro c inside
    rw [isWordChar_toLower]
    exact letters c inside

theorem any_eq_false_iff {o : Option Char} {p : Char → Bool} :
    o.any p = false ↔ ∀ c ∈ o, p c = false := by
  constructor
  · rintro plain c ⟨⟩
    exact plain
  · intro plain
    cases o with
    | none => rfl
    | some c => exact plain c rfl

/-- A word begins at a boundary if no word character stands before it. -/
theorem atBoundary_before_iff {before : List Char} (word : IsWord w) :
    AtBoundary before (w ++ rest) ↔ ∀ c ∈ before.getLast?, isWordChar c = false := by
  obtain ⟨filled, letters⟩ := word
  cases w with
  | nil => exact absurd rfl filled
  | cons c w =>
      show _ ≠ isWordChar c ↔ _
      rw [letters c List.mem_cons_self, Ne, Bool.not_eq_true, any_eq_false_iff]

/-- A word ends at a boundary if no word character stands behind it. -/
theorem atBoundary_behind_iff {before : List Char} (word : IsWord w) :
    AtBoundary (before ++ w) rest ↔ ∀ c ∈ rest.head?, isWordChar c = false := by
  have last : (before ++ w).getLast?.any isWordChar = true := by
    rw [List.getLast?_append, List.getLast?_eq_some_getLast word.filled]
    exact word.letters _ (List.getLast_mem word.filled)
  rw [AtBoundary, last, ne_comm, Ne, Bool.not_eq_true, any_eq_false_iff]

/-- A keyword is found between two boundaries just if some run is the keyword. -/
theorem finds_iff (word : IsWord keyword) :
    Finds keyword s ↔ ∃ w, IsRun s w ∧ lowerAscii w = keyword := by
  constructor
  · rintro ⟨before, w, after, rfl, rfl, left, right⟩
    have own := isWord_lowerAscii_iff.mp word
    exact ⟨w, ⟨own, before, after, rfl, (atBoundary_before_iff own).mp left,
      (atBoundary_behind_iff own).mp right⟩, rfl⟩
  · rintro ⟨w, ⟨own, before, after, rfl, left, right⟩, rfl⟩
    exact ⟨before, w, after, rfl, rfl, (atBoundary_before_iff own).mpr left,
      (atBoundary_behind_iff own).mpr right⟩

end FleetBoard.Text

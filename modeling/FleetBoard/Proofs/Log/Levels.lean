import FleetBoard.Log.Level
import FleetBoard.Proofs.Text.Words

/-!
# The level of a message is looked up by its words

A message shows a level if one of its words is a keyword of the level, and has the gravest level
that it shows. So only the words count: not their order, their number, the case of their letters, or
what stands between them.
-/

namespace FleetBoard.Level

open Text

variable {s t : List Char} {level l : Level}

def Shows (s : List Char) (level : Level) : Prop :=
  ∃ keyword ∈ level.keywords, ∃ w, IsRun s w ∧ lowerAscii w = keyword.toList

/-- The first level, from the gravest on, that a message shows; `unknown` if it shows none. -/
inductive Grades (s : List Char) : Level → Prop
  | shown {graver less : List Level} {level : Level}
      (order : [.panic, .fatal, .error, .warn, .info, .debug, .trace] = graver ++ level :: less)
      (shows : Shows s level) (others : ∀ l ∈ graver, ¬ Shows s l) : Grades s level
  | unknown (others : ∀ l ∈ [panic, fatal, error, warn, info, debug, trace], ¬ Shows s l) :
      Grades s .unknown

theorem lower_keyword : ∀ keyword ∈ level.keywords,
    (!keyword.toList.isEmpty && keyword.toList.all Char.isLower) = true := by
  cases level <;> decide

theorem isWord_keyword {keyword : String} (known : keyword ∈ level.keywords) :
    IsWord keyword.toList := by
  obtain ⟨filled, lower⟩ := (Bool.and_eq_true _ _).mp (lower_keyword keyword known)
  rw [Bool.not_eq_true', List.isEmpty_eq_false_iff] at filled
  refine ⟨filled, fun c inside => isWordChar_of_isAlphanum ?_⟩
  rw [Char.isAlphanum, Char.isAlpha, List.all_eq_true.mp lower c inside, Bool.or_true, Bool.true_or]

theorem shownBy_iff {w : List Char} :
    level.shownBy w = true ↔ ∃ keyword ∈ level.keywords, lowerAscii w = keyword.toList := by
  rw [shownBy, List.contains_iff_mem]
  constructor
  · intro inside
    exact ⟨_, inside, String.toList_ofList.symm⟩
  · rintro ⟨keyword, inside, same⟩
    rwa [same, String.ofList_toList]

theorem any_shownBy_iff : (words s).any level.shownBy = true ↔ Shows s level := by
  rw [List.any_eq_true]
  constructor
  · rintro ⟨w, inside, shown⟩
    obtain ⟨keyword, known, same⟩ := shownBy_iff.mp shown
    exact ⟨keyword, known, w, mem_words_iff.mp inside, same⟩
  · rintro ⟨keyword, known, w, run, same⟩
    exact ⟨w, mem_words_iff.mpr run, shownBy_iff.mpr ⟨keyword, known, same⟩⟩

/-- A search for the keywords of a level between boundaries finds one just if the text shows the
level. -/
theorem exists_finds_iff :
    (∃ keyword ∈ level.keywords, Finds keyword.toList s) ↔ Shows s level := by
  constructor
  · rintro ⟨keyword, known, found⟩
    exact ⟨keyword, known, (finds_iff (isWord_keyword known)).mp found⟩
  · rintro ⟨keyword, known, run⟩
    exact ⟨keyword, known, (finds_iff (isWord_keyword known)).mpr run⟩

theorem Grades.detect_eq (grades : Grades s level) : detect s = level := by
  rw [detect, ofWords]
  cases grades with
  | @shown graver less level order shows others =>
      have found : byGravity.find? (fun l => (words s).any l.shownBy) = some level := by
        refine List.find?_eq_some_iff_append.mpr
          ⟨any_shownBy_iff.mpr shows, graver, less, order, ?_⟩
        intro l inside
        rw [Bool.not_eq_true', Bool.eq_false_iff, Ne, any_shownBy_iff]
        exact others l inside
      rw [found]
      rfl
  | unknown others =>
      have missing : byGravity.find? (fun l => (words s).any l.shownBy) = none := by
        refine List.find?_eq_none.mpr ?_
        intro l inside
        rw [any_shownBy_iff]
        exact others l inside
      rw [missing]
      rfl

theorem grades_detect (s : List Char) : Grades s (detect s) := by
  rw [detect, ofWords]
  cases found : byGravity.find? (fun l => (words s).any l.shownBy) with
  | none =>
      refine .unknown fun l inside => ?_
      have missing := List.find?_eq_none.mp found l inside
      rwa [any_shownBy_iff] at missing
  | some level =>
      obtain ⟨shown, graver, less, order, others⟩ := List.find?_eq_some_iff_append.mp found
      refine .shown order (any_shownBy_iff.mp shown) ?_
      intro l inside
      rw [← any_shownBy_iff, Bool.not_eq_true, ← Bool.not_eq_true']
      exact others l inside

/-- Texts that show the same levels have the same level. -/
theorem detect_congr (same : ∀ level, Shows s level ↔ Shows t level) : detect s = detect t := by
  apply Grades.detect_eq
  generalize detect t = level, grades_detect t = grades
  cases grades with
  | shown order shows others =>
      exact .shown order ((same _).mpr shows) fun l inside => mt (same l).mp (others l inside)
  | unknown others => exact .unknown fun l inside => mt (same l).mp (others l inside)

theorem Shows.of_spells {ws vs : List (List Char)} (one : Spells ws s) (other : Spells vs t)
    (covered : ∀ w ∈ ws.map lowerAscii, w ∈ vs.map lowerAscii) (shows : Shows s level) :
    Shows t level := by
  obtain ⟨keyword, known, w, run, same⟩ := shows
  obtain ⟨v, inside, alike⟩ :=
    List.mem_map.mp (covered _ (List.mem_map_of_mem (one.mem_iff.mpr run)))
  exact ⟨keyword, known, v, other.mem_iff.mp inside, alike.trans same⟩

/-- What is shown stays shown when something is added behind a separator. -/
theorem Shows.append {c : Char} (plain : isWordChar c = false) (shows : Shows s level) :
    Shows (s ++ c :: t) level := by
  obtain ⟨keyword, known, w, run, same⟩ := shows
  exact ⟨keyword, known, w, run.append (by rintro d ⟨⟩; exact plain), same⟩

/-- The place of a level found in the list of levels is the place at which it was found. -/
theorem idxOf_find?_getD {levels : List Level} (distinct : levels.Nodup) (absent : unknown ∉ levels)
    (p : Level → Bool) : levels.idxOf ((levels.find? p).getD .unknown) = levels.findIdx p := by
  induction levels with
  | nil => rfl
  | cons l levels ih =>
      obtain ⟨fresh, distinct⟩ := List.nodup_cons.mp distinct
      obtain ⟨other, absent⟩ := not_or.mp (mt List.mem_cons.mpr absent)
      rw [List.findIdx_cons]
      cases here : p l with
      | true =>
          rw [List.find?_cons_of_pos here]
          exact List.idxOf_cons_self
      | false =>
          rw [List.find?_cons_of_neg (Bool.eq_false_iff.mp here), List.idxOf_cons_ne,
            ih distinct absent]
          · rfl
          · cases found : levels.find? p with
            | none => exact Ne.symm other
            | some k =>
                rintro rfl
                exact fresh (List.mem_of_find?_eq_some found)

theorem idxOf_detect (s : List Char) :
    byGravity.idxOf (detect s) = byGravity.findIdx fun l => (words s).any l.shownBy :=
  idxOf_find?_getD (by decide) (by decide) _

/-- What the level of a message depends on. -/
structure FoundByWords (s : List Char) : Prop where
  cut : ∃ ws, (∀ vs, Spells vs s ↔ vs = ws) ∧ ∀ w, w ∈ ws ↔ IsRun s w
  graded : ∀ level, detect s = level ↔ Grades s level
  found : ∀ level : Level, (∃ keyword ∈ level.keywords, Finds keyword.toList s) ↔ Shows s level
  sameWords : ∀ t ws vs, Spells ws s → Spells vs t →
    (∀ w, w ∈ ws.map lowerAscii ↔ w ∈ vs.map lowerAscii) → detect s = detect t
  graver : ∀ c t, isWordChar c = false →
    byGravity.idxOf (detect (s ++ c :: t)) ≤ byGravity.idxOf (detect s)

/-- The level of a message is the gravest that has a keyword among its words, and `unknown` if none
has. The words are the maximal runs of word characters, and a message falls into them in one way; to
find a keyword among them is to find it between two boundaries. Messages with the same words have
the same level, however often and in whatever order, case and company the words stand. What is added
behind a separator can only make it graver. -/
theorem detect_whole_words (s : List Char) : FoundByWords s := by
  refine {
    cut := ⟨words s, fun vs => ?_, fun w => mem_words_iff⟩
    graded := ?_
    found := fun level => exists_finds_iff
    sameWords := ?_
    graver := ?_ }
  · rw [spells_iff, eq_comm]
  · intro level
    constructor
    · rintro rfl
      exact grades_detect s
    · exact Grades.detect_eq
  · intro t ws vs one other same
    apply detect_congr
    intro level
    constructor
    · exact Shows.of_spells one other fun w => (same w).mp
    · exact Shows.of_spells other one fun w => (same w).mpr
  · intro c t plain
    rw [idxOf_detect, idxOf_detect]
    apply List.findIdx_le_findIdx
    intro l _ shown
    exact any_shownBy_iff.mpr ((any_shownBy_iff.mp shown).append plain)

def diskError : List Char := "Disk error: état".toList

/-- Its words in another order, one of them twice, in other letters and with other separators. What
comes behind the separator is graver. -/
theorem detect_whole_words_shuffled :
    (Spells ["Disk".toList, "error".toList, "état".toList] diskError ∧
      Spells ["état".toList, "disk".toList, "ERROR".toList, "Disk".toList]
        "[état] disk/ERROR/Disk".toList ∧
      detect diskError = detect "[état] disk/ERROR/Disk".toList) ∧
    isWordChar '…' = false ∧
      byGravity.idxOf (detect (diskError ++ '…' :: "panic".toList)) ≤
        byGravity.idxOf (detect diskError) := by
  have byWords := detect_whole_words diskError
  have one : Spells ["Disk".toList, "error".toList, "état".toList] diskError :=
    spells_iff.mpr (by decide +kernel)
  have other : Spells ["état".toList, "disk".toList, "ERROR".toList, "Disk".toList]
      "[état] disk/ERROR/Disk".toList :=
    spells_iff.mpr (by decide +kernel)
  have kept : ["Disk".toList, "error".toList, "état".toList].map lowerAscii ⊆
      ["état".toList, "disk".toList, "ERROR".toList, "Disk".toList].map lowerAscii := by
    decide +kernel
  have noOther : ["état".toList, "disk".toList, "ERROR".toList, "Disk".toList].map lowerAscii ⊆
      ["Disk".toList, "error".toList, "état".toList].map lowerAscii := by decide +kernel
  have separator : isWordChar '…' = false := by decide +kernel
  exact ⟨⟨one, other, byWords.sameWords _ _ _ one other fun w => ⟨@kept w, @noOther w⟩⟩,
    separator, byWords.graver _ _ separator⟩

/-- A level is shown by whole words only. -/
example : detect "informational terror, the catalog loaded".toList = .unknown := by decide +kernel

end FleetBoard.Level

import FleetBoard.Log.Escapes
import FleetBoard.Proofs.Text.Words

/-!
# What is left of colour escapes

A message is read once, and every colour escape that stands in it is taken out. That is all of them
that were there, but not all that there are then: an escape with others put between its characters
is no escape before, and is one once they are gone. So a cleaned message has an escape in it just if
the message had such an interrupted one, and it is just then that cleaning it again would take more
away.
-/

namespace FleetBoard.Escapes

open Text (isBlank Trims trims_iff)

/-! ### Escapes -/

/-- A colour escape: the escape character, an opening bracket, digits and semicolons, and an `m`. -/
def IsEscape (e : List Char) : Prop :=
  ∃ ps, e = escape :: '[' :: (ps ++ ['m']) ∧ ∀ c ∈ ps, isParameter c = true

def Starts (s : List Char) : Prop := ∃ e, IsEscape e ∧ e <+: s

/-- Somewhere in a text there is an escape. -/
def HasEscape (s : List Char) : Prop := ∃ e, IsEscape e ∧ e <:+: s

/-- Nothing but escapes, one behind the other. -/
inductive Filling : List Char → Prop
  | nil : Filling []
  | cons {e fill : List Char} (whole : IsEscape e) (more : Filling fill) : Filling (e ++ fill)

/-- The second text is the first with escapes between its characters. There may be none between two
of them. -/
inductive Stuffed : List Char → List Char → Prop
  | last (c : Char) : Stuffed [c] [c]
  | next {s fill w : List Char} (c : Char) (filling : Filling fill) (later : Stuffed s w) :
      Stuffed (c :: s) (c :: (fill ++ w))

/-- In a text there is an escape that others interrupt. -/
def Interrupted (s : List Char) : Prop := ∃ e w, IsEscape e ∧ Stuffed e w ∧ w ≠ e ∧ w <:+: s

variable {e s t p fill w : List Char} {c : Char}

theorem not_isParameter_m : isParameter 'm' = false := by decide

theorem not_isParameter_escape : isParameter escape = false := by decide

theorem IsEscape.exists_cons (whole : IsEscape e) : ∃ rest, e = escape :: rest ∧ escape ∉ rest := by
  obtain ⟨ps, rfl, parameters⟩ := whole
  refine ⟨_, rfl, ?_⟩
  rw [List.mem_cons, List.mem_append, not_or, not_or]
  refine ⟨by decide, ?_, by decide⟩
  intro inside
  cases not_isParameter_escape.symm.trans (parameters escape inside)

/-- The `m` of an escape comes last. -/
theorem IsEscape.not_m_mem {front back : List Char} (whole : IsEscape (front ++ back))
    (more : back ≠ []) :
    'm' ∉ front := by
  obtain ⟨ps, split, parameters⟩ := whole
  obtain ⟨back, c, rfl⟩ := (List.eq_nil_or_concat back).resolve_left more
  rw [List.concat_eq_append, ← List.append_assoc, ← List.cons_append, ← List.cons_append] at split
  obtain ⟨same, -⟩ := List.append_inj' split rfl
  intro inside
  have member : 'm' ∈ escape :: '[' :: ps := by
    rw [← same]
    exact List.mem_append_left back inside
  rw [List.mem_cons, List.mem_cons] at member
  obtain first | second | parameter := member
  · exact absurd first (by decide)
  · exact absurd second (by decide)
  · cases not_isParameter_m.symm.trans (parameters 'm' parameter)

theorem IsEscape.m_mem (whole : IsEscape e) : 'm' ∈ e := by
  obtain ⟨ps, rfl, -⟩ := whole
  simp

/-! ### The reading -/

theorem step_nil (c : Char) : reader.step [] c = if c = escape then ([], [c]) else ([c], []) := rfl

theorem step_one (x c : Char) : reader.step [x] c =
    if c = '[' then ([], [c, x]) else if c = escape then ([x], [c]) else ([x, c], []) := rfl

theorem step_long {held : List Char} (long : 2 ≤ held.length) (c : Char) : reader.step held c =
    if c = 'm' then ([], []) else if isParameter c then ([], c :: held)
    else if c = escape then (held.reverse, [c]) else (held.reverse ++ [c], []) := by
  match held, long with
  | _ :: _ :: _, _ => rfl

theorem strip_cons_of_ne (other : c ≠ escape) (s : List Char) : strip (c :: s) = c :: strip s := by
  rw [strip, Transducer.run_cons, step_nil, if_neg other]
  rfl

/-- Where what was read turns out to be no escape, it is put out, and the reading begins anew. -/
theorem run_restart {held : List Char}
    (fails : reader.step held c =
      if c = escape then (held.reverse, [c]) else (held.reverse ++ [c], []))
    (s : List Char) : reader.run held (c :: s) = held.reverse ++ strip (c :: s) := by
  rw [Transducer.run_cons, fails]
  by_cases same : c = escape
  · rw [if_pos same, strip, Transducer.run_cons, step_nil, if_pos same]
    rfl
  · rw [if_neg same, strip_cons_of_ne same, List.append_assoc]
    rfl

/-- The escape character begins the reading anew, whatever has been read. -/
theorem run_escape (held s : List Char) :
    reader.run held (escape :: s) = held.reverse ++ strip (escape :: s) := by
  apply run_restart
  rw [if_pos rfl]
  match held with
  | [] | [x] => rfl
  | x :: y :: held =>
      rw [step_long (by simp), if_neg (by decide), not_isParameter_escape,
        if_neg Bool.false_ne_true, if_pos rfl]

theorem strip_append_escape (s t : List Char) :
    strip (s ++ escape :: t) = strip s ++ strip (escape :: t) := by
  rw [strip, Transducer.run_append, run_escape, ← List.append_assoc]
  rfl

theorem run_parameters {held ps : List Char} (long : 2 ≤ held.length)
    (parameters : ∀ c ∈ ps, isParameter c = true) (s : List Char) :
    reader.run held (ps ++ 'm' :: s) = strip s := by
  induction ps generalizing held with
  | nil =>
      rw [List.nil_append, Transducer.run_cons, step_long long, if_pos rfl]
      rfl
  | cons c ps ih =>
      have parameter := parameters c List.mem_cons_self
      have other : c ≠ 'm' := by
        rintro rfl
        cases not_isParameter_m.symm.trans parameter
      rw [List.cons_append, Transducer.run_cons, step_long long, if_neg other, if_pos parameter]
      exact ih (Nat.le_succ_of_le long) fun d inside => parameters d (List.mem_cons_of_mem c inside)

/-- An escape is taken out. -/
theorem strip_escape_append (whole : IsEscape e) (s : List Char) : strip (e ++ s) = strip s := by
  obtain ⟨ps, rfl, parameters⟩ := whole
  have rest : escape :: '[' :: (ps ++ ['m']) ++ s = escape :: '[' :: (ps ++ 'm' :: s) := by simp
  rw [rest, strip, Transducer.run_cons, step_nil, if_pos rfl, Transducer.run_cons, step_one,
    if_pos rfl]
  have long : 2 ≤ ['[', escape].length := Nat.le_refl 2
  exact run_parameters long parameters s

/-- What may stand behind the escape character before the `m`. -/
def Begun (p : List Char) : Prop := p = [] ∨ ∃ ps, p = '[' :: ps ∧ ∀ c ∈ ps, isParameter c = true

theorem Starts.append (starts : Starts s) (t : List Char) : Starts (s ++ t) := by
  obtain ⟨e, whole, begins⟩ := starts
  exact ⟨e, whole, begins.trans (List.prefix_append s t)⟩

/-- A character goes on with what has been read, or fails, or ends an escape. -/
theorem step_held (begun : Begun p) (none : ¬ Starts (escape :: (p ++ [c]))) :
    (Begun (p ++ [c]) ∧ c ≠ escape ∧
      reader.step (escape :: p).reverse c = ([], (escape :: (p ++ [c])).reverse)) ∨
      reader.step (escape :: p).reverse c =
        if c = escape then ((escape :: p).reverse.reverse, [c])
        else ((escape :: p).reverse.reverse ++ [c], []) := by
  cases begun with
  | inl empty =>
      subst empty
      show _ ∨ reader.step [escape] c = _
      rw [step_one]
      by_cases bracket : c = '['
      · subst bracket
        exact .inl ⟨.inr ⟨[], rfl, List.forall_mem_nil _⟩, by decide, rfl⟩
      · rw [if_neg bracket]
        exact .inr rfl
  | inr parameters =>
      obtain ⟨ps, rfl, parameters⟩ := parameters
      rw [step_long (by simp)]
      by_cases final : c = 'm'
      · subst final
        exact (none ⟨_, ⟨ps, rfl, parameters⟩, List.prefix_refl _⟩).elim
      rw [if_neg final]
      by_cases parameter : isParameter c = true
      · rw [if_pos parameter]
        refine .inl ⟨.inr ⟨ps ++ [c], rfl, ?_⟩, ?_, by simp⟩
        · exact List.forall_mem_append.mpr ⟨parameters, List.forall_mem_singleton.mpr parameter⟩
        · rintro rfl
          cases not_isParameter_escape.symm.trans parameter
      · rw [if_neg parameter]
        exact .inr rfl

/-- What has been read of an escape is put out if there is none. -/
theorem run_held (begun : Begun p) (none : ¬ Starts (escape :: (p ++ s))) :
    reader.run (escape :: p).reverse s = escape :: (p ++ strip s) := by
  induction s generalizing p with
  | nil =>
      show (escape :: p).reverse.reverse = escape :: (p ++ [])
      rw [List.reverse_reverse, List.append_nil]
  | cons c s ih =>
      have split : escape :: (p ++ c :: s) = escape :: (p ++ [c]) ++ s := by simp
      rw [split] at none
      obtain ⟨onward, other, step⟩ | fails :=
        step_held begun (mt (fun starts => starts.append s) none)
      · rw [Transducer.run_cons, step, List.nil_append, ih onward none, strip_cons_of_ne other,
          List.append_assoc]
        rfl
      · rw [run_restart fails, List.reverse_reverse]
        rfl

/-- What no escape begins with stays. -/
theorem strip_cons (none : ¬ Starts (c :: s)) : strip (c :: s) = c :: strip s := by
  by_cases same : c = escape
  · subst same
    rw [strip, Transducer.run_cons, step_nil, if_pos rfl]
    exact run_held (.inl rfl) none
  · exact strip_cons_of_ne same s

/-- A text is read escape by escape, and character by character where no escape begins. -/
theorem read_induction {P : List Char → Prop} (nil : P [])
    (whole : ∀ e s, IsEscape e → P s → P (e ++ s))
    (kept : ∀ c s, ¬ Starts (c :: s) → P s → P (c :: s)) (s : List Char) : P s := by
  induction size : s.length using Nat.strongRecOn generalizing s with
  | ind n ih =>
      subst size
      cases s with
      | nil => exact nil
      | cons c s =>
          by_cases starts : Starts (c :: s)
          · obtain ⟨e, isEscape, rest, split⟩ := starts
            obtain ⟨more, rfl, -⟩ := isEscape.exists_cons
            rw [← split] at ih ⊢
            exact whole _ rest isEscape (ih rest.length (by simp) rest rfl)
          · exact kept c s starts (ih s.length (Nat.lt_succ_self _) s rfl)

/-! ### What is left -/

/-- The first text is left of the second once the escapes are gone: they stand before, between and
behind the characters that are kept, and no escape begins with one of these. -/
inductive Strewn : List Char → List Char → Prop
  | nil {fill : List Char} (filling : Filling fill) : Strewn [] fill
  | cons {fill t s : List Char} {c : Char} (filling : Filling fill) (kept : ¬ Starts (c :: s))
      (later : Strewn t s) :
      Strewn (c :: t) (fill ++ c :: s)

theorem Strewn.prepend (strewn : Strewn t s) (whole : IsEscape e) : Strewn t (e ++ s) := by
  cases strewn with
  | nil filling => exact .nil (filling.cons whole)
  | cons filling kept later =>
      rw [← List.append_assoc]
      exact .cons (filling.cons whole) kept later

theorem strewn_strip (s : List Char) : Strewn (strip s) s := by
  induction s using read_induction with
  | nil => exact .nil .nil
  | whole e s whole ih =>
      rw [strip_escape_append whole]
      exact ih.prepend whole
  | kept c s none ih =>
      rw [strip_cons none]
      show Strewn (c :: strip s) ([] ++ c :: s)
      exact .cons .nil none ih

theorem Strewn.length_le (strewn : Strewn t s) : t.length ≤ s.length := by
  induction strewn with
  | nil => exact Nat.zero_le _
  | cons filling kept later ih =>
      rw [List.length_append, List.length_cons, List.length_cons]
      omega

theorem Strewn.drop {front : List Char} (strewn : Strewn (front ++ t) s) :
    ∃ back, back <:+ s ∧ Strewn t back := by
  induction front generalizing s with
  | nil => exact ⟨s, List.suffix_refl s, strewn⟩
  | cons c front ih =>
      cases strewn with
      | @cons fill _ s _ filling kept later =>
          obtain ⟨back, ends, strewn⟩ := ih later
          exact ⟨back, (ends.trans (List.suffix_cons c s)).trans (List.suffix_append fill (c :: s)),
            strewn⟩

/-- What is left in one piece stood there with escapes between its characters, and no escape began
with it. -/
theorem Strewn.stuffed (strewn : Strewn (c :: t ++ p) s) :
    ∃ fill w rest, s = fill ++ (w ++ rest) ∧ Filling fill ∧ Stuffed (c :: t) w ∧
    ¬ Starts (w ++ rest) := by
  induction t generalizing c s with
  | nil =>
      cases strewn with
      | @cons fill _ s _ filling kept later => exact ⟨fill, [c], s, rfl, filling, .last c, kept⟩
  | cons d t ih =>
      cases strewn with
      | @cons fill _ s _ filling kept later =>
          obtain ⟨gap, w, rest, rfl, gapFilling, stuffed, -⟩ := ih later
          refine ⟨fill, c :: (gap ++ w), rest, by simp, filling, .next c gapFilling stuffed, ?_⟩
          rwa [List.cons_append, List.append_assoc]

/-- An escape that is left was interrupted. -/
theorem interrupted_of_hasEscape (left : HasEscape (strip s)) : Interrupted s := by
  obtain ⟨e, whole, front, back, split⟩ := left
  have strewn := strewn_strip s
  rw [← split, List.append_assoc] at strewn
  obtain ⟨later, ends, strewn⟩ := strewn.drop
  obtain ⟨more, rfl, -⟩ := whole.exists_cons
  obtain ⟨fill, w, rest, rfl, -, stuffed, none⟩ := strewn.stuffed
  refine ⟨_, w, whole, stuffed, ?_, ?_⟩
  · rintro rfl
    exact none ⟨_, whole, List.prefix_append _ rest⟩
  · exact List.IsInfix.trans ⟨fill, rest, List.append_assoc ..⟩ ends.isInfix

/-! ### What becomes an escape -/

theorem Filling.strip_append (filling : Filling fill) (s : List Char) :
    strip (fill ++ s) = strip s := by
  induction filling with
  | nil => rfl
  | cons whole more ih => rw [List.append_assoc, strip_escape_append whole, ih]

theorem Filling.exists_cons (filling : Filling fill) (filled : fill ≠ []) :
    ∃ rest, fill = escape :: rest := by
  cases filling with
  | nil => exact absurd rfl filled
  | cons whole more =>
      obtain ⟨rest, rfl, -⟩ := whole.exists_cons
      exact ⟨_, rfl⟩

/-- A text without an escape stays as it is. -/
theorem strip_eq_self (none : ¬ HasEscape s) : strip s = s := by
  induction s with
  | nil => rfl
  | cons c s ih =>
      rw [strip_cons, ih]
      · rintro ⟨e, whole, inside⟩
        exact none ⟨e, whole, inside.trans (List.suffix_cons c s).isInfix⟩
      · rintro ⟨e, whole, begins⟩
        exact none ⟨e, whole, begins.isInfix⟩

/-- Taking an escape out makes a text shorter. -/
theorem length_strip_lt (has : HasEscape s) : (strip s).length < s.length := by
  obtain ⟨e, whole, front, back, rfl⟩ := has
  obtain ⟨more, rfl, -⟩ := whole.exists_cons
  have before := (strewn_strip front).length_le
  have behind := (strewn_strip back).length_le
  rw [List.append_assoc, List.cons_append, strip_append_escape, ← List.cons_append,
    strip_escape_append whole]
  simp only [List.length_append, List.length_cons]
  omega

/-- Where escapes are put into a text with no escape character, the text is what is left. -/
theorem Stuffed.strip_append (stuffed : Stuffed s w) (plain : escape ∉ s) (t : List Char) :
    strip (w ++ t) = s ++ strip t := by
  induction stuffed with
  | last c => exact strip_cons_of_ne (fun same => plain (same ▸ List.mem_cons_self)) t
  | next c filling later ih =>
      rw [List.mem_cons, not_or] at plain
      rw [List.cons_append, strip_cons_of_ne (Ne.symm plain.1), List.append_assoc,
        filling.strip_append, ih plain.2]
      rfl

theorem Stuffed.ne_nil (stuffed : Stuffed s w) : s ≠ [] := by
  cases stuffed <;> nofun

/-- If escapes are put into a text there is a first place where they are. -/
theorem Stuffed.eq_or_split (stuffed : Stuffed s w) :
    w = s ∨ ∃ c front back fill rest, s = c :: front ++ back ∧
    w = c :: front ++ (fill ++ rest) ∧ Filling fill ∧ fill ≠ [] ∧ Stuffed back rest := by
  induction stuffed with
  | last c => exact .inl rfl
  | @next s fill w c filling later ih =>
      by_cases empty : fill = []
      · subst empty
        obtain rfl | ⟨d, front, back, gap, rest, rfl, rfl, more⟩ := ih
        · exact .inl rfl
        · exact .inr ⟨c, d :: front, back, gap, rest, rfl, rfl, more⟩
      · exact .inr ⟨c, [], s, fill, w, rfl, rfl, filling, empty, later⟩

/-- An interrupted escape is put together by taking out what interrupts it. -/
theorem hasEscape_of_interrupted (interrupted : Interrupted s) : HasEscape (strip s) := by
  obtain ⟨e, w, whole, stuffed, other, before, behind, rfl⟩ := interrupted
  -- The first of what interrupts begins the reading anew, so the part of the escape before it is
  -- put out.
  obtain ⟨c, front, back, fill, rest, rfl, rfl, filling, filled, later⟩ :=
    stuffed.eq_or_split.resolve_left other
  have final := whole.not_m_mem later.ne_nil
  obtain ⟨more, same, plain⟩ := whole.exists_cons
  obtain ⟨rfl, rest'⟩ := List.cons.inj same
  have plain : escape ∉ back := fun inside => plain (rest' ▸ List.mem_append_right front inside)
  have unread : ¬ HasEscape (escape :: front) := by
    rintro ⟨f, isEscape, inside⟩
    exact final (inside.subset isEscape.m_mem)
  obtain ⟨tail, rfl⟩ := filling.exists_cons filled
  refine ⟨escape :: front ++ back, whole, strip before, strip behind, ?_⟩
  have split : before ++ (escape :: front ++ (escape :: tail ++ rest)) ++ behind =
      before ++ escape :: front ++ escape :: (tail ++ (rest ++ behind)) := by simp
  have gone : escape :: (tail ++ (rest ++ behind)) = escape :: tail ++ (rest ++ behind) := rfl
  rw [split, strip_append_escape, strip_append_escape, strip_eq_self unread, gone,
    filling.strip_append, later.strip_append plain]
  simp only [List.append_assoc]

theorem hasEscape_strip_iff : HasEscape (strip s) ↔ Interrupted s :=
  ⟨interrupted_of_hasEscape, hasEscape_of_interrupted⟩

/-! ### Messages -/

theorem IsEscape.not_isBlank (whole : IsEscape e) : ∀ c ∈ e, isBlank c = false := by
  obtain ⟨ps, rfl, parameters⟩ := whole
  have plain : ∀ c ∈ ps, isBlank c = false := by
    intro c inside
    have parameter := parameters c inside
    rw [isParameter, Bool.or_eq_true, beq_iff_eq] at parameter
    cases parameter with
    | inl digit =>
        apply Text.isBlank_of_isAlphanum
        rw [Char.isAlphanum, digit, Bool.or_true]
    | inr semicolon =>
        subst semicolon
        decide
  simp only [List.forall_mem_cons, List.forall_mem_append]
  exact ⟨by decide, by decide, plain, by decide, List.forall_mem_nil _⟩

theorem hasEscape_trim_iff : HasEscape (Text.trim s) ↔ HasEscape s := by
  refine exists_congr fun e => and_congr_right fun whole => ?_
  obtain ⟨rest, rfl, -⟩ := whole.exists_cons
  exact Text.infix_trimBy_iff (List.cons_ne_nil escape rest) whole.not_isBlank

theorem hasEscape_clean_iff : HasEscape (clean s) ↔ Interrupted s :=
  hasEscape_trim_iff.trans hasEscape_strip_iff

/-- A cleaned message has no blanks around it. It has an escape in it just if the message had one
that others interrupt, and it is just then that cleaning changes it again. -/
theorem clean_of_message (message : List Char) :
    ((∀ c ∈ (clean message).head?, isBlank c = false) ∧
      ∀ c ∈ (clean message).getLast?, isBlank c = false) ∧
      (HasEscape (clean message) ↔ Interrupted message) ∧
      (clean (clean message) = clean message ↔ ¬ Interrupted message) := by
  have trims : Trims isBlank (strip message) (clean message) := trims_iff.mpr rfl
  refine ⟨⟨trims.first, trims.last⟩, hasEscape_clean_iff, ?_⟩
  rw [← hasEscape_clean_iff]
  constructor
  · intro same has
    have shorter := length_strip_lt has
    have trimmed : (clean (clean message)).length ≤ (strip (clean message)).length :=
      (Text.isInfix_trimBy (strip (clean message))).length_le
    rw [same] at trimmed
    exact absurd trimmed (Nat.not_le.mpr shorter)
  · intro none
    show Text.trim (strip (clean message)) = clean message
    rw [strip_eq_self none]
    exact Text.trimBy_eq_self trims.first trims.last

def nested : List Char := "\x1b[\x1b[0m0m".toList

/-- Without the inner escape the outer one is whole. -/
theorem clean_nested : clean nested = "\x1b[0m".toList ∧ HasEscape (clean nested) ∧
    clean (clean nested) ≠ clean nested := by
  have cleaned : clean nested = "\x1b[0m".toList := by decide +kernel
  have whole : IsEscape (clean nested) :=
    ⟨['0'], cleaned, List.forall_mem_singleton.mpr (by decide)⟩
  refine ⟨cleaned, ⟨clean nested, whole, List.infix_refl _⟩, ?_⟩
  rw [cleaned]
  decide +kernel

end FleetBoard.Escapes

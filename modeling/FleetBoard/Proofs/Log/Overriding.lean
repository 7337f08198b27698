import FleetBoard.Log.Options
import FleetBoard.Proofs.Decimal.Numerals

/-!
# Later options override earlier ones

Options are read pair by pair, and each pair may take back what one before it has set. What comes of
it is read off the last value of each name (`foldl_set`): to set an option is to put one value in
the place of another, and values that are put one over the other are the later ones
(`overlay_overlay`). So the order of pairs matters only between pairs of one name, and the tail is
judged by its last value alone.
-/

namespace FleetBoard

namespace LogOptions

/-- A tail that can be asked for: everything, or a number of 64 bits. -/
def IsTail (tail : String) : Prop := tail = "all" ∨ ∃ n < UInt64.size, Decimal.Numeral tail.toList n

def names : List String :=
  ["follow", "timestamps", "details", "stdout", "stderr", "since", "until", "tail"]

/-- The value of the last pair with a name, among those whose value is not empty. -/
def lastGiven (params : List (String × String)) (name : String) : Option String :=
  (params.reverse.find? fun p => p.1 = name ∧ p.2 ≠ "").map (·.2)

/-- Options with the values that are given in the place of their own. -/
def overlay (o : LogOptions) (given : String → Option String) : LogOptions where
  follow := ((given "follow").map isTrue).getD o.follow
  timestamps := ((given "timestamps").map isTrue).getD o.timestamps
  notBefore := (given "since").or o.notBefore
  notAfter := (given "until").or o.notAfter
  tail := (given "tail").getD o.tail
  details := ((given "details").map isTrue).getD o.details
  showStdout := ((given "stdout").map isTrue).getD o.showStdout
  showStderr := ((given "stderr").map isTrue).getD o.showStderr

variable {o : LogOptions} {params : List (String × String)}

/-! ### Last values -/

theorem lastGiven_append (xs ys : List (String × String)) (name : String) :
    lastGiven (xs ++ ys) name = (lastGiven ys name).or (lastGiven xs name) := by
  rw [lastGiven, List.reverse_append, List.find?_append, Option.map_or]
  rfl

theorem lastGiven_singleton (p : String × String) (name : String) :
    lastGiven [p] name = if p.1 = name ∧ p.2 ≠ "" then some p.2 else none := by
  simp only [lastGiven, List.reverse_singleton, List.find?_singleton]
  split <;> simp_all

/-- A pair gives nothing to another name, and nothing at all if its value is empty. -/
theorem lastGiven_singleton_eq_none {p : String × String} {name : String}
    (idle : p.1 ≠ name ∨ p.2 = "") :
    lastGiven [p] name = none := by
  rw [lastGiven_singleton, if_neg]
  rintro ⟨same, filled⟩
  exact idle.elim (absurd same) filled

theorem ne_empty_of_lastGiven {name value : String} (given : lastGiven params name = some value) :
    value ≠ "" := by
  obtain ⟨p, found, rfl⟩ := Option.map_eq_some_iff.mp given
  have fits := List.find?_some found
  exact (of_decide_eq_true fits).2

/-- Neighbours with different names do not meet. -/
theorem lastGiven_swap {p q : String × String} (different : p.1 ≠ q.1)
    (before after : List (String × String)) (name : String) :
    lastGiven (before ++ q :: p :: after) name = lastGiven (before ++ p :: q :: after) name := by
  have pair : ∀ x y : String × String, lastGiven (before ++ x :: y :: after) name =
      (lastGiven after name).or
        ((lastGiven [y] name).or ((lastGiven [x] name).or (lastGiven before name))) := by
    intro x y
    rw [lastGiven_append, ← List.singleton_append, lastGiven_append, ← List.singleton_append,
      lastGiven_append, Option.or_assoc, Option.or_assoc]
  rw [pair, pair]
  by_cases own : p.1 = name
  · rw [lastGiven_singleton_eq_none (p := q) (.inl fun same => different (own.trans same.symm))]
    rfl
  · rw [lastGiven_singleton_eq_none (p := p) (.inl own)]
    rfl

/-- A pair that gives nothing to a name may stand anywhere. -/
theorem lastGiven_insert {p : String × String} {name : String} (idle : p.1 ≠ name ∨ p.2 = "")
    (before after : List (String × String)) :
    lastGiven (before ++ p :: after) name = lastGiven (before ++ after) name := by
  rw [lastGiven_append, ← List.singleton_append, lastGiven_append, lastGiven_singleton_eq_none idle,
    Option.or_none, lastGiven_append]

def pairs (given : String → Option String) (order : List String) : List (String × String) :=
  order.filterMap fun name => (given name).map (name, ·)

theorem lastGiven_pairs {given : String → Option String} (filled : ∀ name, given name ≠ some "")
    (order : List String) (name : String) :
    lastGiven (pairs given order) name = if name ∈ order then given name else none := by
  induction order with
  | nil => rfl
  | cons other order ih =>
      cases value : given other with
      | none =>
          have skipped : pairs given (other :: order) = pairs given order :=
            List.filterMap_cons_none (by rw [value]; rfl)
          rw [skipped, ih]
          grind
      | some v =>
          have first : pairs given (other :: order) = [(other, v)] ++ pairs given order :=
            List.filterMap_cons_some (by rw [value]; rfl)
          have full : v ≠ "" := fun empty => filled other (empty ▸ value)
          rw [first, lastGiven_append, ih, lastGiven_singleton]
          grind

/-! ### Setting options -/

/-- To set an option is to put its value over the others. -/
theorem set_eq_overlay (o : LogOptions) (p : String × String) :
    o.set p.1 p.2 = o.overlay (lastGiven [p]) := by
  obtain ⟨name, value⟩ := p
  by_cases empty : value = ""
  · subst empty
    have idle : ∀ other, lastGiven [(name, "")] other = none :=
      fun other => lastGiven_singleton_eq_none (.inr rfl)
    simp [set, overlay, idle]
  · simp only [set, String.isEmpty_iff, empty, if_false, overlay, lastGiven_singleton]
    split <;> simp_all

/-- Of two values of one name the later stands. -/
theorem overlay_overlay (o : LogOptions) (first later : String → Option String) :
    (o.overlay first).overlay later = o.overlay fun name => (later name).or (first name) := by
  have flags : ∀ (name : String) (default : Bool),
      ((later name).map isTrue).getD (((first name).map isTrue).getD default) =
        (((later name).or (first name)).map isTrue).getD default := by
    intro name default
    cases later name <;> rfl
  simp only [overlay, flags, Option.or_assoc, Option.getD_or]

/-- To set options one after the other is to put their last values over the others. -/
theorem foldl_set (o : LogOptions) (params : List (String × String)) :
    params.foldl (fun o p => o.set p.1 p.2) o = o.overlay (lastGiven params) := by
  induction params generalizing o with
  | nil => rfl
  | cons p params ih =>
      have split : lastGiven (p :: params) = fun name =>
          (lastGiven params name).or (lastGiven [p] name) :=
        funext (lastGiven_append [p] params)
      rw [List.foldl_cons, ih, set_eq_overlay, overlay_overlay, split]

/-- Pairs that give the same to the names of the options set the same options. -/
theorem overlay_congr {first other : String → Option String} (o : LogOptions)
    (same : ∀ name ∈ names, first name = other name) : o.overlay first = o.overlay other := by
  simp only [names, List.forall_mem_cons] at same
  simp only [overlay, same]

/-! ### Reading options -/

theorem tailLines_eq_some_iff {n : Nat} :
    o.tailLines = some n ↔ Decimal.Numeral o.tail.toList n ∧ n < UInt64.size := by
  have word : n ≤ Decimal.maxWord ↔ n < UInt64.size := Nat.le_iff_lt_add_one
  rw [tailLines, Decimal.readUpTo?_eq_some_iff, word]

theorem tailLines_of_all (all : o.tail = "all") : o.tailLines = none := by
  rw [tailLines, all]
  rfl

theorem isTail_iff : IsTail o.tail ↔ o.tail = "all" ∨ o.tailLines.isSome = true := by
  rw [IsTail, Option.isSome_iff_exists]
  simp only [tailLines_eq_some_iff, and_comm]

theorem ofParams_of_isTail (good : IsTail (overlay {} (lastGiven params)).tail) :
    ofParams params = .ok (overlay {} (lastGiven params)) := by
  rw [ofParams, foldl_set]
  simp only [validate, if_pos (isTail_iff.mp good)]

theorem ofParams_of_not_isTail (bad : ¬ IsTail (overlay {} (lastGiven params)).tail) :
    ofParams params =
      .error (.invalidOption "tail" (.notATail (overlay {} (lastGiven params)).tail)) := by
  rw [ofParams, foldl_set]
  simp only [validate, if_neg (mt isTail_iff.mpr bad)]

/-- What is read depends on nothing but the last values of the options. -/
theorem ofParams_congr {others : List (String × String)}
    (same : ∀ name ∈ names, lastGiven params name = lastGiven others name) :
    ofParams params = ofParams others := by
  rw [ofParams, ofParams, foldl_set, foldl_set, overlay_congr _ same]

/-- What is read of some pairs, by the options that their last values ask for. -/
structure ReadAs (params : List (String × String)) (asked : LogOptions) : Prop where
  /-- The tail is judged by its last value alone. -/
  accepts : ∀ o, ofParams params = .ok o ↔ IsTail asked.tail ∧ o = asked
  refuses : ∀ e, ofParams params = .error e ↔
    ¬ IsTail asked.tail ∧ e = .invalidOption "tail" (.notATail asked.tail)
  flags : ∀ value, isTrue value = true ↔
    value = "1" ∨ value = "t" ∨ value = "T" ∨ value = "TRUE" ∨ value = "true" ∨ value = "True"
  /-- Of what is not refused only `all` has no number. -/
  everything : ∀ o, ofParams params = .ok o → (o.tailLines = none ↔ o.tail = "all")
  /-- The pairs with the last values would have done. -/
  last : ofParams (pairs (lastGiven params) names) = ofParams params
  swap : ∀ before p q after, params = before ++ p :: q :: after → p.1 ≠ q.1 →
    ofParams (before ++ q :: p :: after) = ofParams params
  /-- A pair with another name or without a value may stand anywhere. -/
  idle : ∀ before p after, params = before ++ after → p.1 ∉ names ∨ p.2 = "" →
    ofParams (before ++ p :: after) = ofParams params

/-- Options are read of the last values of their names that are not empty, in whatever order they
come: a field has what its value says, or its default. -/
theorem ofParams_of_lastGiven (params : List (String × String)) :
    ReadAs params (overlay {} (lastGiven params)) where
  accepts o := by
    by_cases good : IsTail (overlay {} (lastGiven params)).tail
    · simp [ofParams_of_isTail good, good, eq_comm]
    · simp [ofParams_of_not_isTail good, good]
  refuses e := by
    by_cases good : IsTail (overlay {} (lastGiven params)).tail
    · simp [ofParams_of_isTail good, good]
    · simp [ofParams_of_not_isTail good, good, eq_comm]
  flags value := by simp [isTrue]
  everything := by
    intro o read
    refine ⟨?_, tailLines_of_all⟩
    intro nothing
    by_cases good : IsTail (overlay {} (lastGiven params)).tail
    · obtain rfl := Except.ok.inj ((ofParams_of_isTail good).symm.trans read)
      simpa [nothing] using isTail_iff.mp good
    · cases (ofParams_of_not_isTail good).symm.trans read
  last := by
    apply ofParams_congr
    intro name known
    rw [lastGiven_pairs (fun _ given => ne_empty_of_lastGiven given rfl), if_pos known]
  swap := by
    rintro before p q after rfl different
    exact ofParams_congr fun name _ => lastGiven_swap different before after name
  idle := by
    rintro before p after rfl idle
    apply ofParams_congr
    intro name known
    exact lastGiven_insert (idle.imp_left fun unknown same => unknown (same ▸ known)) before after

/-- A tail that is no number and is taken back, a flag that is set twice, and a name that is no
option. -/
def takenBack : List (String × String) :=
  [("tail", "abc"), ("follow", "no"), ("tail", ""), ("host", "edge"), ("tail", "+7"),
    ("follow", "t")]

/-- Only the last tail counts, and the last two pairs may change places. -/
theorem ofParams_of_lastGiven_takenBack :
    let read : LogOptions := { follow := true, tail := "+7" }
    IsTail "+7" ∧ ofParams takenBack = .ok read ∧ read.tailLines ≠ none ∧
      ("tail", "+7").1 ≠ ("follow", "t").1 ∧
      ofParams (takenBack.take 4 ++ [("follow", "t"), ("tail", "+7")]) = ofParams takenBack := by
  intro read
  have numeral : Decimal.Numeral "+7".toList 7 :=
    ⟨['7'], List.cons_ne_nil _ _, List.forall_mem_singleton.mpr rfl, rfl, .inr rfl⟩
  have number : IsTail "+7" := .inr ⟨7, by decide, numeral⟩
  have different : ("tail", "+7").1 ≠ ("follow", "t").1 := by decide
  have reads := ofParams_of_lastGiven takenBack
  have accepted : ofParams takenBack = .ok read := (reads.accepts read).mpr ⟨number, rfl⟩
  refine ⟨number, accepted, ?_, different, reads.swap _ _ _ [] rfl different⟩
  rw [Ne, reads.everything read accepted]
  decide

end LogOptions

end FleetBoard

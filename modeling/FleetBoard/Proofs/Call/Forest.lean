import FleetBoard.Call.Context
import Mathlib.Data.List.Basic

/-!
# Cancelling in a forest of tokens

A forest keeps a mark on every token that is cancelled, and cancelling a token walks over the whole
forest to mark what is below it. What the marks mean is said by paths: a token is marked if
cancelling was asked for on a token of its path, that is on the token itself or on one above it
(`Marked`). Making tokens and cancelling them keep this, since a token always stands after the one
above it.
-/

namespace FleetBoard.TokenForest

variable {forest : TokenForest} {token target parent : Nat} {above cancels : List Nat}

/-- Every token stands after the one above it. -/
def Ordered (forest : TokenForest) : Prop :=
  ∀ (token : Nat) (t : Token), forest[token]? = some t → ∀ parent, t.parent = some parent →
    parent < token

/-- A token and those above it, up to one that has none above it. -/
inductive Path (forest : TokenForest) : List Nat → Prop
  | root {token : Nat} {cancelled : Bool} (found : forest[token]? = some ⟨none, cancelled⟩) :
      Path forest [token]
  | under {token parent : Nat} {cancelled : Bool} {above : List Nat}
      (found : forest[token]? = some ⟨some parent, cancelled⟩)
      (onward : Path forest (parent :: above)) :
      Path forest (token :: parent :: above)

/-- The tokens that are cancelled are those on whose paths cancelling was asked for. -/
structure Marked (forest : TokenForest) (cancels : List Nat) : Prop where
  ordered : forest.Ordered
  inside : ∀ token ∈ cancels, token < forest.length
  marks : ∀ token above, Path forest (token :: above) →
    (forest.isCancelled token = true ↔ ∃ a ∈ token :: above, a ∈ cancels)

namespace Path

theorem lt_length (path : Path forest (token :: above)) : token < forest.length := by
  cases path with
  | root found => exact (List.getElem?_eq_some_iff.mp found).1
  | under found _ => exact (List.getElem?_eq_some_iff.mp found).1

/-- What is above a token stands before it. -/
theorem lt_of_mem (ordered : forest.Ordered) (path : Path forest (token :: above)) :
    ∀ a ∈ above, a < token := by
  generalize tokens : token :: above = line at path
  induction path generalizing token above with
  | root _ =>
      cases tokens
      exact fun _ inside => absurd inside List.not_mem_nil
  | under found _ ih =>
      cases tokens
      have next := ordered _ _ found _ rfl
      intro a inside
      rcases List.mem_cons.mp inside with rfl | higher
      · exact next
      · exact Nat.lt_trans (ih rfl a higher) next

/-- More tokens leave a path as it is. -/
theorem append (path : Path forest above) (more : TokenForest) : Path (forest ++ more) above := by
  induction path with
  | root found =>
      rw [← List.getElem?_append_left (List.getElem?_eq_some_iff.mp found).1] at found
      exact .root found
  | under found _ ih =>
      rw [← List.getElem?_append_left (List.getElem?_eq_some_iff.mp found).1] at found
      exact .under found ih

/-- The path of a token has no token that was made later. -/
theorem of_append {more : TokenForest} (ordered : Ordered (forest ++ more))
    (path : Path (forest ++ more) (token :: above)) (early : token < forest.length) :
    Path forest (token :: above) := by
  generalize tokens : token :: above = line at path
  induction path generalizing token above with
  | root found =>
      cases tokens
      rw [List.getElem?_append_left early] at found
      exact .root found
  | under found _ ih =>
      cases tokens
      have next := ordered _ _ found _ rfl
      rw [List.getElem?_append_left early] at found
      exact .under found (ih (Nat.lt_trans next early) rfl)

end Path

/-! ### New tokens -/

theorem isCancelled_append (early : token < forest.length) (more : TokenForest) :
    isCancelled (forest ++ more) token = forest.isCancelled token := by
  rw [isCancelled, List.getElem?_append_left early, ← isCancelled]

theorem isCancelled_concat (t : Token) :
    isCancelled (forest ++ [t]) forest.length = t.cancelled := by
  rw [isCancelled, List.getElem?_concat_length]

theorem Ordered.concat {t : Token} (ordered : forest.Ordered)
    (below : ∀ parent, t.parent = some parent → parent < forest.length) :
    Ordered (forest ++ [t]) := by
  intro token u found
  rw [List.getElem?_append] at found
  split at found
  · exact ordered token u found
  · next late =>
      obtain ⟨rfl, same⟩ : u = t ∧ token - forest.length = 0 := by
        rw [List.getElem?_singleton] at found
        split at found
        · next first => exact ⟨(Option.some.inj found).symm, first⟩
        · cases found
      intro parent linked
      have earlier := below parent linked
      omega

namespace Marked

theorem empty : Marked [] [] where
  ordered := nofun
  inside := nofun
  marks := by
    intro token above path
    exact absurd path.lt_length (Nat.not_lt_zero token)

/-- The last token, whose path is known, settles whether a forest stays marked when it is added. -/
theorem concat {t : Token} (marked : Marked forest cancels)
    (below : ∀ parent, t.parent = some parent → parent < forest.length)
    (mark : ∀ above, Path (forest ++ [t]) (forest.length :: above) →
      (t.cancelled = true ↔ ∃ a ∈ above, a ∈ cancels)) : Marked (forest ++ [t]) cancels where
  ordered := marked.ordered.concat below
  inside := by
    intro token inside
    rw [List.length_append]
    exact Nat.lt_add_right _ (marked.inside token inside)
  marks := by
    intro token above path
    by_cases early : token < forest.length
    · rw [isCancelled_append early]
      exact marked.marks token above (path.of_append (marked.ordered.concat below) early)
    · obtain rfl : token = forest.length := by
        have bound := path.lt_length
        rw [List.length_append, List.length_singleton] at bound
        omega
      have fresh : forest.length ∉ cancels := fun inside => Nat.lt_irrefl _ (marked.inside _ inside)
      rw [isCancelled_concat, mark above path]
      simp [fresh]

theorem addRoot (marked : Marked forest cancels) : Marked forest.addRoot cancels := by
  refine marked.concat nofun ?_
  intro above path
  cases path with
  | root _ => simp
  | under found _ =>
      rw [List.getElem?_concat_length] at found
      cases found

theorem addChild (marked : Marked forest cancels) (early : parent < forest.length) :
    Marked (forest.addChild parent) cancels := by
  have below : ∀ p, some parent = some p → p < forest.length := by
    intro p linked
    exact Option.some.inj linked ▸ early
  refine marked.concat below ?_
  intro above path
  cases path with
  | root found =>
      rw [List.getElem?_concat_length] at found
      cases found
  | under found onward =>
      rw [List.getElem?_concat_length] at found
      cases found
      exact marked.marks parent _ (onward.of_append (marked.ordered.concat below) early)

end Marked

/-! ### Cancelling -/

theorem isCancelled_of_prefix {before : TokenForest} (begins : before <+: forest)
    (early : token < before.length) : forest.isCancelled token = before.isCancelled token := by
  obtain ⟨more, rfl⟩ := begins
  exact isCancelled_append early more

/-- Marking goes over the rest of a forest and leaves what is before. A token is marked if it was,
if it is the target, or if the token above it has been marked. -/
theorem cancelFrom_spec (target : Nat) (before rest : TokenForest) :
    before <+: cancelFrom target before rest ∧
      (cancelFrom target before rest).length = before.length + rest.length ∧
      ∀ i t, rest[i]? = some t → (∀ parent, t.parent = some parent → parent < before.length + i) →
        (cancelFrom target before rest)[before.length + i]? = some { t with
          cancelled := t.cancelled || t.parent.any (cancelFrom target before rest).isCancelled ||
            before.length + i == target } := by
  induction rest generalizing before with
  | nil => exact ⟨List.prefix_rfl, rfl, nofun⟩
  | cons u rest ih =>
      rw [cancelFrom]
      generalize marked : ({ u with cancelled := (_ : Bool) } : Token) = v
      obtain ⟨begins, length, later⟩ := ih (before ++ [v])
      have earlier : before <+: cancelFrom target (before ++ [v]) rest :=
        (List.prefix_append before [v]).trans begins
      rw [List.length_append, List.length_singleton] at length later
      refine ⟨earlier, by rw [length, List.length_cons]; omega, ?_⟩
      intro i t found below
      cases i with
      | zero =>
          obtain rfl : u = t := Option.some.inj found
          have here : (cancelFrom target (before ++ [v]) rest)[before.length]? = some v := by
            rw [List.prefix_iff_getElem?.mp begins before.length (by simp)]
            simp
          rw [Nat.add_zero, here]
          refine congrArg some (marked.symm.trans ?_)
          cases linked : u.parent with
          | none => rfl
          | some p =>
              have same := isCancelled_of_prefix earlier (by simpa using below p linked)
              simp [same]
      | succ i =>
          rw [List.getElem?_cons_succ] at found
          have place : before.length + (i + 1) = before.length + 1 + i := by omega
          rw [place] at below ⊢
          exact later i t found below

@[simp] theorem length_cancel (forest : TokenForest) (target : Nat) :
    (forest.cancel target).length = forest.length := by
  rw [cancel, (cancelFrom_spec target [] forest).2.1, List.length_nil, Nat.zero_add]

theorem getElem?_cancel {t : Token} (ordered : forest.Ordered) (found : forest[token]? = some t) :
    (forest.cancel target)[token]? = some { t with
      cancelled := t.cancelled || t.parent.any (forest.cancel target).isCancelled || token ==
        target } := by
  have marked := (cancelFrom_spec target [] forest).2.2 token t found
    (by simpa using ordered token t found)
  rw [List.length_nil, Nat.zero_add] at marked
  exact marked

theorem getElem?_of_cancel {u : Token} (ordered : forest.Ordered)
    (found : (forest.cancel target)[token]? = some u) :
    ∃ t, forest[token]? = some t ∧ u.parent = t.parent := by
  have bound := (List.getElem?_eq_some_iff.mp found).1
  rw [length_cancel] at bound
  refine ⟨forest[token], List.getElem?_eq_getElem bound, ?_⟩
  rw [getElem?_cancel ordered (List.getElem?_eq_getElem bound)] at found
  cases found
  rfl

theorem Ordered.cancel (ordered : forest.Ordered) (target : Nat) :
    Ordered (forest.cancel target) := by
  intro token u found parent linked
  obtain ⟨t, before, same⟩ := getElem?_of_cancel ordered found
  exact ordered token t before parent (same ▸ linked)

/-- Cancelling moves no token. -/
theorem path_cancel_iff (ordered : forest.Ordered) :
    Path (forest.cancel target) above ↔ Path forest above := by
  constructor
  · intro path
    induction path with
    | root found =>
        obtain ⟨⟨parent, cancelled⟩, before, rfl⟩ := getElem?_of_cancel ordered found
        exact .root before
    | under found _ ih =>
        obtain ⟨⟨parent, cancelled⟩, before, rfl⟩ := getElem?_of_cancel ordered found
        exact .under before ih
  · intro path
    induction path with
    | root found => exact .root (getElem?_cancel ordered found)
    | under found _ ih => exact .under (getElem?_cancel ordered found) ih

theorem isCancelled_cancel {t : Token} (ordered : forest.Ordered)
    (found : forest[token]? = some t) :
    (forest.cancel target).isCancelled token =
      (forest.isCancelled token || t.parent.any (forest.cancel target).isCancelled ||
        token == target) := by
  rw [isCancelled, getElem?_cancel ordered found, isCancelled, found]

/-- Cancelling reaches the tokens on whose paths the target is, and no others. -/
theorem isCancelled_cancel_iff (marked : Marked forest cancels)
    (path : Path forest (token :: above)) :
    (forest.cancel target).isCancelled token = true ↔
      forest.isCancelled token = true ∨ target ∈ token :: above := by
  generalize tokens : token :: above = line at path
  induction path generalizing token above with
  | @root token cancelled found =>
      cases tokens
      rw [isCancelled_cancel marked.ordered found, Option.any_none, Bool.or_false, Bool.or_eq_true,
        beq_iff_eq, List.mem_singleton, @eq_comm _ token target]
  | @under token parent cancelled above found onward ih =>
      cases tokens
      rw [isCancelled_cancel marked.ordered found, Bool.or_eq_true, Bool.or_eq_true,
        Option.any_some, ih rfl, beq_iff_eq]
      constructor
      · rintro ((before | before | inside) | rfl)
        · exact .inl before
        · -- A mark on the parent comes from its path, which is part of the path of the token.
          obtain ⟨a, inside, asked⟩ := (marked.marks parent above onward).mp before
          exact .inl ((marked.marks token _ (.under found onward)).mpr
            ⟨a, List.mem_cons_of_mem _ inside, asked⟩)
        · exact .inr (List.mem_cons_of_mem _ inside)
        · exact .inr List.mem_cons_self
      · rintro (before | inside)
        · exact .inl (.inl before)
        · rcases List.mem_cons.mp inside with rfl | higher
          · exact .inr rfl
          · exact .inl (.inr (.inr higher))

theorem Marked.cancel (marked : Marked forest cancels) (early : target < forest.length) :
    Marked (forest.cancel target) (target :: cancels) where
  ordered := marked.ordered.cancel target
  inside := by
    intro token inside
    rw [length_cancel]
    rcases List.mem_cons.mp inside with rfl | before
    · exact early
    · exact marked.inside token before
  marks := by
    intro token above path
    rw [path_cancel_iff marked.ordered] at path
    rw [isCancelled_cancel_iff marked path, marked.marks token above path]
    constructor
    · rintro (⟨a, inside, before⟩ | inside)
      · exact ⟨a, inside, List.mem_cons_of_mem _ before⟩
      · exact ⟨target, inside, List.mem_cons_self⟩
    · rintro ⟨a, inside, asked⟩
      rcases List.mem_cons.mp asked with rfl | before
      · exact .inr inside
      · exact .inl ⟨a, inside, before⟩

end FleetBoard.TokenForest

import FleetBoard.Fleet.Listing
import Mathlib.Data.List.Nodup
import Mathlib.Data.String.Basic

/-!
# Listings do not depend on the order of the answers

The answers of the hosts come in one by one, and each goes to the list of its host or to the errors.
What is said here of the listing that results mentions the answers only up to their order:
`Collects` says that each of them is there once, and in which order a listing shows them. As no host
answers twice, there is only one such listing (`Collects.unique`).
-/

namespace FleetBoard.Listing

variable {l : Listing} {answers : List HostAnswer} {host : String}

def listed : HostAnswer → Option (String × List Container)
  | (host, .ok containers) => some (host, containers.map fun c => { c with host := host })
  | (_, .error _) => none

def failed : HostAnswer → Option HostError
  | (host, .error e) => some ⟨host, e.message⟩
  | (_, .ok _) => none

/-- What a listing says of a host: its containers with its name on them, or its error, and not
both. -/
def Shows (l : Listing) (host : String) : Except EngineError (List Container) → Prop
  | .ok containers =>
    l.byHost.lookup host = some (containers.map fun c => { c with host := host }) ∧
      host ∉ l.errors.map (·.host)
  | .error e =>
    host ∉ l.byHost.map (·.1) ∧ l.errors.filter (fun f => f.host = host) = [⟨host, e.message⟩]

/-- The listing has an entry for each of the answers, and the entries are in the order of the
hosts. -/
structure Collects (l : Listing) (answers : List HostAnswer) : Prop where
  lists : l.byHost.Perm (answers.filterMap listed)
  failures : l.errors.Perm (answers.filterMap failed)
  listsOrdered : l.byHost.Pairwise fun a b => a.1 < b.1
  failuresOrdered : l.errors.Pairwise fun a b => a.host ≤ b.host

/-! ### Putting answers together -/

section Insert

variable {entries : List (String × List Container)}

theorem insertHost_perm (containers : List Container) (fresh : host ∉ entries.map (·.1)) :
    (insertHost host containers entries).Perm ((host, containers) :: entries) := by
  induction entries with
  | nil => exact List.Perm.refl _
  | cons entry entries ih =>
      obtain ⟨other, theirs⟩ := entry
      rw [List.map_cons, List.mem_cons, not_or] at fresh
      rw [insertHost]
      split
      · exact List.Perm.refl _
      · rw [if_neg fresh.1]
        exact ((ih fresh.2).cons _).trans (List.Perm.swap _ _ _)

theorem insertHost_ordered (containers : List Container) (fresh : host ∉ entries.map (·.1))
    (ordered : entries.Pairwise fun a b => a.1 < b.1) :
    (insertHost host containers entries).Pairwise fun a b => a.1 < b.1 := by
  induction entries with
  | nil => exact List.pairwise_singleton _ _
  | cons entry entries ih =>
      obtain ⟨other, theirs⟩ := entry
      rw [List.map_cons, List.mem_cons, not_or] at fresh
      obtain ⟨least, later⟩ := List.pairwise_cons.mp ordered
      rw [insertHost]
      split
      · next before =>
          refine List.pairwise_cons.mpr ⟨?_, ordered⟩
          intro e inside
          rcases List.mem_cons.mp inside with rfl | behind
          · exact before
          · exact lt_trans before (least e behind)
      · next after =>
          rw [if_neg fresh.1]
          refine List.pairwise_cons.mpr ⟨?_, ih fresh.2 later⟩
          intro e inside
          rcases List.mem_cons.mp ((insertHost_perm containers fresh.2).mem_iff.mp inside)
            with rfl | behind
          · exact lt_of_le_of_ne (not_lt.mp after) (Ne.symm fresh.1)
          · exact least e behind

end Insert

/-- One answer after the other gets its entry, as long as no host answers twice. -/
theorem foldl_add (distinct : (l.byHost.map (·.1) ++ answers.map (·.1)).Nodup)
    (ordered : l.byHost.Pairwise fun a b => a.1 < b.1) :
    (answers.foldl add l).byHost.Perm (l.byHost ++ answers.filterMap listed) ∧
      (answers.foldl add l).byHost.Pairwise (fun a b => a.1 < b.1) ∧
      (answers.foldl add l).errors = l.errors ++ answers.filterMap failed := by
  induction answers generalizing l with
  | nil => exact ⟨by simp, ordered, by simp⟩
  | cons answer answers ih =>
      obtain ⟨host, result⟩ := answer
      rw [List.foldl_cons]
      rw [List.map_cons, List.nodup_middle] at distinct
      obtain ⟨fresh, rest⟩ := List.nodup_cons.mp distinct
      cases result with
      | error e =>
          obtain ⟨lists, sorted, failures⟩ := @ih (l.add (host, .error e)) rest ordered
          refine ⟨lists, sorted, ?_⟩
          rw [failures]
          simp [add, failed]
      | ok containers =>
          have unknown : host ∉ l.byHost.map (·.1) := by
            intro known
            exact fresh (List.mem_append_left _ known)
          let marked := containers.map fun c => { c with host := host }
          have placed := insertHost_perm marked unknown
          have names :
              ((l.add (host, .ok containers)).byHost.map (·.1) ++ answers.map (·.1)).Nodup :=
            (((placed.map (·.1)).append_right _).nodup_iff).mpr distinct
          obtain ⟨lists, sorted, failures⟩ := ih names (insertHost_ordered marked unknown ordered)
          refine ⟨?_, sorted, failures⟩
          refine lists.trans ((placed.append_right _).trans ?_)
          rw [List.filterMap_cons_some (by rfl)]
          exact List.perm_middle.symm

/-- A listing of answers has each of them. -/
theorem ofAnswers_collects (distinct : (answers.map (·.1)).Nodup) :
    (ofAnswers answers).Collects answers := by
  obtain ⟨lists, sorted, failures⟩ := @foldl_add {} answers distinct List.Pairwise.nil
  refine ⟨lists, ?_, sorted, ?_⟩
  · have same : (answers.foldl add {}).errors = answers.filterMap failed := failures
    rw [← same]
    exact List.mergeSort_perm _ _
  · have transitive : ∀ a b c : HostError, decide (a.host ≤ b.host) = true →
        decide (b.host ≤ c.host) = true → decide (a.host ≤ c.host) = true := by
      intro a b c first second
      rw [decide_eq_true_eq] at first second ⊢
      exact le_trans first second
    have total : ∀ a b : HostError, (decide (a.host ≤ b.host) || decide (b.host ≤ a.host)) =
        true := by
      intro a b
      simpa using le_total a.host b.host
    exact (List.pairwise_mergeSort transitive total _).imp of_decide_eq_true

namespace Collects

/-- Each host that answered has one entry, among the lists or among the errors. -/
theorem names (collects : l.Collects answers) :
    (l.byHost.map (·.1) ++ l.errors.map (·.host)).Perm (answers.map (·.1)) := by
  refine ((collects.lists.map _).append (collects.failures.map _)).trans ?_
  generalize answers = answers
  induction answers with
  | nil => exact List.Perm.refl _
  | cons answer answers ih =>
      obtain ⟨host, _ | containers⟩ := answer
      · exact List.perm_middle.trans (ih.cons host)
      · exact ih.cons host

theorem names_nodup (collects : l.Collects answers) (distinct : (answers.map (·.1)).Nodup) :
    (l.byHost.map (·.1) ++ l.errors.map (·.host)).Nodup :=
  collects.names.nodup_iff.mpr distinct

/-- With one answer for each host, the errors are strictly ordered. -/
theorem failures_strict (collects : l.Collects answers) (distinct : (answers.map (·.1)).Nodup) :
    l.errors.Pairwise fun a b => a.host < b.host := by
  have once : (l.errors.map (·.host)).Nodup :=
    (List.nodup_append.mp (collects.names_nodup distinct)).2.1
  refine (collects.failuresOrdered.and (List.pairwise_map.mp once)).imp ?_
  rintro a b ⟨order, differs⟩
  exact lt_of_le_of_ne order differs

/-- The order in which hosts answered is forgotten. -/
theorem unique {m : Listing} {others : List HostAnswer} (distinct : (answers.map (·.1)).Nodup)
    (reordered : others.Perm answers) (collects : l.Collects answers)
    (collects' : m.Collects others) :
    l = m := by
  have distinct' : (others.map (·.1)).Nodup := (reordered.map _).nodup_iff.mpr distinct
  have lists : l.byHost = m.byHost := by
    refine List.Perm.eq_of_pairwise ?_ collects.listsOrdered collects'.listsOrdered
      (collects.lists.trans ((reordered.symm.filterMap _).trans collects'.lists.symm))
    intro a b _ _ first second
    exact absurd second (lt_asymm first)
  have failures : l.errors = m.errors := by
    refine List.Perm.eq_of_pairwise ?_ (collects.failures_strict distinct)
      (collects'.failures_strict distinct')
      (collects.failures.trans ((reordered.symm.filterMap _).trans collects'.failures.symm))
    intro a b _ _ first second
    exact absurd second (lt_asymm first)
  cases l
  cases m
  exact congrArg₂ Listing.mk lists failures

theorem lookup_of_mem {α : Type} {entries : List (String × α)} {value : α}
    (distinct : (entries.map (·.1)).Nodup) (inside : (host, value) ∈ entries) :
    entries.lookup host = some value := by
  obtain ⟨before, after, rfl⟩ := List.append_of_mem inside
  rw [List.map_append, List.map_cons, List.nodup_middle] at distinct
  have fresh := (List.nodup_cons.mp distinct).1
  refine List.lookup_eq_some_iff.mpr ⟨before, after, rfl, ?_⟩
  intro entry earlier
  rw [bne_iff_ne]
  rintro rfl
  exact fresh (List.mem_append_left _ (List.mem_map_of_mem (f := (·.1)) earlier))

/-- A listing says of each host what the host answered. -/
theorem shows {result : Except EngineError (List Container)} (collects : l.Collects answers)
    (distinct : (answers.map (·.1)).Nodup) (answered : (host, result) ∈ answers) :
    l.Shows host result := by
  obtain ⟨listsOnce, errorsOnce, apart⟩ := List.nodup_append.mp (collects.names_nodup distinct)
  cases result with
  | ok containers =>
      have inside : (host, containers.map fun c => { c with host := host }) ∈ l.byHost :=
        collects.lists.mem_iff.mpr (List.mem_filterMap.mpr ⟨_, answered, rfl⟩)
      refine ⟨lookup_of_mem listsOnce inside, ?_⟩
      intro failedToo
      exact apart host (List.mem_map_of_mem (f := (·.1)) inside) host failedToo rfl
  | error e =>
      have inside : ⟨host, e.message⟩ ∈ l.errors :=
        collects.failures.mem_iff.mpr (List.mem_filterMap.mpr ⟨_, answered, rfl⟩)
      refine ⟨?_, ?_⟩
      · intro listedToo
        exact apart host listedToo host (List.mem_map_of_mem (f := (·.host)) inside) rfl
      · have sameHost : ∀ f ∈ l.errors, f.host = host → f = ⟨host, e.message⟩ :=
          fun f there same => List.inj_on_of_nodup_map errorsOnce there inside same
        have once : l.errors.Nodup := errorsOnce.of_map _
        have filtered : l.errors.filter (fun f => f.host = host) =
            l.errors.filter (fun f => f = ⟨host, e.message⟩) := by
          refine List.filter_congr ?_
          intro f there
          rw [decide_eq_decide]
          exact ⟨sameHost f there, fun same => same ▸ rfl⟩
        rw [filtered, List.filter_eq, List.count_eq_one_of_mem once inside]
        rfl

end Collects

end FleetBoard.Listing

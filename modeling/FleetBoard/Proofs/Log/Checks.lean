import FleetBoard.Proofs.Log.Turns

/-!
# What a relay observes

A relay has no say in what comes of its waits: the token, the consumer and the source decide. Before
a read, and for as long as it waits for one, the relay looks at the token first, at the consumer
second and at the source last, and the first moment at which there is something decides
(`ReadSees`). Before a chunk is handed over the token is looked at once more, and the chunk is
withheld if it is cancelled: whoever holds the token may have cancelled it since the read came. A
reply that comes at once is taken as it is, and for one that takes time the token is looked at until
it is there (`DeliverySees`).

`Observes` puts this together: of a standing it says which event can be next, and there is just one.
The standings of a run are replayed from its events, and every event of a run is the one to be
observed (`Run.observes`).
-/

namespace FleetBoard.Relay

/-- `m` is the first moment of those from `now` on at which `P` holds. -/
structure First (P : Nat → Prop) (now m : Nat) : Prop where
  begun : now ≤ m
  holds : P m
  earliest : ∀ k, now ≤ k → k < m → ¬ P k

theorem First.unique {P : Nat → Prop} {now m k : Nat} (one : First P now m)
    (other : First P now k) : m = k := by
  obtain before | same | behind := Nat.lt_trichotomy m k
  · exact (other.earliest m one.begun before one.holds).elim
  · exact same
  · exact (one.earliest k other.begun behind other.holds).elim

/-! ### Sources -/

/-- What a source has for a read. -/
inductive Brought where
  | bytes (chunk : List UInt8)
  | failed (text : String)
  | closed
  deriving DecidableEq, Repr

/-- The reads of a source in their order, and its end behind them. -/
structure Script where
  reads : List Piece
  wait : Nat
  ending : SourceEnd
  deriving DecidableEq, Repr

/-- What the reads of a source bring, and when. -/
def scriptOf (source : Source) : Script :=
  ⟨(reads 0 source.pieces).1, (reads 0 source.pieces).2 + source.wait, source.ending⟩

namespace Script

/-- How long the read behind `count` others takes, if it comes at all. -/
def waitFor (script : Script) (count : Nat) : Option Nat :=
  match script.reads[count]? with
  | some r => some r.wait
  | none => if script.ending = .silent then none else some script.wait

/-- What the read behind `count` others brings. -/
def brings (script : Script) (count : Nat) : Brought :=
  match script.reads[count]? with
  | some r => .bytes r.bytes
  | none =>
    match script.ending with
    | .failed text => .failed text
    | _ => .closed

end Script

/-! ### Standings -/

/-- Where a relay stands between two events, and what it is about to ask for. The moment of its
cancellation is known as far as it is settled: it may still be cancelled between two events. -/
structure Standing where
  now : Nat := 0
  cancelledAt : Option Nat := none
  writes : Nat := 0
  asks : Ask := .read
  deriving DecidableEq, Repr

/-- At this moment the token is cancelled. -/
def Standing.CancelledBy (s : Standing) (m : Nat) : Prop := ∃ c ∈ s.cancelledAt, c ≤ m

/-- At this moment, with so many writes made, the consumer is gone. -/
def Sink.GoneBy (sink : Sink) (writes m : Nat) : Prop :=
  (∃ n ∈ sink.goneAfter, n ≤ writes) ∨ ∃ c ∈ sink.goneAt, c ≤ m

namespace Standing

/-- Cancels the relay now, if it is to be. -/
def cancelIf (s : Standing) (cancels : Bool) : Standing :=
  { s with cancelledAt := if cancels then earlier s.cancelledAt (some s.now) else s.cancelledAt }

/-- The standing once the next write has been begun, which may cancel the relay. -/
def writing (sink : Sink) (s : Standing) : Standing :=
  { s.cancelIf (sink.cancelsOn (s.writes + 1)) with writes := s.writes + 1 }

/-- The standing behind an event that the relay goes on after. Before the next event the relay may
be cancelled. -/
def after (sink : Sink) (s : Standing) : Event → Standing
  | .read (.ready m) =>
    { s with now := m, asks := .write }.cancelIf (sink.cancelsAfter .read (s.writes + 1))
  | .write number _ (.taken m) =>
    { s.writing sink with now := m, asks := .flush }.cancelIf (sink.cancelsAfter .write number)
  | .flush number (.taken m) =>
    { s with now := m, asks := .read }.cancelIf (sink.cancelsAfter .flush number)
  | _ => s

theorem CancelledBy.later {s : Standing} {m k : Nat} (cancelled : s.CancelledBy m) (le : m ≤ k) :
    s.CancelledBy k := by
  obtain ⟨c, settled, before⟩ := cancelled
  exact ⟨c, settled, Nat.le_trans before le⟩

end Standing

/-- The events of a relay, each with the standing before it. -/
def story (sink : Sink) : Standing → List Event → List (Standing × Event)
  | _, [] => []
  | s, event :: events => (s, event) :: story sink (s.after sink event) events

/-! ### Observations -/

/-- There is something for a relay that waits for a read which is due at some moment, or never. -/
def Stirs (sink : Sink) (s : Standing) (due : Option Nat) (m : Nat) : Prop :=
  s.CancelledBy m ∨ sink.GoneBy s.writes m ∨ due = some m

/-- What comes of the wait for a read. Of all that is there at the first moment with something, the
token comes first and the consumer second. -/
inductive ReadSees (sink : Sink) (s : Standing) (due : Option Nat) : ReadEvent → Prop
  | cancelled {m : Nat} (first : First (Stirs sink s due) s.now m) (cancelled : s.CancelledBy m) :
      ReadSees sink s due (.cancelled m)
  | gone {m : Nat} (first : First (Stirs sink s due) s.now m) (uncancelled : ¬ s.CancelledBy m)
      (gone : sink.GoneBy s.writes m) : ReadSees sink s due (.gone m)
  | ready {m : Nat} (first : First (Stirs sink s due) s.now m) (uncancelled : ¬ s.CancelledBy m)
      (present : ¬ sink.GoneBy s.writes m) : ReadSees sink s due (.ready m)
  | never (quiet : ∀ m, s.now ≤ m → ¬ Stirs sink s due m) : ReadSees sink s due .never

/-- What comes of a write or a flush. The token is looked at only while a reply takes time. -/
inductive DeliverySees (s : Standing) (reply : Reply) : Delivery → Prop
  | taken {wait : Nat} (accepts : reply = .accepts wait)
      (free : wait = 0 ∨ ¬ s.CancelledBy (s.now + wait)) :
      DeliverySees s reply (.taken (s.now + wait))
  | refused {wait : Nat} (refuses : reply = .refuses wait)
      (free : wait = 0 ∨ ¬ s.CancelledBy (s.now + wait)) :
      DeliverySees s reply (.refused (s.now + wait))
  | cancelled {m : Nat} (first : First s.CancelledBy s.now m)
      (waits : ∀ wait, reply = .accepts wait ∨ reply = .refuses wait →
        wait ≠ 0 ∧ m ≤ s.now + wait) :
      DeliverySees s reply (.cancelled m)
  | never {taken : Bool} (hangs : reply = .hangs taken) (free : ∀ m, ¬ s.CancelledBy m) :
      DeliverySees s reply .never

/-- The event that is to be observed from a standing. Before a write the token is looked at: a chunk
is withheld where it is cancelled. Else what the last read brought is written, and it is the write
whose reply counts then. -/
inductive Observes (script : Script) (sink : Sink) (s : Standing) : Event → Prop
  | read {came : ReadEvent} (asks : s.asks = .read)
      (sees : ReadSees sink s ((script.waitFor s.writes).map (s.now + ·)) came) :
      Observes script sink s (.read came)
  | withheld {chunk : List UInt8} (asks : s.asks = .write) (cancelled : s.CancelledBy s.now)
      (brought : script.brings s.writes = .bytes chunk) : Observes script sink s (.withheld s.now)
  | write {chunk : List UInt8} {came : Delivery} (asks : s.asks = .write)
      (uncancelled : ¬ s.CancelledBy s.now) (brought : script.brings s.writes = .bytes chunk)
      (sees : DeliverySees (s.writing sink) (sink.write (s.writes + 1)) came) :
      Observes script sink s (.write (s.writes + 1) chunk came)
  | flush {came : Delivery} (asks : s.asks = .flush)
      (sees : DeliverySees s (sink.flush s.writes) came) :
      Observes script sink s (.flush s.writes came)

section Unique

variable {sink : Sink} {script : Script} {s : Standing} {due : Option Nat} {reply : Reply}

theorem ReadSees.unique {a b : ReadEvent} (one : ReadSees sink s due a)
    (other : ReadSees sink s due b) : a = b := by
  cases one with
  | never quiet =>
      cases other with
      | never => rfl
      | cancelled first | gone first | ready first => exact (quiet _ first.begun first.holds).elim
  | cancelled first cancelled =>
      cases other with
      | never quiet => exact (quiet _ first.begun first.holds).elim
      | cancelled first' => rw [first.unique first']
      | gone first' free | ready first' free =>
          rw [← first.unique first'] at free
          exact (free cancelled).elim
  | gone first free gone =>
      cases other with
      | never quiet => exact (quiet _ first.begun first.holds).elim
      | gone first' => rw [first.unique first']
      | cancelled first' cancelled =>
          rw [← first.unique first'] at cancelled
          exact (free cancelled).elim
      | ready first' free' present =>
          rw [← first.unique first'] at present
          exact (present gone).elim
  | ready first free present =>
      cases other with
      | never quiet => exact (quiet _ first.begun first.holds).elim
      | ready first' => rw [first.unique first']
      | cancelled first' cancelled =>
          rw [← first.unique first'] at cancelled
          exact (free cancelled).elim
      | gone first' free' gone =>
          rw [← first.unique first'] at gone
          exact (present gone).elim

/-- A reply for which the token has been looked at in vain is not interrupted. -/
theorem not_interrupted {wait m : Nat} (free : wait = 0 ∨ ¬ s.CancelledBy (s.now + wait))
    (first : First s.CancelledBy s.now m) (waits : wait ≠ 0 ∧ m ≤ s.now + wait) : False := by
  cases free with
  | inl soon => exact waits.1 soon
  | inr free => exact free (first.holds.later waits.2)

theorem DeliverySees.unique {a b : Delivery} (one : DeliverySees s reply a)
    (other : DeliverySees s reply b) :
    a = b := by
  cases one with
  | taken accepts free =>
      subst accepts
      cases other with
      | taken accepts' => cases accepts'; rfl
      | refused refuses => cases refuses
      | never hangs => cases hangs
      | cancelled first waits => exact (not_interrupted free first (waits _ (.inl rfl))).elim
  | refused refuses free =>
      subst refuses
      cases other with
      | refused refuses' => cases refuses'; rfl
      | taken accepts => cases accepts
      | never hangs => cases hangs
      | cancelled first waits => exact (not_interrupted free first (waits _ (.inr rfl))).elim
  | cancelled first waits =>
      cases other with
      | cancelled first' => rw [first.unique first']
      | taken accepts free => exact (not_interrupted free first (waits _ (.inl accepts))).elim
      | refused refuses free => exact (not_interrupted free first (waits _ (.inr refuses))).elim
      | never hangs free => exact (free _ first.holds).elim
  | never hangs free =>
      subst hangs
      cases other with
      | never => rfl
      | taken accepts => cases accepts
      | refused refuses => cases refuses
      | cancelled first => exact (free _ first.holds).elim

/-- Only one event can be observed. -/
theorem Observes.unique {a b : Event} (one : Observes script sink s a)
    (other : Observes script sink s b) : a = b := by
  cases one with
  | read asks sees =>
      cases other with
      | read asks' sees' => rw [sees.unique sees']
      | withheld asks' | write asks' | flush asks' => cases asks.symm.trans asks'
  | withheld asks cancelled =>
      cases other with
      | withheld => rfl
      | write _ free => exact (free cancelled).elim
      | read asks' | flush asks' => cases asks.symm.trans asks'
  | write asks free brought sees =>
      cases other with
      | write asks' free' brought' sees' =>
          cases brought.symm.trans brought'
          rw [sees.unique sees']
      | withheld _ cancelled => exact (free cancelled).elim
      | read asks' | flush asks' => cases asks.symm.trans asks'
  | flush asks sees =>
      cases other with
      | flush asks' sees' => rw [sees.unique sees']
      | read asks' | withheld asks' | write asks' => cases asks.symm.trans asks'

end Unique

/-! ### What comes of the waits -/

section Waits

variable {sink : Sink} {p : Progress} {asks : Ask}

/-- Where some progress leaves a relay that asks for something next. -/
def Progress.standing (p : Progress) (asks : Ask) : Standing :=
  ⟨p.now, p.cancelledAt, p.writes, asks⟩

theorem passed_iff {moment : Option Nat} {m : Nat} :
    passed moment m = true ↔ ∃ c ∈ moment, c ≤ m := by
  cases moment <;> simp [passed]

theorem isCancelled_iff (asks : Ask) : p.isCancelled = true ↔ (p.standing asks).CancelledBy p.now :=
  passed_iff

theorem isGone_iff : p.isGone sink = true ↔ sink.GoneBy p.writes p.now := by
  rw [Progress.isGone, Bool.or_eq_true, passed_iff]
  apply or_congr_left
  cases sink.goneAfter <;> simp

theorem noLater_iff {a b : Option Nat} : noLater a b = true ↔ ∃ m, a = some m ∧ ∀ k ∈ b, m ≤ k := by
  cases a <;> cases b <;> simp [noLater]

theorem First.at_once {P : Nat → Prop} {now : Nat} (holds : P now) : First P now now :=
  ⟨Nat.le_refl now, holds, fun _ begun before => absurd before (Nat.not_lt.mpr begun)⟩

/-- The consumer goes at a moment that is set, if it is not gone already. -/
theorem exists_goneAt {m : Nat} (present : ¬ sink.GoneBy p.writes p.now)
    (gone : sink.GoneBy p.writes m) :
    ∃ c, sink.goneAt = some c ∧ c ≤ m := by
  cases gone with
  | inl spent => exact (present (.inl spent)).elim
  | inr left => exact left

/-- Until the first of the three moments there is nothing. -/
theorem quiet_until {due : Option Nat} {m : Nat} (present : ¬ sink.GoneBy p.writes p.now)
    (token : ∀ c ∈ p.cancelledAt, m ≤ c) (consumer : ∀ c ∈ sink.goneAt, m ≤ c)
    (read : ∀ c ∈ due, m ≤ c) :
    ∀ k, p.now ≤ k → k < m → ¬ Stirs sink (p.standing asks) due k := by
  rintro k - before (⟨c, set, passed⟩ | gone | ready)
  · exact absurd (token c set) (by omega)
  · obtain ⟨c, set, passed⟩ := exists_goneAt present gone
    exact absurd (consumer c set) (by omega)
  · exact absurd (read k ready) (by omega)

theorem sees_cancelled {due : Option Nat} {m : Nat} (set : p.cancelledAt = some m)
    (begun : p.now ≤ m) (present : ¬ sink.GoneBy p.writes p.now)
    (consumer : ∀ c ∈ sink.goneAt, m ≤ c) (read : ∀ c ∈ due, m ≤ c) :
    ReadSees sink (p.standing asks) due (.cancelled m) := by
  have cancelled : (p.standing asks).CancelledBy m := ⟨m, set, Nat.le_refl m⟩
  exact .cancelled ⟨begun, .inl cancelled, quiet_until present (by simp [set]) consumer read⟩
    cancelled

theorem sees_gone {due : Option Nat} {m : Nat} (set : sink.goneAt = some m) (begun : p.now ≤ m)
    (present : ¬ sink.GoneBy p.writes p.now) (token : ∀ c ∈ p.cancelledAt, m < c)
    (read : ∀ c ∈ due, m ≤ c) :
    ReadSees sink (p.standing asks) due (.gone m) := by
  have gone : sink.GoneBy p.writes m := .inr ⟨m, set, Nat.le_refl m⟩
  refine .gone ⟨begun, .inr (.inl gone), ?_⟩ ?_ gone
  · exact quiet_until present (fun c token' => Nat.le_of_lt (token c token')) (by simp [set]) read
  · rintro ⟨c, token', passed⟩
    exact absurd (token c token') (Nat.not_lt.mpr passed)

theorem sees_ready {due : Option Nat} {m : Nat} (set : due = some m) (begun : p.now ≤ m)
    (present : ¬ sink.GoneBy p.writes p.now) (token : ∀ c ∈ p.cancelledAt, m < c)
    (consumer : ∀ c ∈ sink.goneAt, m < c) :
    ReadSees sink (p.standing asks) due (.ready m) := by
  refine .ready ⟨begun, .inr (.inr set), ?_⟩ ?_ ?_
  · exact quiet_until present (fun c token' => Nat.le_of_lt (token c token'))
      (fun c consumer' => Nat.le_of_lt (consumer c consumer')) (by simp [set])
  · rintro ⟨c, token', passed⟩
    exact absurd (token c token') (Nat.not_lt.mpr passed)
  · intro gone
    obtain ⟨c, consumer', passed⟩ := exists_goneAt present gone
    exact absurd (consumer c consumer') (Nat.not_lt.mpr passed)

theorem sees_never (token : p.cancelledAt = none) (consumer : sink.goneAt = none)
    (present : ¬ sink.GoneBy p.writes p.now) : ReadSees sink (p.standing asks) none .never := by
  apply ReadSees.never
  intro m begun
  exact quiet_until (m := m + 1) present (by simp [token]) (by simp [consumer]) (by simp) m begun
    (Nat.lt_succ_self m)

/-- What is waited for from some progress is the first thing that comes. -/
theorem awaitRead_sees (sink : Sink) (p : Progress) (asks : Ask) (wait : Option Nat) :
    ReadSees sink (p.standing asks) (wait.map (p.now + ·)) (awaitRead sink p wait) := by
  have due : ∀ m, wait.map (p.now + ·) = some m → p.now ≤ m := by
    intro m set
    obtain ⟨w, -, rfl⟩ := Option.map_eq_some_iff.mp set
    exact Nat.le_add_right p.now w
  rw [awaitRead]
  generalize wait.map (p.now + ·) = ready at due
  split
  · next cancelled =>
      have cancelled := (isCancelled_iff asks).mp cancelled
      exact .cancelled (.at_once (.inl cancelled)) cancelled
  next free =>
  split
  · next gone =>
      have gone := isGone_iff.mp gone
      exact .gone (.at_once (.inr (.inl gone))) (mt (isCancelled_iff asks).mpr free) gone
  next present =>
  have present := mt isGone_iff.mpr present
  have token : ∀ c ∈ p.cancelledAt, p.now < c := fun c set =>
    Nat.lt_of_not_le fun passed => free ((isCancelled_iff asks).mpr ⟨c, set, passed⟩)
  have consumer : ∀ c ∈ sink.goneAt, p.now < c := fun c set =>
    Nat.lt_of_not_le fun passed => present (.inr ⟨c, set, passed⟩)
  simp only [Bool.and_eq_true, noLater_iff]
  -- All three are still to come, if they come: the earliest decides, and of equal ones the first of
  -- the three.
  split
  · next soonest =>
      obtain ⟨⟨c, set, leaves⟩, ⟨_, same, comes⟩⟩ := soonest
      cases set.symm.trans same
      rw [set]
      exact sees_cancelled set (Nat.le_of_lt (token c set)) present leaves comes
  next others =>
  have sooner {m : Nat} (left : ∀ c ∈ sink.goneAt, m ≤ c) (read : ∀ c ∈ ready, m ≤ c) :
      ∀ c ∈ p.cancelledAt, m < c := by
    intro c set
    apply Nat.lt_of_not_le
    intro before
    exact others ⟨⟨c, set, fun k at' => Nat.le_trans before (left k at')⟩, c, set,
      fun k at' => Nat.le_trans before (read k at')⟩
  split
  · next soonest =>
      obtain ⟨c, set, comes⟩ := soonest
      rw [set]
      exact sees_gone set (Nat.le_of_lt (consumer c set)) present
        (sooner (by simp [set]) comes) comes
  next others' =>
  cases ready with
  | some m =>
      have left : ∀ c ∈ sink.goneAt, m < c := fun c set =>
        Nat.lt_of_not_le fun before => others' ⟨c, set, fun k at' => by cases at'; exact before⟩
      have token := sooner (fun c set => Nat.le_of_lt (left c set)) fun c at' => by
        cases at'
        exact Nat.le_refl m
      exact sees_ready rfl (due m rfl) present token left
  | none =>
      have left : sink.goneAt = none := by
        rw [Option.eq_none_iff_forall_ne_some]
        exact fun c set => others' ⟨c, set, nofun⟩
      have token : p.cancelledAt = none := by
        rw [Option.eq_none_iff_forall_ne_some]
        exact fun c set => others ⟨⟨c, set, by simp [left]⟩, c, set, nofun⟩
      exact sees_never token left present

/-- The token is found cancelled at the first of the moments from now on at which it is. -/
theorem first_cancelled {c : Nat} (set : p.cancelledAt = some c) :
    First (p.standing asks).CancelledBy p.now (max p.now (p.cancelledAt.getD p.now)) := by
  rw [set]
  refine ⟨Nat.le_max_left .., ⟨c, set, Nat.le_max_right ..⟩, ?_⟩
  rintro k begun before ⟨a, set', passed⟩
  cases set.symm.trans set'
  exact absurd before (Nat.not_lt.mpr (Nat.max_le.mpr ⟨begun, passed⟩))

/-- A reply that takes time is interrupted if the token is cancelled by the time it is there. -/
theorem interrupted_iff {wait : Nat} :
    (decide (wait ≠ 0) && passed p.cancelledAt (p.now + wait)) = true ↔
    ¬ (wait = 0 ∨ ¬ (p.standing asks).CancelledBy (p.now + wait)) := by
  rw [Bool.and_eq_true, decide_eq_true_eq, passed_iff, not_or, Classical.not_not]
  rfl

theorem sees_interrupted {reply : Reply} {wait : Nat}
    (only : ∀ w, reply = .accepts w ∨ reply = .refuses w → w = wait)
    (interrupted : ¬ (wait = 0 ∨ ¬ (p.standing asks).CancelledBy (p.now + wait))) :
    DeliverySees (p.standing asks) reply (.cancelled (max p.now (p.cancelledAt.getD p.now))) := by
  rw [not_or, Classical.not_not] at interrupted
  obtain ⟨long, c, set, passed⟩ := interrupted
  refine .cancelled (first_cancelled set) ?_
  intro w replied
  obtain rfl := only w replied
  have set : p.cancelledAt = some c := set
  rw [set]
  exact ⟨long, Nat.max_le.mpr ⟨Nat.le_add_right p.now w, passed⟩⟩

/-- What is waited for from some progress is the reply, unless the token is found cancelled
first. -/
theorem awaitReply_sees (p : Progress) (asks : Ask) (reply : Reply) :
    DeliverySees (p.standing asks) reply (awaitReply p reply) := by
  cases reply with
  | accepts wait =>
      rw [awaitReply]
      split
      · next interrupted => exact sees_interrupted (by simp) (interrupted_iff.mp interrupted)
      · next free => exact .taken rfl (Classical.not_not.mp (mt interrupted_iff.mpr free))
  | refuses wait =>
      rw [awaitReply]
      split
      · next interrupted => exact sees_interrupted (by simp) (interrupted_iff.mp interrupted)
      · next free => exact .refused rfl (Classical.not_not.mp (mt interrupted_iff.mpr free))
  | hangs taken =>
      rw [awaitReply]
      split
      · next settled =>
          obtain ⟨c, set⟩ := Option.isSome_iff_exists.mp settled
          exact .cancelled (first_cancelled set) (by simp)
      · next free =>
          refine .never rfl ?_
          rintro m ⟨c, set, -⟩
          exact free (Option.isSome_iff_exists.mpr ⟨c, set⟩)

end Waits

/-! ### The observations of a run -/

section Runs

variable {sink : Sink} {script : Script} {p : Progress} {asks : Ask} {reads : List Piece}
    {events : List Event}
variable {report : Report}

theorem Script.waitFor_of_drop {r : Piece} (rest : script.reads.drop p.writes = r :: reads) :
    script.waitFor p.writes = some r.wait := by
  have next : script.reads[p.writes]? = some r := by rw [← List.head?_drop, rest, List.head?_cons]
  rw [Script.waitFor, next]

theorem Script.brings_of_drop {r : Piece} (rest : script.reads.drop p.writes = r :: reads) :
    script.brings p.writes = .bytes r.bytes := by
  have next : script.reads[p.writes]? = some r := by rw [← List.head?_drop, rest, List.head?_cons]
  rw [Script.brings, next]

theorem Script.waitFor_of_end (rest : script.reads.drop p.writes = []) :
    script.waitFor p.writes = if script.ending = .silent then none else some script.wait := by
  rw [Script.waitFor, List.getElem?_eq_none (List.drop_eq_nil_iff.mp rest)]

theorem observes_read {wait : Option Nat} {came : ReadEvent}
    (waits : script.waitFor p.writes = wait) (read : awaitRead sink p wait = came) :
    Observes script sink (p.standing .read) (.read came) := by
  subst waits read
  exact .read rfl (awaitRead_sees sink p .read (script.waitFor p.writes))

/-- The look at the token before a write. -/
theorem isCancelled_arrive_iff {m : Nat} : (p.arrive sink m).isCancelled = true ↔
    ((p.arrive sink m).standing .write).CancelledBy ((p.arrive sink m).standing .write).now :=
  isCancelled_iff .write

theorem observes_withheld {r : Piece} {m : Nat} (rest : script.reads.drop p.writes = r :: reads)
    (found : (p.arrive sink m).isCancelled = true) :
    Observes script sink ((p.arrive sink m).standing .write) (.withheld m) :=
  .withheld rfl (isCancelled_arrive_iff.mp found) (Script.brings_of_drop rest)

theorem observes_write {r : Piece} {m : Nat} {came : Delivery}
    (rest : script.reads.drop p.writes = r :: reads) (free : (p.arrive sink m).isCancelled = false)
    (written : writing sink (p.arrive sink m) r.bytes = came) :
    Observes script sink ((p.arrive sink m).standing .write)
      (.write (p.writes + 1) r.bytes came) := by
  subst written
  refine .write rfl ?_ (Script.brings_of_drop rest)
    (awaitReply_sees (makeWrite sink (p.arrive sink m) r.bytes) .write (sink.write (p.writes + 1)))
  rw [← isCancelled_arrive_iff, free]
  exact Bool.false_ne_true

theorem observes_flush {came : Delivery} (even : p.flushes = p.writes)
    (flushed : flushing sink p = came) :
    Observes script sink (p.standing .flush) (.flush p.flushes came) := by
  subst flushed
  rw [flushing, even]
  exact .flush rfl (awaitReply_sees p .flush (sink.flush p.writes))

/-- Every event of a run is the one to be observed from the standing before it. -/
theorem Run.observes (run : Run sink script.wait script.ending p reads events report)
    (rest : script.reads.drop p.writes = reads) (even : p.flushes = p.writes) :
    ∀ x ∈ story sink (p.standing .read) events, Observes script sink x.1 x.2 := by
  induction run with
  | ended read | parted read =>
      simp only [story, List.forall_mem_singleton]
      exact observes_read (Script.waitFor_of_end rest) read
  | barred read =>
      simp only [story, List.forall_mem_singleton]
      exact observes_read (Script.waitFor_of_drop rest) read
  | withheld read found =>
      simp only [story, List.forall_mem_cons]
      exact ⟨observes_read (Script.waitFor_of_drop rest) read, observes_withheld rest found,
        by simp⟩
  | unwritten read free written =>
      simp only [story, List.forall_mem_cons]
      refine ⟨observes_read (Script.waitFor_of_drop rest) read, observes_write rest free written,
        by simp⟩
  | unflushed read free written flushed =>
      simp only [story, List.forall_mem_cons]
      refine ⟨observes_read (Script.waitFor_of_drop rest) read, observes_write rest free written,
        ?_, by simp⟩
      exact observes_flush (by simp [even]) flushed
  | round read free written flushed later ih =>
      simp only [story, List.forall_mem_cons]
      refine ⟨observes_read (Script.waitFor_of_drop rest) read, observes_write rest free written,
        ?_, ?_⟩
      · exact observes_flush (by simp [even]) flushed
      · apply ih
        · rw [Progress.counting_writes, Progress.askFlush_writes, makeWrite_writes,
            Progress.arrive_writes, ← List.drop_drop, rest, List.drop_one, List.tail_cons]
        · simp [even]

end Runs

end FleetBoard.Relay

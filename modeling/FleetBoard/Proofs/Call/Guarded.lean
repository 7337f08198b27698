import FleetBoard.Call.Feed
import FleetBoard.Proofs.Call.Endings

/-!
# What a guarded feed yields

A feed that is left to itself brings its items at moments of its own, each asked for as soon as the
one before is there (`brings?`), and may close after the last (`closes?`). A guard passes on the
items that are there while the call lives. As long as all of them are, reading on from a guarded
feed is reading on from the feed (`readGuarded_add`); the first request that is not answered in time
ends the reading, in one of three ways, and none is made after it. Every limit to the number of
requests is met by one of these cases (`exists_yields`).
-/

namespace FleetBoard

/-- The same reading behind some items that have been read before. -/
def Reading.prepend {α : Type} (items : List (Timed α)) (r : Reading α) : Reading α :=
  { r with items := items ++ r.items }

namespace Feed

section Source

variable {α : Type} (feed : Feed α) (start : Nat)

/-- The moment of a request, if each one is made as soon as the item before is there. -/
def askedAt : Nat → Option Nat
  | 0 => some start
  | n + 1 => (askedAt n).bind fun m =>
      match feed.pull n with
      | .item wait _ => some (m + wait)
      | _ => none

def brings? (n : Nat) : Option (Timed α) :=
  (feed.askedAt start n).bind fun m =>
    match feed.pull n with
    | .item wait x => some ⟨m + wait, x⟩
    | _ => none

/-- The moment at which a request is answered with the end of the feed. -/
def closes? (n : Nat) : Option Nat :=
  (feed.askedAt start n).bind fun m =>
    match feed.pull n with
    | .closed wait => some (m + wait)
    | _ => none

def firstItems (count : Nat) : List (Timed α) := (List.range count).filterMap (feed.brings? start)

variable {feed start} {n m : Nat}

theorem askedAt_succ_of_brings {t : Timed α} (brings : feed.brings? start n = some t) :
    feed.askedAt start (n + 1) = some t.moment := by
  obtain ⟨m, asked, answered⟩ := Option.bind_eq_some_iff.mp brings
  split at answered
  · next wait x pulled =>
      cases answered
      rw [askedAt, asked, Option.bind_some, pulled]
  · cases answered

theorem brings?_of_item {wait : Nat} {x : α} (asked : feed.askedAt start n = some m)
    (pulled : feed.pull n = .item wait x) : feed.brings? start n = some ⟨m + wait, x⟩ := by
  rw [brings?, asked, Option.bind_some, pulled]

theorem closes?_of_closed {wait : Nat} (asked : feed.askedAt start n = some m)
    (pulled : feed.pull n = .closed wait) : feed.closes? start n = some (m + wait) := by
  rw [closes?, asked, Option.bind_some, pulled]

theorem exists_item_of_brings {t : Timed α} (asked : feed.askedAt start n = some m)
    (brings : feed.brings? start n = some t) :
    ∃ wait, feed.pull n = .item wait t.value ∧ m + wait = t.moment := by
  rw [brings?, asked, Option.bind_some] at brings
  split at brings
  · next pulled =>
      cases brings
      exact ⟨_, pulled, rfl⟩
  · cases brings

theorem exists_closed_of_closes {closing : Nat} (asked : feed.askedAt start n = some m)
    (closes : feed.closes? start n = some closing) :
    ∃ wait, feed.pull n = .closed wait ∧ m + wait = closing := by
  rw [closes?, asked, Option.bind_some] at closes
  split at closes
  · next pulled => exact ⟨_, pulled, Option.some.inj closes⟩
  · cases closes

theorem firstItems_succ {t : Timed α} (brings : feed.brings? start n = some t) :
    feed.firstItems start (n + 1) = feed.firstItems start n ++ [t] := by
  rw [firstItems, List.range_succ, List.filterMap_append, List.filterMap_cons_some brings]
  rfl

end Source

variable {α : Type} {life : Lifetime} {feed : Feed (Except EngineError α)} {start now m : Nat}
  {limit position count : Nat}

/-! ### One request -/

theorem readGuarded_item {wait : Nat} {x : Except EngineError α}
    (pulled : feed.pull position = .item wait x) (lives : life.isEnded (now + wait) = false) :
    feed.readGuarded life (limit + 1) position now =
      (feed.readGuarded life limit (position + 1) (now + wait)).cons ⟨now + wait, x⟩ := by
  rw [readGuarded, pulled]
  dsimp only
  rw [Lifetime.await_of_live lives]

theorem readGuarded_closed {wait : Nat} (pulled : feed.pull position = .closed wait)
    (lives : life.isEnded (now + wait) = false) :
    feed.readGuarded life (limit + 1) position now = ⟨[], now + wait, .closed⟩ := by
  rw [readGuarded, pulled]
  dsimp only
  rw [Lifetime.await_of_live lives]

theorem readGuarded_silent (pulled : feed.pull position = .silent) (unending : life.endsAt = none) :
    feed.readGuarded life (limit + 1) position now = ⟨[], now, .silent⟩ := by
  rw [readGuarded, pulled]
  dsimp only
  rw [Lifetime.await_of_unending unending]

/-- A request that is not answered while the call lives is answered with the reason for its end. -/
theorem readGuarded_cut {ending : Nat} (ends : life.endsAt = some ending)
    (lateItem : ∀ wait x, feed.pull position = .item wait x → life.isEnded (now + wait) = true)
    (lateClose : ∀ wait, feed.pull position = .closed wait → life.isEnded (now + wait) = true) :
    feed.readGuarded life (limit + 1) position now =
      ⟨[⟨max now ending, .error (life.error (max now ending))⟩], max now ending, .closed⟩ := by
  rw [readGuarded]
  cases pulled : feed.pull position with
  | item wait x =>
      dsimp only
      rw [Lifetime.await_of_ended ends fun _ same => by
        cases same
        exact lateItem wait x pulled]
  | closed wait =>
      dsimp only
      rw [Lifetime.await_of_ended ends fun _ same => by
        cases same
        exact lateClose wait pulled]
  | silent =>
      dsimp only
      rw [Lifetime.await_of_ended ends fun _ same => by cases same]

/-- Under a call that has ended the feed is not even looked at. -/
theorem readGuarded_of_ended (ended : life.isEnded now = true) :
    feed.readGuarded life (limit + 1) position now =
      ⟨[⟨now, .error (life.error now)⟩], now, .closed⟩ := by
  obtain ⟨ending, ends, past⟩ := Lifetime.isEnded_iff.mp ended
  have later : ∀ wait, life.isEnded (now + wait) = true :=
    fun wait => Lifetime.isEnded_mono ended (Nat.le_add_right now wait)
  rw [readGuarded_cut ends (fun wait _ _ => later wait) (fun wait _ => later wait),
    Nat.max_eq_left past]

/-! ### Items in time -/

/-- The first items are there while the call lives. The moment at which it ends is too late. -/
def Punctual (life : Lifetime) (feed : Feed α) (start count : Nat) : Prop :=
  ∀ n < count, ∃ t, feed.brings? start n = some t ∧ life.isEnded t.moment = false

theorem Punctual.asked {feed : Feed α} (punctual : Punctual life feed start count) :
    ∃ m, feed.askedAt start count = some m := by
  cases count with
  | zero => exact ⟨start, rfl⟩
  | succ count =>
      obtain ⟨t, brings, -⟩ := punctual count (Nat.lt_succ_self count)
      exact ⟨t.moment, askedAt_succ_of_brings brings⟩

/-- Items that are in time are read as they come, and then the reading goes on. -/
theorem readGuarded_add (punctual : Punctual life feed start count)
    (asked : feed.askedAt start count = some m) (limit : Nat) :
    feed.readGuarded life (count + limit) 0 start =
      (feed.readGuarded life limit count m).prepend (feed.firstItems start count) := by
  induction count generalizing m limit with
  | zero =>
      cases asked
      rw [Nat.zero_add]
      rfl
  | succ count ih =>
      obtain ⟨t, brings, lives⟩ := punctual count (Nat.lt_succ_self count)
      have before : Punctual life feed start count :=
        fun n few => punctual n (Nat.lt_succ_of_lt few)
      obtain ⟨k, askedBefore⟩ := before.asked
      obtain ⟨wait, pulled, there⟩ := exists_item_of_brings askedBefore brings
      obtain rfl : m = t.moment :=
        Option.some.inj (asked.symm.trans (askedAt_succ_of_brings brings))
      have inTime : life.isEnded (k + wait) = false := there ▸ lives
      rw [Nat.succ_add_eq_add_succ, ih before askedBefore, readGuarded_item pulled inTime, there,
        firstItems_succ brings]
      simp [Reading.prepend, Reading.cons]

/-! ### Whole readings -/

/-- What is read of a guarded feed up to a number of requests. -/
inductive Yields (life : Lifetime) (feed : Feed (Except EngineError α)) (start limit : Nat) :
    Reading (Except EngineError α) → Prop
  /-- All items that are asked for are in time. -/
  | more {m : Nat} (punctual : Punctual life feed start limit)
      (asked : feed.askedAt start limit = some m) :
    Yields life feed start limit ⟨feed.firstItems start limit, m, .more⟩
  /-- The feed closes while the call lives. -/
  | closed {count closing : Nat} (few : count < limit) (punctual : Punctual life feed start count)
      (closes : feed.closes? start count = some closing) (lives : life.isEnded closing = false) :
    Yields life feed start limit ⟨feed.firstItems start count, closing, .closed⟩
  /-- The call ends before the next item is there and before the feed closes. The reason is the last
  item. -/
  | cut {count m ending : Nat} (few : count < limit) (punctual : Punctual life feed start count)
      (asked : feed.askedAt start count = some m) (ends : life.endsAt = some ending)
      (lateItem : ∀ t, feed.brings? start count = some t → life.isEnded t.moment = true)
      (lateClose : ∀ closing, feed.closes? start count = some closing →
        life.isEnded closing = true) :
    Yields life feed start limit
      ⟨feed.firstItems start count ++ [⟨max m ending, .error (life.error (max m ending))⟩],
        max m ending, .closed⟩
  /-- The feed falls silent, and the call never ends. -/
  | silent {count m : Nat} (few : count < limit) (punctual : Punctual life feed start count)
      (asked : feed.askedAt start count = some m) (nothing : feed.pull count = .silent)
      (unending : life.endsAt = none) :
    Yields life feed start limit ⟨feed.firstItems start count, m, .silent⟩

theorem Yields.eq_readGuarded {r : Reading (Except EngineError α)}
    (yields : Yields life feed start limit r) :
    r = feed.readGuarded life limit 0 start := by
  -- All but the first request that is not answered in time are covered by `readGuarded_add`.
  have upTo : ∀ {count m : Nat}, count < limit → Punctual life feed start count →
      feed.askedAt start count = some m → ∃ rest, feed.readGuarded life limit 0 start =
        (feed.readGuarded life (rest + 1) count m).prepend (feed.firstItems start count) := by
    intro count m few punctual asked
    refine ⟨limit - count - 1, ?_⟩
    rw [← readGuarded_add punctual asked]
    congr 1
    omega
  cases yields with
  | more punctual asked =>
      have whole := readGuarded_add punctual asked 0
      rw [Nat.add_zero] at whole
      rw [whole, readGuarded, Reading.prepend, List.append_nil]
  | closed few punctual closes lives =>
      obtain ⟨m, asked⟩ := punctual.asked
      obtain ⟨rest, whole⟩ := upTo few punctual asked
      obtain ⟨wait, pulled, rfl⟩ := exists_closed_of_closes asked closes
      rw [whole, readGuarded_closed pulled lives, Reading.prepend, List.append_nil]
  | cut few punctual asked ends lateItem lateClose =>
      obtain ⟨rest, whole⟩ := upTo few punctual asked
      rw [whole, readGuarded_cut ends
        (fun wait x pulled => lateItem _ (brings?_of_item asked pulled))
        (fun wait pulled => lateClose _ (closes?_of_closed asked pulled)), Reading.prepend]
  | silent few punctual asked nothing unending =>
      obtain ⟨rest, whole⟩ := upTo few punctual asked
      rw [whole, readGuarded_silent nothing unending, Reading.prepend, List.append_nil]

/-- Either all items that are asked for are in time, or one of them is the first that is not. -/
theorem punctual_or_first (life : Lifetime) (feed : Feed α) (start limit : Nat) :
    Punctual life feed start limit ∨
      ∃ count < limit, Punctual life feed start count ∧
        ∀ t, feed.brings? start count = some t → life.isEnded t.moment = true := by
  induction limit with
  | zero => exact .inl fun n few => absurd few (Nat.not_lt_zero n)
  | succ limit ih =>
      rcases ih with punctual | ⟨count, few, first⟩
      · by_cases next : ∃ t, feed.brings? start limit = some t ∧ life.isEnded t.moment = false
        · left
          intro n few
          rcases Nat.lt_succ_iff_lt_or_eq.mp few with before | rfl
          · exact punctual n before
          · exact next
        · refine .inr ⟨limit, Nat.lt_succ_self limit, punctual, ?_⟩
          intro t brings
          by_contra lives
          exact next ⟨t, brings, by simpa using lives⟩
      · exact .inr ⟨count, Nat.lt_succ_of_lt few, first⟩

/-- Whatever feed is read under whatever lifetime, there is something that is read of it. -/
theorem exists_yields (life : Lifetime) (feed : Feed (Except EngineError α)) (start limit : Nat) :
    ∃ r, Yields life feed start limit r := by
  rcases punctual_or_first life feed start limit with punctual | ⟨count, few, punctual, lateItem⟩
  · obtain ⟨m, asked⟩ := punctual.asked
    exact ⟨_, .more punctual asked⟩
  · obtain ⟨m, asked⟩ := punctual.asked
    by_cases closes : ∃ closing, feed.closes? start count = some closing ∧
      life.isEnded closing = false
    · obtain ⟨closing, closes, lives⟩ := closes
      exact ⟨_, .closed few punctual closes lives⟩
    · have lateClose : ∀ closing, feed.closes? start count = some closing →
          life.isEnded closing = true := by
        intro closing same
        by_contra lives
        exact closes ⟨closing, same, by simpa using lives⟩
      cases ends : life.endsAt with
      | some ending => exact ⟨_, .cut few punctual asked ends lateItem lateClose⟩
      | none =>
          have lives := Lifetime.isEnded_of_unending ends
          cases pulled : feed.pull count with
          | item wait x =>
              exact absurd (lateItem _ (brings?_of_item asked pulled)) (by simp [lives])
          | closed wait =>
              exact absurd (lateClose _ (closes?_of_closed asked pulled)) (by simp [lives])
          | silent => exact ⟨_, .silent few punctual asked pulled ends⟩

/-! ### Bounds -/

/-- What a feed says about its items is true: it has no more of them within a time. -/
def Bounded (feed : Feed α) : Prop :=
  ∀ start count m time, feed.askedAt start count = some m → m ≤ start + time →
    count ≤ feed.within time

/-- A request is made after all requests before it have been answered with items. -/
theorem exists_item_of_asked {feed : Feed α} {earlier : Nat}
    (asked : feed.askedAt start count = some m) (before : earlier < count) :
    ∃ wait x, feed.pull earlier = .item wait x := by
  induction count generalizing m with
  | zero => exact absurd before (Nat.not_lt_zero earlier)
  | succ count ih =>
      obtain ⟨n, last, answered⟩ := Option.bind_eq_some_iff.mp asked
      rcases Nat.lt_succ_iff_lt_or_eq.mp before with sooner | rfl
      · exact ih last sooner
      · split at answered
        · next wait x pulled => exact ⟨wait, x, pulled⟩
        · cases answered

theorem bounded_ofList {items : List (Nat × α)} {last : Pull α}
    (final : ∀ wait x, last ≠ .item wait x) :
    (ofList items last).Bounded := by
  intro start count m time asked _
  by_contra many
  obtain ⟨wait, x, pulled⟩ := exists_item_of_asked asked (Nat.lt_of_not_le many)
  apply final wait x
  simpa [ofList] using pulled

/-- A feed that knows its bounds is read to its end by a call that ends. -/
theorem Bounded.ending_readAll (bounded : feed.Bounded) {ending : Nat}
    (ends : life.endsAt = some ending) (now : Nat) : (feed.readAll life now).ending = .closed := by
  have limit : feed.enough life now = feed.within (ending - now) + 2 := by
    rw [enough, ends, Option.getD_some]
  obtain ⟨r, yields⟩ := exists_yields life feed now (feed.enough life now)
  rw [readAll, ← yields.eq_readGuarded]
  cases yields with
  | closed | cut => rfl
  | silent _ _ _ _ unending => exact absurd (ends.symm.trans unending) nofun
  | more punctual _ =>
      -- One request more than the feed has items until the end of the call has been answered in
      -- time.
      obtain ⟨t, brings, lives⟩ := punctual (feed.within (ending - now) + 1) (by omega)
      obtain ⟨m, asked, -⟩ := Option.bind_eq_some_iff.mp brings
      obtain ⟨wait, -, there⟩ := exists_item_of_brings asked brings
      have early : ¬ ending ≤ t.moment := by
        rw [← Lifetime.isEnded_of_endsAt ends, lives]
        exact Bool.false_ne_true
      have few := bounded now _ m (ending - now) asked (by omega)
      omega

/-! ### Requests -/

/-- Feeds that answer alike the requests that are made while the call lives are read alike. -/
theorem readGuarded_congr {other : Feed (Except EngineError α)}
    (alike : ∀ n m, feed.askedAt start n = some m → life.isEnded m = false →
      other.pull n = feed.pull n)
    (asked : feed.askedAt start position = some m) (limit : Nat) :
    other.readGuarded life limit position m = feed.readGuarded life limit position m := by
  induction limit generalizing position m with
  | zero => rfl
  | succ limit ih =>
      cases ended : life.isEnded m with
      | true => rw [readGuarded_of_ended ended, readGuarded_of_ended ended]
      | false =>
          have same := alike position m asked ended
          cases pulled : feed.pull position with
          | item wait x =>
              cases late : life.isEnded (m + wait) with
              | false =>
                  have next := askedAt_succ_of_brings (brings?_of_item asked pulled)
                  rw [readGuarded_item pulled late, readGuarded_item (same.trans pulled) late,
                    ih next]
              | true =>
                  obtain ⟨ending, ends, -⟩ := Lifetime.isEnded_iff.mp late
                  have cut : ∀ f : Feed (Except EngineError α), f.pull position = .item wait x →
                      f.readGuarded life (limit + 1) position m =
                        ⟨[⟨max m ending, .error (life.error (max m ending))⟩], max m ending,
                          .closed⟩ := by
                    intro f here
                    refine readGuarded_cut ends ?_ ?_
                    · intro wait' x' there
                      cases here.symm.trans there
                      exact late
                    · intro wait' there
                      cases here.symm.trans there
                  rw [cut feed pulled, cut other (same.trans pulled)]
          | closed wait => rw [readGuarded, readGuarded, same, pulled]
          | silent => rw [readGuarded, readGuarded, same, pulled]

/-- What a reader gets of a feed that is guarded from a moment on. -/
structure Guards (life : Lifetime) (feed : Feed (Except EngineError α)) (start : Nat) : Prop where
  yields : ∀ limit r, Yields life feed start limit r ↔ r = feed.readGuarded life limit 0 start
  tie : ∀ limit count t, count < limit → Punctual life feed start count →
    feed.brings? start count = some t → life.endsAt = some t.moment →
    (feed.readGuarded life limit 0 start).items =
      feed.firstItems start count ++ [⟨t.moment, .error (life.error t.moment)⟩]
  ended : life.isEnded start = true → ∀ limit, 0 < limit →
    feed.readGuarded life limit 0 start = ⟨[⟨start, .error (life.error start)⟩], start, .closed⟩
  /-- Another feed that differs only in what it is never asked for makes no difference. -/
  unasked : ∀ other : Feed (Except EngineError α),
    (∀ n m, feed.askedAt start n = some m → life.isEnded m = false → other.pull n = feed.pull n) →
    ∀ limit, other.readGuarded life limit 0 start = feed.readGuarded life limit 0 start

/-- Whatever a feed does and whenever a call ends, up to any number of requests the guarded feed
yields just what `Yields` says: the items that are there while the call lives, as they are and in
their order; then its end, if the feed closes while the call lives, or the reason for the end of the
call and nothing more. What is there at the very moment at which the call ends is late. Under a call
that has ended before there is only the reason. No request is made once the call has ended, so what
the feed would answer to it makes no difference. -/
theorem guarded_yields (life : Lifetime) (feed : Feed (Except EngineError α)) (start : Nat) :
    Guards life feed start := by
  refine { yields := ?_, tie := ?_, ended := ?_, unasked := ?_ }
  · intro limit r
    refine ⟨Yields.eq_readGuarded, ?_⟩
    rintro rfl
    obtain ⟨r, yields⟩ := exists_yields life feed start limit
    exact yields.eq_readGuarded ▸ yields
  · intro limit count t few punctual brings ends
    obtain ⟨m, asked⟩ := punctual.asked
    obtain ⟨wait, pulled, there⟩ := exists_item_of_brings asked brings
    have late : life.isEnded t.moment = true :=
      (Lifetime.isEnded_of_endsAt ends).mpr (Nat.le_refl _)
    have cut : Yields life feed start limit _ := .cut few punctual asked ends
      (fun t' same => by
        cases brings.symm.trans same
        exact late)
      (fun closing closes => by
        obtain ⟨wait', closed, -⟩ := exists_closed_of_closes asked closes
        cases pulled.symm.trans closed)
    have inTime : m ≤ t.moment := there ▸ Nat.le_add_right m wait
    rw [← cut.eq_readGuarded, Nat.max_eq_right inTime]
  · intro ended limit positive
    obtain ⟨rest, rfl⟩ := Nat.exists_eq_add_one.mpr positive
    exact readGuarded_of_ended ended
  · intro other alike limit
    exact readGuarded_congr alike rfl limit

/-- An item, a failure, an item at the very moment of the deadline, and others behind it. -/
def untilDeadline : Feed (Except EngineError Nat) :=
  ofList [(2, .ok 7), (1, .error (.api "reset")), (2, .ok 8), (0, .ok 9)] .silent

/-- The failure is passed on as an item is; the item that is there at the deadline is not. -/
theorem guarded_yields_untilDeadline :
    let life : Lifetime := { deadline := some 5 }
    Punctual life untilDeadline 0 2 ∧ untilDeadline.brings? 0 2 = some ⟨5, .ok 8⟩ ∧
      (untilDeadline.readGuarded life 9 0 0).items =
        [⟨2, .ok 7⟩, ⟨3, .error (.api "reset")⟩, ⟨5, .error .deadlineExceeded⟩] := by
  intro life
  have punctual : Punctual life untilDeadline 0 2 := by
    intro n few
    match n, few with
    | 0, _ => exact ⟨⟨2, .ok 7⟩, rfl, rfl⟩
    | 1, _ => exact ⟨⟨3, .error (.api "reset")⟩, rfl, rfl⟩
  have brings : untilDeadline.brings? 0 2 = some ⟨5, .ok 8⟩ := rfl
  have guards := guarded_yields life untilDeadline 0
  exact ⟨punctual, brings, guards.tie 9 2 ⟨5, .ok 8⟩ (by decide) punctual brings rfl⟩

end Feed

end FleetBoard

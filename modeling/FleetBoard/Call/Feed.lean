import FleetBoard.Call.Lifetime

/-!
# Feeds

A feed answers one request after the other, each after a wait of its own, and may close, fall silent
or go on for ever. A feed that is guarded by a lifetime gives what is there before the call ends,
then one error that says why the call ended, and then closes.
-/

namespace FleetBoard

/-- The answer of a feed to a request. -/
inductive Pull (α : Type) where
  | item (wait : Nat) (x : α)
  /-- There is no more. -/
  | closed (wait : Nat := 0)
  /-- No answer ever comes. -/
  | silent
  deriving DecidableEq, Repr

/-- A sequence of answers, each timed from its request. -/
structure Feed (α : Type) where
  /-- The answer to the request with this number, counted from 0. -/
  pull : Nat → Pull α
  /-- A number of requests that is not exceeded by the items that are there within a time. -/
  within : Nat → Nat

/-- How the reading of a feed ended. -/
inductive FeedEnd where
  /-- As many items were read as had been asked for. -/
  | more
  | closed
  /-- The next item never comes. -/
  | silent
  deriving DecidableEq, Repr

/-- What has been read of a feed, and when the reading ended. -/
structure Reading (α : Type) where
  items : List (Timed α)
  moment : Nat
  ending : FeedEnd

def Reading.cons (t : Timed α) (r : Reading α) : Reading α := { r with items := t :: r.items }

namespace Feed

/-- The feed of a list of items with their waits, and of what comes after them. -/
def ofList (items : List (Nat × α)) (last : Pull α) : Feed α where
  pull n := match items[n]? with
    | some (wait, x) => .item wait x
    | none => last
  within _ := items.length

/-- Reads up to `limit` items from a position on, each asked for as soon as the one before is
there. -/
def readGuarded (life : Lifetime) (feed : Feed (Except EngineError α)) :
    (limit position now : Nat) → Reading (Except EngineError α)
  | 0, _, now => ⟨[], now, .more⟩
  | limit + 1, position, now =>
    match feed.pull position with
    | .item wait x =>
      match life.await now (some wait) with
      | .ready m => (feed.readGuarded life limit (position + 1) m).cons ⟨m, x⟩
      | .ended m => ⟨[⟨m, .error (life.error m)⟩], m, .closed⟩
      | .never => ⟨[], now, .silent⟩
    | .closed wait =>
      match life.await now (some wait) with
      | .ready m => ⟨[], m, .closed⟩
      | .ended m => ⟨[⟨m, .error (life.error m)⟩], m, .closed⟩
      | .never => ⟨[], now, .silent⟩
    | .silent =>
      match life.await now none with
      | .ready m => ⟨[], m, .closed⟩
      | .ended m => ⟨[⟨m, .error (life.error m)⟩], m, .closed⟩
      | .never => ⟨[], now, .silent⟩

/-- A number of requests after which a guarded feed has been read to its end. -/
def enough (life : Lifetime) (feed : Feed α) (now : Nat) : Nat :=
  feed.within ((life.endsAt.getD now) - now) + 2

/-- Reads a guarded feed to its end. -/
def readAll (life : Lifetime) (feed : Feed (Except EngineError α)) (now : Nat) :
    Reading (Except EngineError α) :=
  feed.readGuarded life (feed.enough life now) 0 now

end Feed

end FleetBoard

import FleetBoard.Engine.Error

/-!
# The lifetime of a call

Time is counted in milliseconds. A call lives until it is cancelled or its deadline comes, whichever
is first. Work that would be done at the very moment at which its call ends is not done.
-/

namespace FleetBoard

/-- A value and the moment at which it is there. -/
structure Timed (α : Type) where
  moment : Nat
  value : α
  deriving DecidableEq, Repr

/-- Work that an engine has been asked to do: how long it takes, if it ever ends, and what comes of
it. -/
structure Work (α : Type) where
  takes : Option Nat
  result : Except EngineError α

/-- When a call ends by itself. -/
structure Lifetime where
  cancelledAt : Option Nat := none
  deadline : Option Nat := none
  deriving DecidableEq, Repr

/-- What happens first while a call waits for something. -/
inductive Awaited where
  /-- It is there. -/
  | ready (moment : Nat)
  /-- The call ends. -/
  | ended (moment : Nat)
  /-- Nothing ever happens. -/
  | never
  deriving DecidableEq, Repr

def passed (moment : Option Nat) (now : Nat) : Bool :=
  match moment with
  | some m => m ≤ now
  | none => false

def earlier : Option Nat → Option Nat → Option Nat
  | some a, some b => some (min a b)
  | some a, none => some a
  | none, b => b

namespace Lifetime

def endsAt (life : Lifetime) : Option Nat := earlier life.cancelledAt life.deadline

def isEnded (life : Lifetime) (now : Nat) : Bool :=
  passed life.cancelledAt now || passed life.deadline now

def error (life : Lifetime) (now : Nat) : EngineError :=
  if !passed life.cancelledAt now && passed life.deadline now then .deadlineExceeded
  else .cancelled

/-- Waits for something that comes after `wait`, or never. -/
def await (life : Lifetime) (now : Nat) (wait : Option Nat) : Awaited :=
  if life.isEnded now then .ended now
  else match life.endsAt, wait with
    | none, none => .never
    | none, some w => .ready (now + w)
    | some e, none => .ended e
    | some e, some w => if e ≤ now + w then .ended e else .ready (now + w)

/-- Lets work be done while the call lives. There is no answer if neither the work nor the call
ends. -/
def run (life : Lifetime) (now : Nat) (work : Work α) : Option (Timed (Except EngineError α)) :=
  match life.await now work.takes with
  | .ready m => some ⟨m, work.result⟩
  | .ended m => some ⟨m, .error (life.error m)⟩
  | .never => none

end Lifetime

end FleetBoard

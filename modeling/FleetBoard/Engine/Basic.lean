import FleetBoard.Call.Feed
import FleetBoard.Engine.Container
import FleetBoard.Log.Options
import FleetBoard.Usage.Sample

/-!
# Container engines

An engine is anything that can be asked for containers, their logs and their usage. It says what its
answers are and how long they take; `Lifetime.run` and the guard of feeds see to it that no call
outlives its context, for every engine alike.
-/

namespace FleetBoard

/-- The log of a container as an engine gives it. -/
abbrev LogFeed := Feed (Except EngineError Frame)

/-- What engines of a type `ε` can do. -/
class ContainerEngine (ε : Type) where
  /-- The name of this kind of engine. -/
  kind : String
  /-- Its containers: all of them, or those that are running. -/
  list : ε → (all : Bool) → Work (List Container)
  inspect : ε → (id : String) → Work Details
  readLogs : ε → (id : String) → LogOptions → Work LogFeed
  sampleUsage : ε → (id : String) → Work UsageSnapshot
  ping : ε → Work Unit
  /-- The engine after one more request for usage has reached it. -/
  countSample : ε → ε

namespace ContainerEngine

variable {ε : Type} [ContainerEngine ε]

/-- Asks for usage. A call that has ended does not reach the engine. -/
def sampleUnder (life : Lifetime) (now : Nat) (engine : ε) (id : String) :
    ε × Option (Timed (Except EngineError UsageSnapshot)) :=
  (if life.isEnded now then engine else countSample engine,
    life.run now (sampleUsage engine id))

end ContainerEngine

end FleetBoard

import FleetBoard.Engine.Basic
import FleetBoard.Fleet.Error
import FleetBoard.Host.Config

/-!
# Pools of hosts

A pool holds the hosts in the order in which they were registered, and beside them their engines by
name. No name is registered twice.
-/

namespace FleetBoard

/-- Hosts and their engines. -/
structure HostPool (ε : Type) where
  hosts : List HostConfig := []
  engines : List (String × ε) := []

namespace HostPool

variable {ε : Type}

def contains (p : HostPool ε) (name : String) : Bool := p.engines.any fun e => e.1 = name

/-- Registers a host with its engine. -/
def insert (p : HostPool ε) (host : HostConfig) (engine : ε) : Except FleetError (HostPool ε) :=
  if p.contains host.name then .error (.duplicateHost host.name)
  else .ok { hosts := p.hosts ++ [host], engines := (host.name, engine) :: p.engines }

/-- Registers a host in the pool itself: the name is looked up, then the engine is put under it,
then the host is appended. -/
def register (host : HostConfig) (engine : ε) : ExceptT FleetError (StateM (HostPool ε)) Unit := do
  if (← get).contains host.name then throw (.duplicateHost host.name)
  else
    modify fun p => { p with engines := (host.name, engine) :: p.engines }
    modify fun p => { p with hosts := p.hosts ++ [host] }

/-- Registers a host in a pool that is handed over, and hands the pool back with the host in it. -/
def withEngine (p : HostPool ε) (host : HostConfig) (engine : ε) :
    Except FleetError (HostPool ε) :=
  match (register host engine).run.run p with
  | (.ok (), q) => .ok q
  | (.error e, _) => .error e

def find? (p : HostPool ε) (name : String) : Option ε := p.engines.lookup name

def engine (p : HostPool ε) (name : String) : Except FleetError ε :=
  match p.find? name with
  | some e => .ok e
  | none => .error (.unknownHost name)

/-- The hosts by name with their engines, in the order of registration. -/
def toList (p : HostPool ε) : List (String × ε) :=
  p.hosts.filterMap fun h => (p.find? h.name).map fun e => (h.name, e)

def size (p : HostPool ε) : Nat := p.hosts.length

def modify (p : HostPool ε) (name : String) (f : ε → ε) : HostPool ε :=
  { p with engines := p.engines.map fun e => if e.1 = name then (e.1, f e.2) else e }

def describe (p : HostPool ε) : String :=
  let host (h : HostConfig) : String :=
    "HostConfig \x7b name: " ++ Text.quoted h.name ++ ", host: " ++ Text.quoted h.url ++ " \x7d"
  "HostPool \x7b hosts: [" ++ ", ".intercalate (p.hosts.map host) ++ "], .. \x7d"

end HostPool

/-- A call that registers a host with its engine. -/
structure Registration (ε : Type) where
  host : HostConfig
  engine : ε
  /-- Is the pool handed over to the call, or changed in its place? -/
  handedOver : Bool

/-- What a call answers, and the pool that is left. A pool that was handed over is lost with the
call that fails. -/
def Registration.apply {ε : Type} (c : Registration ε) (p : HostPool ε) :
    Except FleetError Unit × Option (HostPool ε) :=
  if c.handedOver then
    match p.withEngine c.host c.engine with
    | .ok q => (.ok (), some q)
    | .error e => (.error e, none)
  else
    match (HostPool.register c.host c.engine).run.run p with
    | (answer, q) => (answer, some q)

end FleetBoard

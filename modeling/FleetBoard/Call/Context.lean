import FleetBoard.Call.Lifetime

/-!
# Call contexts

Every call to an engine has a context: a token, by which it can be cancelled, and perhaps a
deadline. Tokens form a forest; cancelling a token cancels all tokens below it and none above.
Contexts are derived from each other, sharing a token or having one below, and their deadlines only
ever get nearer.
-/

namespace FleetBoard

/-- A token and the token above it. -/
structure Token where
  parent : Option Nat
  cancelled : Bool
  deriving DecidableEq, Repr

/-- Tokens, named by their places. A token stands after the one above it. -/
abbrev TokenForest := List Token

namespace TokenForest

def isCancelled (forest : TokenForest) (token : Nat) : Bool :=
  match forest[token]? with
  | some t => t.cancelled
  | none => false

def addRoot (forest : TokenForest) : TokenForest := forest ++ [⟨none, false⟩]

/-- A new token below another. Below a cancelled token it is cancelled from the start. -/
def addChild (forest : TokenForest) (parent : Nat) : TokenForest :=
  forest ++ [⟨some parent, forest.isCancelled parent⟩]

/-- Marks the tokens in order, those before having been marked already. -/
def cancelFrom (target : Nat) (before : TokenForest) : TokenForest → TokenForest
  | [] => before
  | t :: rest =>
    let above := match t.parent with
      | some p => isCancelled before p
      | none => false
    cancelFrom target
      (before ++ [{ t with cancelled := t.cancelled || above || before.length == target }]) rest

/-- Cancels a token and all tokens below it. -/
def cancel (forest : TokenForest) (target : Nat) : TokenForest := cancelFrom target [] forest

end TokenForest

/-- The context of a call. -/
structure CallContext where
  token : Nat
  deadline : Option Nat := none
  deriving DecidableEq, Repr

namespace CallContext

/-- The same context with a deadline that is no later than before. -/
def withDeadline (c : CallContext) (deadline : Nat) : CallContext :=
  { c with deadline := some (match c.deadline with
    | some d => min d deadline
    | none => deadline) }

/-- The lifetime of a context, as its token stands now. -/
def lifetime (c : CallContext) (forest : TokenForest) (now : Nat) : Lifetime :=
  { cancelledAt := if forest.isCancelled c.token then some now else none
    deadline := c.deadline }

end CallContext

/-- Contexts under names, their tokens and the time. -/
structure ContextTable where
  now : Nat := 0
  tokens : TokenForest := []
  contexts : List (String × CallContext) := []
  deriving DecidableEq, Repr

/-- A way to make, derive, cancel or age contexts. The first name is that of the result. -/
inductive ContextStep where
  /-- A context with a token of its own and no deadline. -/
  | create (name : String)
  /-- A context with a token below another's, and the other's deadline. -/
  | child (name parent : String)
  /-- A context with another's token and deadline. -/
  | clone (name source : String)
  /-- A context with another's token and no deadline. -/
  | share (name source : String)
  /-- The context ends at this moment at the latest. -/
  | deadline (name : String) (moment : Nat)
  /-- The context ends after this time at the latest. -/
  | timeout (name : String) (time : Nat)
  | cancel (name : String)
  /-- Time goes by. -/
  | advance (time : Nat)
  deriving DecidableEq, Repr

namespace ContextTable

def find? (t : ContextTable) (name : String) : Option CallContext := t.contexts.lookup name

def put (t : ContextTable) (name : String) (c : CallContext) : ContextTable :=
  if (t.find? name).isSome then
    { t with contexts := t.contexts.map fun p => if p.1 = name then (name, c) else p }
  else { t with contexts := t.contexts ++ [(name, c)] }

/-- One step; a step about an unknown context changes nothing. -/
def step (t : ContextTable) : ContextStep → ContextTable
  | .create name => { t with tokens := t.tokens.addRoot }.put name ⟨t.tokens.length, none⟩
  | .child name parent =>
    match t.find? parent with
    | some c =>
      { t with tokens := t.tokens.addChild c.token }.put name ⟨t.tokens.length, c.deadline⟩
    | none => t
  | .clone name source =>
    match t.find? source with
    | some c => t.put name c
    | none => t
  | .share name source =>
    match t.find? source with
    | some c => t.put name ⟨c.token, none⟩
    | none => t
  | .deadline name moment =>
    match t.find? name with
    | some c => t.put name (c.withDeadline moment)
    | none => t
  | .timeout name time =>
    match t.find? name with
    | some c => t.put name (c.withDeadline (t.now + time))
    | none => t
  | .cancel name =>
    match t.find? name with
    | some c => { t with tokens := t.tokens.cancel c.token }
    | none => t
  | .advance time => { t with now := t.now + time }

def lifetime (t : ContextTable) (c : CallContext) : Lifetime := c.lifetime t.tokens t.now

def isEnded (t : ContextTable) (c : CallContext) : Bool := (t.lifetime c).isEnded t.now

def reason? (t : ContextTable) (c : CallContext) : Option EngineError :=
  if t.isEnded c then some ((t.lifetime c).error t.now) else none

/-- Waits until a context ends, for ever if it does not end by itself. -/
def waitFor (t : ContextTable) (c : CallContext) : ContextTable :=
  match (t.lifetime c).await t.now none with
  | .ready m | .ended m => { t with now := m }
  | .never => t

end ContextTable

end FleetBoard

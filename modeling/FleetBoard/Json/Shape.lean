import FleetBoard.Json.Doc

/-!
# Shapes of documents

A shape says what a document has to look like. `Shape.read` reads a document of a shape from left to
right and gives what the shape names of it; the first fault in the text, be it one of syntax or one
of shape, is the only result there is.
-/

namespace FleetBoard.Json

/-- May a field of a record be missing? -/
inductive Presence where
  | required
  /-- It may be missing or null. -/
  | nullable
  /-- It may be missing, but not null. -/
  | defaulted
  deriving DecidableEq, Repr

/-- What a document has to look like. -/
inductive Shape where
  | text
  | flag
  /-- A whole number within bounds. -/
  | whole (least greatest : Int)
  /-- One of some words. -/
  | oneOf (words : List String)
  | list (item : Shape)
  /-- An object with any names. -/
  | map (value : Shape)
  /-- An object with known fields, or the list of their values in order; in an object none of them
  occurs twice, and other fields are passed over. -/
  | record (fields : List (String × Presence × Shape))
  /-- An object in which all names of one of some lists stand for counters of 64 bits. -/
  | counters (variants : List (List String))
  /-- Anything at all, which is passed over. -/
  | anything

namespace Shape

def word : Shape := .whole 0 Decimal.maxWord

def signed : Shape := .whole Decimal.minSigned Decimal.maxSigned

/-- A record with fields that may be missing or null. -/
def optionalFields (fields : List (String × Shape)) : Shape :=
  .record (fields.map fun f => (f.1, .nullable, f.2))

/-- The counters with these names, if an object has each of them once. -/
def pickCounters? (fields : List (Option String × Doc)) (names : List String) : Option Json :=
  let counter? (name : String) : Option (String × Json) :=
    match fields.filter fun f => f.1 == some name with
    | [(_, .number (some (.int n)))] =>
      if 0 ≤ n ∧ n ≤ Decimal.maxWord then some (name, .int n) else none
    | _ => none
  (names.mapM counter?).map Json.obj

def complete (fields : List (String × Presence × Shape)) (ending : Option Fault)
    (values : List (String × Json)) : Except Fault Json := do
  let values ← Doc.closed ending values
  if fields.all fun f => f.2.1 ≠ .required || values.any fun v => v.1 == f.1 then
    .ok (.obj values.reverse)
  else .error .unexpected

def readLeaf : Shape → Doc → Except Fault Json
  | .text, .text (some s) => .ok (.str s)
  | .flag, .bool b => .ok (.bool b)
  | .whole least greatest, .number (some (.int n)) =>
    if least ≤ n ∧ n ≤ greatest then .ok (.int n) else .error .unexpected
  | .oneOf words, .text (some s) =>
    if words.contains s then .ok (.str s) else .error .unexpected
  | .anything, d => d.skip.map fun _ => .null
  | _, d => .error d.mismatch

mutual

def read (shape : Shape) : Doc → Except Fault Json
  | .arr items ending =>
    match shape with
    | .list item => do
      let values ← readItems item items
      Doc.closed ending (.arr values)
    | .record fields => do
      let values ← readInOrder fields [] items ending
      Doc.closed ending (.obj values)
    | shape => readLeaf shape (.arr items ending)
  | .obj fields ending =>
    match shape with
    | .map value => do
      let values ← readValues value fields
      Doc.closed ending (.obj values)
    | .record known => do
      let values ← readNamed known [] fields
      complete known ending values
    | .counters variants =>
      match Doc.toJson (.obj fields ending) with
      | .error f => .error f
      | .ok _ =>
        match variants.findSome? (pickCounters? fields) with
        | some picked => .ok picked
        | none => .error .unexpected
    | shape => readLeaf shape (.obj fields ending)
  | d => readLeaf shape d

def readItems (item : Shape) : List Doc → Except Fault (List Json)
  | [] => .ok []
  | d :: items => do
    let v ← read item d
    return v :: (← readItems item items)

def readValues (value : Shape) : List (Option String × Doc) → Except Fault (List (String × Json))
  | [] => .ok []
  | (none, _) :: _ => .error .malformed
  | (some key, d) :: fields => do
    let v ← read value d
    return (key, v) :: (← readValues value fields)

/-- Reads the known fields of an object, after those that are given newest first. -/
def readNamed (known : List (String × Presence × Shape)) (seen : List (String × Json)) :
    List (Option String × Doc) → Except Fault (List (String × Json))
  | [] => .ok seen
  | (none, _) :: _ => .error .malformed
  | (some key, d) :: fields =>
    match known.find? fun f => f.1 == key with
    | none => do
      d.skip
      readNamed known seen fields
    | some (_, presence, shape) => do
      if seen.any fun v => v.1 == key then .error .unexpected
      let v ← if presence = .nullable ∧ d.isNull then .ok .null else read shape d
      readNamed known ((key, v) :: seen) fields

/-- Reads the values of known fields in order. Only fields that need not be there may be missing at
the end. -/
def readInOrder (known : List (String × Presence × Shape)) (seen : List (String × Json)) :
    List Doc → Option Fault → Except Fault (List (String × Json))
  | [], ending => do
    Doc.closed ending ()
    if known.all fun f => f.2.1 = .defaulted then .ok seen.reverse else .error .unexpected
  | d :: items, ending =>
    match known with
    | [] => .error .malformed
    | (name, presence, shape) :: known => do
      let v ← if presence = .nullable ∧ d.isNull then .ok .null else read shape d
      readInOrder known ((name, v) :: seen) items ending

end

end Shape

/-- The value under a name that a text stands for; an absent one and null are empty. -/
def textAt (name : String) (fields : Json) : String :=
  match fields.field? name with
  | some (.str s) => s
  | _ => ""

/-- The whole number under a name; an absent one and null are zero. -/
def intAt (name : String) (fields : Json) : Int :=
  match fields.field? name with
  | some (.int n) => n
  | _ => 0

/-- The list under a name; an absent one and null are empty. -/
def listAt (name : String) (fields : Json) : List Json :=
  match fields.field? name with
  | some (.arr items) => items
  | _ => []

/-- The texts of a list. -/
def textsAt (name : String) (fields : Json) : List String :=
  (listAt name fields).filterMap fun
    | .str s => some s
    | _ => none

/-- The names and texts of an object under a name. -/
def pairsAt (name : String) (fields : Json) : List (String × String) :=
  match fields.field? name with
  | some (.obj pairs) => pairs.filterMap fun
    | (k, .str s) => some (k, s)
    | _ => none
  | _ => []

end FleetBoard.Json

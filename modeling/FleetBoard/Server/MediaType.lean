import FleetBoard.Text.Blank

/-!
# Media types

What a request says about the form of its body: a type and a subtype with a slash between them,
perhaps a suffix of the subtype after a plus sign, and parameters. Letter case does not matter, and
what cannot be read is no media type at all.
-/

namespace FleetBoard

/-- A media type without its parameters, in lower case. -/
structure MediaType where
  kind : List Char
  subtype : List Char
  /-- What stands after the last plus sign of the subtype. -/
  suffix : Option (List Char)
  deriving DecidableEq, Repr

namespace MediaType

/-- The characters of names and of plain values. -/
def isToken (c : Char) : Bool := c.isAlphanum || "!#$%&'+-.^_`|~".toList.contains c

/-- The characters between quotes. -/
def isQuoted (c : Char) : Bool := 0x20 ≤ c.toNat && c.toNat < 0x7f

/-- Where in the parameters the reader stands. -/
inductive ParameterStage where
  /-- Before a name; blanks may come. -/
  | start
  | name
  /-- After the equals sign. -/
  | value
  /-- In a value that has begun. -/
  | plain
  /-- After an opening quote. -/
  | quote
  /-- In a quoted value that has begun. -/
  | quoted
  /-- After a closing quote; blanks may come. -/
  | after
  deriving DecidableEq, Repr

/-- One character of the parameters. -/
def stepParameter (stage : ParameterStage) (c : Char) : Option ParameterStage :=
  match stage with
  | .start => if c = ' ' then some .start else if isToken c then some .name else none
  | .name => if c = '=' then some .value else if isToken c then some .name else none
  | .value => if c = '"' then some .quote else if isToken c then some .plain else none
  | .plain => if c = ';' then some .start else if isToken c then some .plain else none
  | .quote => if isQuoted c then some .quoted else none
  | .quoted => if c = '"' then some .after else if isQuoted c then some .quoted else none
  | .after => if c = ';' then some .start else if c = ' ' then some .after else none

def ParameterStage.isFinal : ParameterStage → Bool
  | .start | .value | .plain | .after => true
  | .name | .quote | .quoted => false

def areParameters (s : List Char) : Bool :=
  match s.foldlM stepParameter .start with
  | some stage => stage.isFinal
  | none => false

/-- The subtype and its suffix. A plus sign in front is part of the subtype. -/
def splitSuffix (s : List Char) : List Char × Option (List Char) :=
  match Text.splitFirst (· == '+') (s.drop 1).reverse with
  | some (suffix, subtype) => (s.take 1 ++ subtype.reverse, some suffix.reverse)
  | none => (s, none)

def parse? (text : List Char) : Option MediaType := do
  let (kind, rest) ← Text.splitFirst (· == '/') text
  let (subtype, parameters) := match Text.splitFirst (· == ';') rest with
    | some (subtype, parameters) => (subtype, some parameters)
    | none => (rest, none)
  let isRead := !kind.isEmpty && kind.all isToken && subtype.all isToken &&
    (match parameters with
      | some s => !subtype.isEmpty && areParameters s
      | none => true)
  if isRead then
    let (subtype, suffix) := splitSuffix (subtype.map Char.toLower)
    return ⟨kind.map Char.toLower, subtype, suffix⟩
  else none

def isJson (m : MediaType) : Bool :=
  m.kind = "application".toList && (m.subtype = "json".toList || m.suffix = some "json".toList)

end MediaType

end FleetBoard

import FleetBoard.Decimal.Reading
import FleetBoard.Host.Address
import FleetBoard.Text.Blank

/-!
# Arguments

The program is told what to do by switches, and by settings that have values. Arguments are read
from left to right. The value of a setting is looked at when the next setting or switch begins, so
that an argument nobody knows is told before a value that makes no sense. What the arguments do not
set is taken from the environment, and what that does not set has a default.
-/

namespace FleetBoard.CommandLine

/-- What has a value. -/
inductive Setting where
  | bind | hosts | requestTimeout | engineTimeout | origin
  deriving DecidableEq, Repr

/-- What is either there or not. -/
inductive Switch where
  | demo | logJson | help | version
  deriving DecidableEq, Repr

namespace Setting

def name : Setting → String
  | .bind => "bind"
  | .hosts => "hosts"
  | .requestTimeout => "request-timeout-secs"
  | .engineTimeout => "engine-timeout-secs"
  | .origin => "cors-origin"

def valueName : Setting → String
  | .bind => "BIND"
  | .hosts => "HOSTS"
  | .requestTimeout => "REQUEST_TIMEOUT_SECS"
  | .engineTimeout => "ENGINE_TIMEOUT_SECS"
  | .origin => "CORS_ORIGINS"

def display (s : Setting) : String := "--" ++ s.name ++ " <" ++ s.valueName ++ ">"

def all : List Setting := [.bind, .hosts, .requestTimeout, .engineTimeout, .origin]

/-- The variable of the environment that can set it. -/
def variableName? : Setting → Option String
  | .bind => some "LOGDECK_BIND"
  | .hosts => some "DOCKER_HOSTS"
  | _ => none

def repeats : Setting → Bool
  | .origin => true
  | _ => false

end Setting

namespace Switch

def name : Switch → String
  | .demo => "demo"
  | .logJson => "log-json"
  | .help => "help"
  | .version => "version"

def display (s : Switch) : String := "--" ++ s.name

def all : List Switch := [.demo, .logJson, .help, .version]

/-- The switch that a letter after one dash stands for. -/
def ofLetter? : Char → Option Switch
  | 'h' => some .help
  | 'V' => some .version
  | _ => none

end Switch

/-- What is wrong with the value of a setting. -/
inductive ValueFault where
  | notAnAddress
  /-- A character that is no digit. -/
  | notADigit
  | empty
  /-- More than 64 bits. -/
  | tooLarge
  deriving DecidableEq, Repr

/-- What is wrong with the arguments. -/
inductive UsageFault where
  | unexpectedArgument (argument : String)
  | missingValue (setting : Setting)
  | invalidValue (setting : Setting) (value : String) (fault : ValueFault)
  /-- A setting that may be made once only. -/
  | repeatedSetting (setting : Setting)
  | repeatedSwitch (switch : Switch)
  /-- A value for a switch. -/
  | unneededValue (switch : Switch) (value : String)
  deriving DecidableEq, Repr

namespace ValueFault

def message : ValueFault → String
  | .notAnAddress => "invalid socket address syntax"
  | .notADigit => "invalid digit found in string"
  | .empty => "cannot parse integer from empty string"
  | .tooLarge => "number too large to fit in target type"

end ValueFault

namespace UsageFault

def message : UsageFault → String
  | .unexpectedArgument argument => "unexpected argument '" ++ argument ++ "' found"
  | .missingValue setting =>
    "a value is required for '" ++ setting.display ++ "' but none was supplied"
  | .invalidValue setting value fault =>
    "invalid value '" ++ value ++ "' for '" ++ setting.display ++ "': " ++ fault.message
  | .repeatedSetting setting =>
    "the argument '" ++ setting.display ++ "' cannot be used multiple times"
  | .repeatedSwitch switch =>
    "the argument '" ++ switch.display ++ "' cannot be used multiple times"
  | .unneededValue switch value =>
    "unexpected value '" ++ value ++ "' for '" ++ switch.display ++
      "' found; no more were expected"

end UsageFault

/-- A digit more of a whole number of 64 bits. -/
def pushDigit (n : Nat) (c : Char) : Except ValueFault Nat :=
  if !c.isDigit then .error .notADigit
  else
    let m := 10 * n + (c.toNat - '0'.toNat)
    if Decimal.maxWord < m then .error .tooLarge else .ok m

/-- A whole number of 64 bits; one leading plus sign is allowed before digits. -/
def readWord (text : List Char) : Except ValueFault Nat :=
  match text with
  | [] => .error .empty
  | '+' :: c :: digits => (c :: digits).foldlM pushDigit 0
  | digits => digits.foldlM pushDigit 0

/-- What the program has been told. -/
structure Arguments where
  bind : Option SocketAddress := none
  hosts : Option String := none
  /-- In seconds. -/
  requestTimeout : Option Nat := none
  /-- In seconds. -/
  engineTimeout : Option Nat := none
  origins : List String := []
  demo : Bool := false
  logJson : Bool := false
  deriving DecidableEq, Repr

namespace Arguments

def sets (a : Arguments) : Setting → Bool
  | .bind => a.bind.isSome
  | .hosts => a.hosts.isSome
  | .requestTimeout => a.requestTimeout.isSome
  | .engineTimeout => a.engineTimeout.isSome
  | .origin => !a.origins.isEmpty

def set (a : Arguments) (setting : Setting) (value : String) : Except UsageFault Arguments :=
  let invalid (fault : ValueFault) : UsageFault := .invalidValue setting value fault
  match setting with
  | .bind =>
    match SocketAddress.parse? value with
    | some address => .ok { a with bind := some address }
    | none => .error (invalid .notAnAddress)
  | .hosts => .ok { a with hosts := some value }
  | .requestTimeout =>
    ((readWord value.toList).mapError invalid).map fun n => { a with requestTimeout := some n }
  | .engineTimeout =>
    ((readWord value.toList).mapError invalid).map fun n => { a with engineTimeout := some n }
  | .origin => .ok { a with origins := a.origins ++ [value] }

/-- Makes a setting that has not been made before, unless it may be repeated. -/
def setOnce (a : Arguments) (setting : Setting) (value : String) : Except UsageFault Arguments :=
  if a.sets setting && !setting.repeats then .error (.repeatedSetting setting)
  else a.set setting value

/-- Makes a setting from the environment if nothing has made it. -/
def setFrom (environment : List (String × String)) (a : Arguments) (setting : Setting) :
    Except UsageFault Arguments :=
  if a.sets setting then .ok a
  else match setting.variableName?.bind fun v => environment.lookup v with
    | some value => a.set setting value
    | none => .ok a

end Arguments

/-- How far the reading of arguments has come. -/
structure Progress where
  arguments : Arguments := {}
  /-- A setting that has begun, with its value if that is there. -/
  pending : Option (Setting × Option String) := none
  /-- Have two dashes said that no more settings and switches follow? -/
  trailing : Bool := false
  deriving DecidableEq, Repr

/-- What an argument leads to. -/
inductive Step where
  | onward (p : Progress)
  | failed (fault : UsageFault)
  /-- The program is to show something and do nothing else. -/
  | help
  | version
  deriving DecidableEq, Repr

namespace Progress

/-- Settles the setting that has begun. -/
def settle (p : Progress) : Except UsageFault Progress :=
  match p.pending with
  | none => .ok p
  | some (setting, none) => .error (.missingValue setting)
  | some (setting, some value) =>
    (p.arguments.setOnce setting value).map fun a => { p with arguments := a, pending := none }

/-- Goes on when the setting that has begun is settled. -/
def afterSettling (p : Progress) (next : Progress → Step) : Step :=
  match p.settle with
  | .ok p => next p
  | .error fault => .failed fault

def turnOn (p : Progress) : Switch → Step
  | .help => .help
  | .version => .version
  | .demo =>
    if p.arguments.demo then .failed (.repeatedSwitch .demo)
    else .onward { p with arguments := { p.arguments with demo := true } }
  | .logJson =>
    if p.arguments.logJson then .failed (.repeatedSwitch .logJson)
    else .onward { p with arguments := { p.arguments with logJson := true } }

/-- A setting begins. A value that stands in the same argument settles it. -/
def begin (p : Progress) (setting : Setting) (value : Option String) : Step :=
  p.afterSettling fun p =>
    let p := { p with pending := some (setting, value) }
    if value.isSome then p.afterSettling .onward else .onward p

/-- An argument with two dashes in front: a name, and perhaps a value after an equals sign. -/
def readLong (p : Progress) (name : String) (value : Option String) : Step :=
  match Setting.all.find? fun s => s.name = name, Switch.all.find? fun s =>
    s.name = name, value with
  | some setting, _, value => p.begin setting value
  | none, some switch, some value => .failed (.unneededValue switch value)
  | none, some switch, none => p.afterSettling fun p => p.turnOn switch
  | none, none, _ => .failed (.unexpectedArgument ("--" ++ name))

/-- The letters after one dash. The first one decides, since the known letters end the program. -/
def readShort (p : Progress) (letter : Char) : Step :=
  match Switch.ofLetter? letter with
  | some switch => p.afterSettling fun p => p.turnOn switch
  | none => .failed (.unexpectedArgument ("-" ++ letter.toString))

/-- An argument without dashes, which only makes sense as a value. -/
def readPlain (p : Progress) (argument : String) : Step :=
  match p.pending with
  | some (setting, none) => .onward { p with pending := some (setting, some argument) }
  | _ => .failed (.unexpectedArgument argument)

/-- The name in an argument and the value after its first equals sign. -/
def splitValue (s : List Char) : String × Option String :=
  match Text.splitFirst (· == '=') s with
  | some (name, value) => (String.ofList name, some (String.ofList value))
  | none => (String.ofList s, none)

def read (p : Progress) (argument : String) : Step :=
  if p.trailing then .failed (.unexpectedArgument argument)
  else match argument.toList with
    | ['-', '-'] => .onward { p with trailing := true }
    | '-' :: '-' :: rest => p.readLong (splitValue rest).1 (splitValue rest).2
    | '-' :: letter :: _ => p.readShort letter
    | _ => p.readPlain argument

def readAll : Progress → List String → Step
  | p, [] => p.afterSettling .onward
  | p, argument :: arguments =>
    match p.read argument with
    | .onward p => readAll p arguments
    | step => step

end Progress

inductive Reading where
  | told (arguments : Arguments)
  | failed (fault : UsageFault)
  | help
  | version
  deriving DecidableEq, Repr

/-- Reads arguments and then the environment. -/
def read (arguments : List String) (environment : List (String × String)) : Reading :=
  match Progress.readAll {} arguments with
  | .help => .help
  | .version => .version
  | .failed fault => .failed fault
  | .onward p =>
    match Setting.all.foldlM (Arguments.setFrom environment) p.arguments with
    | .ok a => .told a
    | .error fault => .failed fault

end FleetBoard.CommandLine

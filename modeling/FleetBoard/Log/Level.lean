import FleetBoard.Log.Error

/-!
# Levels of severity

The level of a message is found by its words: the gravest level that has one of its keywords among
them.
-/

namespace FleetBoard

/-- The severity of a log entry. -/
inductive Level where
  | trace | debug | info | warn | warning | error | fatal | panic | unknown
  deriving DecidableEq, Repr, Inhabited

namespace Level

def all : List Level := [.trace, .debug, .info, .warn, .warning, .error, .fatal, .panic, .unknown]

def name : Level → String
  | .trace => "TRACE"
  | .debug => "DEBUG"
  | .info => "INFO"
  | .warn => "WARN"
  | .warning => "WARNING"
  | .error => "ERROR"
  | .fatal => "FATAL"
  | .panic => "PANIC"
  | .unknown => "UNKNOWN"

def ofName? (text : String) : Option Level :=
  all.find? fun level => Text.lowerAscii level.name.toList = Text.lowerAscii text.toList

def parse (text : String) : Except LogError Level :=
  match ofName? text with
  | some level => .ok level
  | none => .error (.invalidOption "level" (.unknownLevel text))

def keywords : Level → List String
  | .panic => ["panic", "emergency"]
  | .fatal => ["fatal", "critical", "crit"]
  | .error => ["error", "err", "fail", "failed", "exception"]
  | .warn => ["warn", "warning", "wrn"]
  | .info => ["info", "inf", "notice", "log"]
  | .debug => ["debug", "dbg"]
  | .trace => ["trace", "trc"]
  | .warning | .unknown => []

/-- The levels that messages can show, the gravest first. -/
def byGravity : List Level := [.panic, .fatal, .error, .warn, .info, .debug, .trace]

/-- Is the word one of the level's keywords, whatever the case of its letters? -/
def shownBy (level : Level) (word : List Char) : Bool :=
  level.keywords.contains (String.ofList (Text.lowerAscii word))

/-- The gravest level shown by one of the words. -/
def ofWords (words : List (List Char)) : Level :=
  (byGravity.find? fun level => words.any level.shownBy).getD .unknown

def detect (message : List Char) : Level := ofWords (Text.words message)

end Level

end FleetBoard

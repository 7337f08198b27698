import FleetBoard.Json.Token

/-!
# Documents as far as they can be read

A `Doc` is the tree of a JSON text up to the place where it breaks. The fault stands in the tree
where it stands in the text, so that a reader who expects a certain shape and walks the tree from
left to right meets the faults of syntax and of shape in their order in the text. What such a reader
does not look at it has to pass over with `Doc.skip`, which finds the faults in there.
-/

namespace FleetBoard.Json

/-- Why a text is not the document that was expected. -/
inductive Fault where
  /-- The text is no JSON. -/
  | malformed
  /-- The text ends before its value does. -/
  | cutOff
  /-- The JSON has another shape. -/
  | unexpected
  deriving DecidableEq, Repr

/-- A document up to its first fault of syntax. -/
inductive Doc where
  | null
  | bool (b : Bool)
  | number (value : Option Json)
  | text (value : Option String)
  /-- The items that could be read, and what ended the list if it was not its bracket. -/
  | arr (items : List Doc) (ending : Option Fault)
  /-- The fields that could be read, and what ended the object if it was not its brace. -/
  | obj (fields : List (Option String × Doc)) (ending : Option Fault)
  /-- No value stands here. -/
  | broken (fault : Fault)
  deriving Inhabited

namespace Doc

/-- A container that has been opened, with its contents newest first. -/
inductive Frame where
  | arr (items : List Doc)
  | obj (fields : List (Option String × Doc))
  | field (fields : List (Option String × Doc)) (key : Option String)

/-- What may come next. -/
inductive Expect where
  | value | firstItem | afterItem | firstKey | key | colon | afterField

/-- Closes all containers around a fault, the innermost first. -/
def collapse (fault : Fault) : Doc → List Frame → Doc
  | d, [] => d
  | d, .arr items :: stack => collapse fault (.arr (d :: items).reverse (some fault)) stack
  | _, .obj fields :: stack => collapse fault (.obj fields.reverse (some fault)) stack
  | d, .field fields key :: stack =>
    collapse fault (.obj ((key, d) :: fields).reverse (some fault)) stack

/-- The document that breaks with `fault` while `stack` is open. -/
def breakOff (fault : Fault) : List Frame → Doc
  | [] => .broken fault
  | .arr items :: stack => collapse fault (.arr items.reverse (some fault)) stack
  | .obj fields :: stack => collapse fault (.obj fields.reverse (some fault)) stack
  | .field fields key :: stack =>
    collapse fault (.obj ((key, .broken fault) :: fields).reverse (some fault)) stack

/-- What one token leads to. -/
inductive Move where
  | more (stack : List Frame) (expect : Expect)
  | done (d : Doc)
  | broken (fault : Fault)

/-- A value has been read: it goes to the innermost container, or it is the document. -/
def settle (d : Doc) : List Frame → Move
  | [] => .done d
  | .arr items :: stack => .more (.arr (d :: items) :: stack) .afterItem
  | .obj fields :: stack => .more (.obj fields :: stack) .afterField
  | .field fields key :: stack => .more (.obj ((key, d) :: fields) :: stack) .afterField

/-- A token where a value begins. -/
def beginValue (stack : List Frame) : Token → Move
  | .null => settle .null stack
  | .bool b => settle (.bool b) stack
  | .number v => settle (.number v) stack
  | .text s => settle (.text s) stack
  | .openBracket => .more (.arr [] :: stack) .firstItem
  | .openBrace => .more (.obj [] :: stack) .firstKey
  | .cut _ => .broken .cutOff
  | _ => .broken .malformed

/-- A token at any place. -/
def advance : List Frame → Expect → Token → Move
  | .arr items :: stack, .firstItem, .closeBracket => settle (.arr items.reverse none) stack
  | stack, .firstItem, token => beginValue stack token
  | stack, .value, token => beginValue stack token
  | stack, .afterItem, .comma => .more stack .value
  | .arr items :: stack, .afterItem, .closeBracket => settle (.arr items.reverse none) stack
  | .obj fields :: stack, .firstKey, .closeBrace => settle (.obj fields.reverse none) stack
  | .obj fields :: stack, .firstKey, .text key => .more (.field fields key :: stack) .colon
  | .obj fields :: stack, .key, .text key => .more (.field fields key :: stack) .colon
  | _, .firstKey, .cut true => .broken .cutOff
  | _, .key, .cut true => .broken .cutOff
  | stack, .colon, .colon => .more stack .value
  | stack, .afterField, .comma => .more stack .key
  | .obj fields :: stack, .afterField, .closeBrace => settle (.obj fields.reverse none) stack
  | _, _, _ => .broken .malformed

/-- Reads one value off the tokens; the tokens after it are left over. -/
def build (stack : List Frame) (expect : Expect) : List Token → Doc × List Token
  | [] => (breakOff .cutOff stack, [])
  | token :: tokens =>
    match advance stack expect token with
    | .more stack expect => build stack expect tokens
    | .done d => (d, tokens)
    | .broken fault => (breakOff fault stack, [])

/-- The first document of a text, and the tokens after it. -/
def ofBytes (bytes : List UInt8) : Doc × List Token := build [] .value (Token.scan bytes)

/-- A value whose container ended well. -/
def closed (ending : Option Fault) (value : β) : Except Fault β :=
  match ending with
  | some f => .error f
  | none => .ok value

mutual

/-- Passes over a value that nobody looks at. Its names, strings and numbers need not make sense. -/
def skip : Doc → Except Fault Unit
  | .broken f => .error f
  | .arr items ending => do
    skipItems items
    closed ending ()
  | .obj fields ending => do
    skipFields fields
    closed ending ()
  | _ => .ok ()

def skipItems : List Doc → Except Fault Unit
  | [] => .ok ()
  | d :: items => do
    skip d
    skipItems items

def skipFields : List (Option String × Doc) → Except Fault Unit
  | [] => .ok ()
  | (_, d) :: fields => do
    skip d
    skipFields fields

end

mutual

def toJson : Doc → Except Fault Json
  | .null => .ok .null
  | .bool b => .ok (.bool b)
  | .number (some v) => .ok v
  | .number none => .error .malformed
  | .text (some s) => .ok (.str s)
  | .text none => .error .malformed
  | .arr items ending => do
    let values ← toJsonItems items
    closed ending (.arr values)
  | .obj fields ending => do
    let values ← toJsonFields fields
    closed ending (.obj (Json.sortFields values))
  | .broken f => .error f

def toJsonItems : List Doc → Except Fault (List Json)
  | [] => .ok []
  | d :: items => do
    let v ← toJson d
    return v :: (← toJsonItems items)

def toJsonFields : List (Option String × Doc) → Except Fault (List (String × Json))
  | [] => .ok []
  | (none, _) :: _ => .error .malformed
  | (some key, d) :: fields => do
    let v ← toJson d
    return (key, v) :: (← toJsonFields fields)

end

def isNull : Doc → Bool
  | .null => true
  | _ => false

/-- The fault of a value that is not of the expected kind. A string or number that makes no sense is
noticed first. -/
def mismatch : Doc → Fault
  | .number none | .text none => .malformed
  | .broken f => f
  | _ => .unexpected

end Doc

def readWhole (read : Doc → Except Fault β) (bytes : List UInt8) : Except Fault β :=
  let (doc, rest) := Doc.ofBytes bytes
  match read doc with
  | .error f => .error f
  | .ok v => if rest.isEmpty then .ok v else .error .malformed

def ofText? (s : String) : Option Json :=
  (readWhole Doc.toJson (Text.utf8String s)).toOption

end FleetBoard.Json

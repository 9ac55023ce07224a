import ResourceModels.Json.Token

/-!
# Reading JSON values from tokens

A machine with a stack of open arrays and objects. One token makes one step, so reading is a
fold over the tokens. At most 127 containers may be open at once, and every token has to have a
value. Neither holds for the parts of a text that are not looked at.
-/

namespace ResourceModels.Json

/-- Text that is no JSON, or JSON of a shape that is not expected. -/
inductive Error where
  | syntaxError
  | dataError
  deriving DecidableEq, Repr

/-- Which parts of a value are looked at. -/
inductive Selection where
  | whole
  /-- Every item or member, each as far as is said. -/
  | each (inner : Selection)
  /-- The members with some names, each as far as is said, or the items of an array in their
  place. -/
  | fields (names : List String) (inner : Selection)
  deriving Repr

namespace Parser

/-- A container that is still open: the items so far, last first, or the members so far, last
first, with the key whose value comes next. -/
inductive Frame where
  | array (items : List Json)
  | object (members : List (String × Json)) (key : String)
  deriving Repr

/-- What has been read, and so what may come next. -/
inductive Mode where
  | value
  | firstItem
  | firstKey (members : List (String × Json))
  | key (members : List (String × Json))
  | colon
  | inArray (items : List Json)
  | inObject (members : List (String × Json))
  | finished (value : Json)
  deriving Repr

structure State where
  stack : List Frame
  mode : Mode
  deriving Repr

def depthLimit : Nat := 127

/-- What is looked at of the value that comes next in a container; `none` for nothing. -/
def selectInside : Selection → Frame → Option Selection
  | .whole, _ => some .whole
  | .each inner, _ => some inner
  | .fields _ inner, .array _ => some inner
  | .fields names inner, .object _ key => if key ∈ names then some inner else none

/-- What is looked at inside the open containers. -/
def selectAt (selection : Selection) : List Frame → Option Selection
  | [] => some selection
  | frame :: stack => (selectAt selection stack).bind (selectInside · frame)

def isIgnored (selection : Selection) (stack : List Frame) : Bool :=
  (selectAt selection stack).isNone

/-- Put a finished value into the innermost open container. -/
def complete (value : Json) : List Frame → State
  | [] => ⟨[], .finished value⟩
  | .array items :: stack => ⟨stack, .inArray (value :: items)⟩
  | .object members key :: stack => ⟨stack, .inObject ((key, value) :: members)⟩

/-- Whether one more container can be opened. -/
def hasRoom (selection : Selection) (stack : List Frame) : Bool :=
  stack.length < depthLimit || isIgnored selection stack

/-- A token where a value must start. -/
def start (selection : Selection) (stack : List Frame) : Token → Option State
  | .null => some (complete .null stack)
  | .bool value => some (complete (.bool value) stack)
  | .number value => some (complete (.number value) stack)
  | .string text => some (complete (.string text) stack)
  | .unusable => if isIgnored selection stack then some (complete .null stack) else none
  | .openArray => if hasRoom selection stack then some ⟨stack, .firstItem⟩ else none
  | .openObject => if hasRoom selection stack then some ⟨stack, .firstKey []⟩ else none
  | _ => none

/-- A token where a key must start. -/
def startMember (selection : Selection) (stack : List Frame) (members : List (String × Json)) :
    Token → Option State
  | .string key => some ⟨.object members key :: stack, .colon⟩
  | .unusable =>
    if isIgnored selection stack then some ⟨.object members "" :: stack, .colon⟩ else none
  | _ => none

def step (selection : Selection) (state : State) (token : Token) : Option State :=
  let stack := state.stack
  match state.mode, token with
  | .value, token => start selection stack token
  | .firstItem, .closeArray => some (complete (.array []) stack)
  | .firstItem, token => start selection (.array [] :: stack) token
  | .firstKey members, .closeObject => some (complete (.object members) stack)
  | .firstKey members, token => startMember selection stack members token
  | .key members, token => startMember selection stack members token
  | .colon, .colon => some ⟨stack, .value⟩
  | .inArray items, .comma => some ⟨.array items :: stack, .value⟩
  | .inArray items, .closeArray => some (complete (.array items.reverse) stack)
  | .inObject members, .comma => some ⟨stack, .key members⟩
  | .inObject members, .closeObject => some (complete (.object members.reverse) stack)
  | _, _ => none

/-- The value of a whole token list. -/
def run (selection : Selection) (tokens : List Token) : Option Json :=
  match tokens.foldlM (step selection) ⟨[], .value⟩ with
  | some ⟨_, .finished value⟩ => some value
  | _ => none

end Parser

/-- The value as written, in which a key may be repeated, as far as it is looked at; `none` where
the text is no JSON. -/
def selected? (selection : Selection) (text : List Char) : Option Json :=
  (Token.all? text).bind (Parser.run selection)

def written? (text : List Char) : Option Json := selected? .whole text

/-- The value of a text. A repeated key keeps its first place and its last value. -/
def ofChars? (text : List Char) : Option Json := (written? text).map settled

def parse (text : String) : Except Error Json :=
  match ofChars? text.toList with
  | some value => .ok value
  | none => .error .syntaxError

end ResourceModels.Json

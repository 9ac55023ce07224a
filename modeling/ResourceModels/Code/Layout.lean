import ResourceModels.Code.Literal

/-!
# Layout of field declarations

A call stands on one line if it fits; otherwise its arguments stand on one indented line; otherwise
each on a line of its own, where a long text is split into literals in parentheses. Where the
annotation alone is too wide, the whole value is put in parentheses.
-/

namespace ResourceModels.Code

/-- An argument is source, or a text that may be split. -/
inductive ArgumentValue where
  | code (source : String)
  | text (content : String)
  deriving DecidableEq, Repr

structure Argument where
  key : Option String
  value : ArgumentValue
  deriving DecidableEq, Repr

namespace Argument

def positional (source : String) : Argument := ⟨none, .code source⟩

def keyword (key source : String) : Argument := ⟨some key, .code source⟩

def text (key content : String) : Argument := ⟨some key, .text content⟩

end Argument

structure Layout where
  lineLength : Nat
  preferDouble : Bool
  wrapText : Bool
  deriving DecidableEq, Repr

namespace Layout

/-- Columns of one level of indentation. -/
def level : Nat := 4

def pad (indent : Nat) (line : String) : String :=
  String.ofList (List.replicate indent ' ') ++ line

def fits (layout : Layout) (line : String) : Bool := line.length ≤ layout.lineLength

def valueText (layout : Layout) : ArgumentValue → String
  | .code source => source
  | .text content => quote layout.preferDouble content

/-- An argument on one line. -/
def flat (layout : Layout) (argument : Argument) : String :=
  match argument.key with
  | some key => key ++ "=" ++ layout.valueText argument.value
  | none => layout.valueText argument.value

def flatArguments (layout : Layout) (arguments : List Argument) : String :=
  ", ".intercalate (arguments.map layout.flat)

/-- A target with or without a value. -/
def assignment (indent : Nat) (target : String) (value : Option String) : List String :=
  match value with
  | some value => [pad indent (target ++ " = " ++ value)]
  | none => [pad indent target]

/-- A text argument over several lines. -/
def splitArgument (layout : Layout) (indent : Nat) (key content : String) : List String :=
  let inner := indent + level
  pad indent (key ++ "=(") ::
    (splitLiteral layout.preferDouble (layout.lineLength - inner) content).map (pad inner) ++
    [pad indent "),"]

/-- An argument on lines of its own, with a comma after it. -/
def argumentLines (layout : Layout) (indent : Nat) (argument : Argument) : List String :=
  let line := pad indent (layout.flat argument ++ ",")
  match argument.value, argument.key with
  | .text content, some key =>
    if !layout.fits line && layout.wrapText then layout.splitArgument indent key content
    else [line]
  | _, _ => [line]

/-- The lines between the parentheses of a call. -/
def callBody (layout : Layout) (indent : Nat) (arguments : List Argument) : List String :=
  let joined := pad indent (layout.flatArguments arguments)
  if layout.fits joined then [joined] else arguments.flatMap (layout.argumentLines indent)

/-- A target assigned a field with arguments. -/
def fieldCall (layout : Layout) (indent : Nat) (target : String) (arguments : List Argument) :
    List String :=
  let call := "Field(" ++ layout.flatArguments arguments ++ ")"
  let oneLine := pad indent (target ++ " = " ++ call)
  let head := pad indent (target ++ " = Field(")
  let inner := indent + level
  if layout.fits oneLine then [oneLine]
  else if layout.fits head then
    head :: layout.callBody (indent + level) arguments ++ [pad indent ")"]
  else
    let body :=
      if layout.fits (pad inner call) then [pad inner call]
      else pad inner "Field(" :: layout.callBody (inner + level) arguments ++ [pad inner ")"]
    pad indent (target ++ " = (") :: body ++ [pad indent ")"]

end Layout

end ResourceModels.Code

/-!
# Positions in YAML text

What is left of a text, and the line and column at which it starts. A carriage return with a line
feed is one line break.
-/

namespace ResourceModels.Yaml

def isBreak (c : Char) : Bool := c ∈ ['\n', '\r', '\x85', '\u2028', '\u2029']

def isBlank (c : Char) : Bool := c = ' ' || c = '\t'

def isGap (c : Char) : Bool := isBlank c || isBreak c

/-- Nothing more belongs to a word: the text ends, or a blank or a line break follows. -/
def endsWord : List Char → Bool
  | [] => true
  | c :: _ => isGap c

structure Cursor where
  rest : List Char
  line : Nat := 0
  column : Nat := 0
  /-- How many octets came before. -/
  index : Nat := 0
  deriving Repr

namespace Cursor

/-- Pass over characters of one line. -/
def skip (cursor : Cursor) (count : Nat) : Cursor :=
  let passed := cursor.rest.take count
  { cursor with
    rest := cursor.rest.drop count
    column := cursor.column + passed.length
    index := passed.foldl (fun index c => index + c.utf8Size) cursor.index }

/-- Pass over a line break. The text it stands for comes with the cursor after it. -/
def breakLine (cursor : Cursor) : List Char × Cursor :=
  let next (rest : List Char) (length : Nat) : Cursor :=
    ⟨rest, cursor.line + 1, 0, cursor.index + length⟩
  match cursor.rest with
  | '\r' :: '\n' :: rest => (['\n'], next rest 2)
  | c :: rest =>
    if c = '\u2028' || c = '\u2029' then ([c], next rest c.utf8Size)
    else if isBreak c then (['\n'], next rest c.utf8Size)
    else ([], cursor)
  | [] => ([], cursor)

def skipWhile (cursor : Cursor) (passes : Char → Bool) : Cursor :=
  cursor.skip (cursor.rest.takeWhile passes).length

def atGap (cursor : Cursor) : Bool := cursor.rest.head?.any isGap

/-- Three dashes or three dots at the start of a line, as a word of their own. -/
def atDocumentMark (cursor : Cursor) : Bool :=
  cursor.column = 0 &&
    match cursor.rest with
    | '-' :: '-' :: '-' :: rest | '.' :: '.' :: '.' :: rest => endsWord rest
    | _ => false

/-- The end of a line, with a comment before it or not. -/
def endOfLine? (cursor : Cursor) : Option Cursor :=
  let cursor := cursor.skipWhile isBlank
  let cursor := if cursor.rest.head? = some '#' then cursor.skipWhile (!isBreak ·) else cursor
  match cursor.rest with
  | [] => some cursor
  | c :: _ => if isBreak c then some cursor.breakLine.2 else none

end Cursor

end ResourceModels.Yaml

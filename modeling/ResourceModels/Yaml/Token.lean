import ResourceModels.Yaml.Basic
import ResourceModels.Yaml.Scalar

/-!
# Tokens of YAML text

Brackets, marks and scalars, with the brackets that indentation stands for. That something is a key
shows only at the colon after it, so the place of the last scalar or bracket that could be a key is
kept, and the mark of the key is put there later. A key stands on one line and is at most 1024
octets long.
-/

namespace ResourceModels.Yaml

inductive Token where
  | version
  | tagHandle (handle : List Char) (address : List UInt8)
  | documentStart
  | documentEnd
  | blockSequenceStart
  | blockMappingStart
  | blockEnd
  | flowSequenceStart
  | flowSequenceEnd
  | flowMappingStart
  | flowMappingEnd
  | blockEntry
  | flowEntry
  | key
  | value
  | alias (name : List Char)
  | anchor (name : List Char)
  | tag (written : Tag.Written)
  | scalar (style : Style) (text : String)
  deriving DecidableEq, Repr

/-- Where a key could start. One at the indentation of its block has to be a key. -/
structure PossibleKey where
  required : Bool
  /-- The number of tokens before it. -/
  place : Nat
  line : Nat
  column : Nat
  index : Nat
  deriving Repr

structure Scan where
  cursor : Cursor
  /-- The tokens so far, last first. -/
  tokens : List Token := []
  /-- The column of the innermost block, -1 outside of all. -/
  indent : Int := -1
  outer : List Int := []
  /-- Whether a key may start here. -/
  keyAllowed : Bool := true
  possible : Option PossibleKey := none
  /-- The possible keys of the flows around this one. -/
  flows : List (Option PossibleKey) := []

namespace Scan

def keyLimit : Nat := 1024

def inFlow (s : Scan) : Bool := !s.flows.isEmpty

def column (s : Scan) : Nat := s.cursor.column

def push (s : Scan) (token : Token) : Scan := { s with tokens := token :: s.tokens }

/-- Put a token where there were `place` tokens. -/
def putAt (s : Scan) (place : Nat) (token : Token) : Scan :=
  let later := s.tokens.length - place
  { s with tokens := s.tokens.take later ++ token :: s.tokens.drop later }

/-- Pass over a sign that is one token. -/
def take (s : Scan) (length : Nat) (token : Token) : Scan :=
  { s with cursor := s.cursor.skip length }.push token

/-- A mark of the byte order. It says nothing, but takes up a column. -/
def byteOrderMark : Char := '\ufeff'

/-- Pass over blanks, comments and line breaks. A tab may not stand where a key could, and each line
may start with a mark of the byte order. -/
def skipGap (fuel : Nat) (s : Scan) : Scan :=
  match fuel with
  | 0 => s
  | fuel + 1 =>
    let marked := s.column = 0 && s.cursor.rest.head? = some byteOrderMark
    let tabs := s.inFlow || !s.keyAllowed
    let cursor := s.cursor.skip (if marked then 1 else 0)
    let cursor := cursor.skipWhile fun c => c = ' ' || (tabs && c = '\t')
    let cursor := if cursor.rest.head? = some '#' then cursor.skipWhile (!isBreak ·) else cursor
    if cursor.rest.head?.any isBreak then
      skipGap fuel { s with cursor := cursor.breakLine.2, keyAllowed := s.keyAllowed || !s.inFlow }
    else { s with cursor }

/-- Give up a possible key. One that has to be a key is missed. -/
def dropKey? (s : Scan) : Option Scan :=
  if s.possible.any (·.required) then none else some { s with possible := none }

def isStale (s : Scan) (key : PossibleKey) : Bool :=
  key.line < s.cursor.line || key.index + keyLimit < s.cursor.index

/-- Give up a key that is too far away. -/
def dropStaleKey? (s : Scan) : Option Scan :=
  if s.possible.any s.isStale then s.dropKey? else some s

/-- Remember that a key could start here. -/
def saveKey? (s : Scan) : Option Scan :=
  if s.keyAllowed then do
    let s ← s.dropKey?
    some { s with
      possible := some
        { required := !s.inFlow && s.indent = s.column
          place := s.tokens.length
          line := s.cursor.line
          column := s.column
          index := s.cursor.index } }
  else some s

/-- Open a block at a column, unless one is open there. -/
def openBlock (s : Scan) (column place : Nat) (token : Token) : Scan :=
  if !s.inFlow && s.indent < column then
    { s with indent := column, outer := s.indent :: s.outer }.putAt place token
  else s

/-- Close the blocks to the right of a column. -/
def closeBlocks (outer : List Int) (column : Int) (s : Scan) : Scan :=
  match outer with
  | [] => s
  | previous :: outer =>
    if column < s.indent then
      closeBlocks outer column ({ s with indent := previous, outer := outer }.push .blockEnd)
    else s

def unroll (s : Scan) (column : Int) : Scan :=
  if s.inFlow then s else closeBlocks s.outer column s

/-- A mark of a document, or a directive, ends everything before it. -/
def endAll? (s : Scan) : Option Scan := do
  let s ← (s.unroll (-1)).dropKey?
  some { s with keyAllowed := false }

def openFlow? (s : Scan) (token : Token) : Option Scan := do
  let s ← s.saveKey?
  let flows := s.possible :: s.flows
  some ({ s with flows, possible := none, keyAllowed := true }.take 1 token)

def closeFlow? (s : Scan) (token : Token) : Option Scan := do
  let s ← s.dropKey?
  match s.flows with
  | [] => some ({ s with keyAllowed := false }.take 1 token)
  | possible :: flows =>
    some ({ s with flows, possible, keyAllowed := false }.take 1 token)

def flowEntry? (s : Scan) : Option Scan := do
  let s ← s.dropKey?
  some ({ s with keyAllowed := true }.take 1 .flowEntry)

/-- A mark that opens a block where keys are allowed. -/
def openAt? (s : Scan) (token : Token) : Option Scan :=
  if s.inFlow then some s
  else if s.keyAllowed then some (s.openBlock s.column s.tokens.length token)
  else none

def blockEntry? (s : Scan) : Option Scan := do
  let s ← (← s.openAt? .blockSequenceStart).dropKey?
  some ({ s with keyAllowed := true }.take 1 .blockEntry)

def explicitKey? (s : Scan) : Option Scan := do
  let s ← (← s.openAt? .blockMappingStart).dropKey?
  some ({ s with keyAllowed := !s.inFlow }.take 1 .key)

/-- A colon. What could be a key becomes one. -/
def value? (s : Scan) : Option Scan :=
  match s.possible with
  | some key =>
    let s := (s.putAt key.place .key).openBlock key.column key.place .blockMappingStart
    some ({ s with possible := none, keyAllowed := false }.take 1 .value)
  | none => do
    let s ← s.openAt? .blockMappingStart
    some ({ s with keyAllowed := !s.inFlow }.take 1 .value)

/-- The name after the sign of an anchor or an alias. -/
def named? (s : Scan) (token : List Char → Token) : Option Scan := do
  let s ← s.saveKey?
  let name := (s.cursor.rest.drop 1).takeWhile Tag.isNameChar
  let next := s.cursor.skip (name.length + 1)
  let ends := endsWord next.rest ||
    next.rest.head?.any (· ∈ ['?', ':', ',', ']', '\x7d', '%', '@', '\x60'])
  if name.isEmpty || !ends then none
  else some ({ s with cursor := next, keyAllowed := false }.push (token name))

def tag? (s : Scan) : Option Scan := do
  let s ← s.saveKey?
  let (written, length) ← Tag.read? (s.cursor.rest.drop 1)
  let next := s.cursor.skip (length + 1)
  if endsWord next.rest || (s.inFlow && next.rest.head? = some ',') then
    some ({ s with cursor := next, keyAllowed := false }.push (.tag written))
  else none

/-- Take a scalar up. -/
def pushScalar (s : Scan) (style : Style) (read : Scalar.Result) (keyAllowed : Bool) : Scan :=
  { s with cursor := read.cursor, keyAllowed }.push (.scalar style (String.ofList read.text))

def quoted? (s : Scan) (single : Bool) : Option Scan := do
  let s ← s.saveKey?
  let read ← Scalar.quoted? (s.cursor.rest.length + 1) single [] (s.cursor.skip 1)
  some (s.pushScalar .quoted read false)

def block? (s : Scan) (literal : Bool) : Option Scan := do
  let s ← s.dropKey?
  let read ← Scalar.block? literal s.indent (s.cursor.skip 1)
  some (s.pushScalar (if literal then .literal else .folded) read true)

def plain? (s : Scan) : Option Scan := do
  let s ← s.saveKey?
  let read ← Scalar.plain? (s.cursor.rest.length + 1) s.inFlow (s.indent + 1) [] [] false s.cursor
  some (s.pushScalar .plain read read.broken)

/-- A number in a directive has at most nine digits. -/
def versionNumber? (cursor : Cursor) : Option (Nat × Cursor) :=
  let digits := cursor.rest.takeWhile Text.isAsciiDigit
  if digits.isEmpty || 9 < digits.length then none
  else
    some (digits.foldl (fun n c => 10 * n + (c.toNat - 48)) 0, cursor.skip digits.length)

/-- The version of a directive. The two versions of the first major one can be read. -/
def version? (cursor : Cursor) : Option (Token × Cursor) := do
  let (major, next) ← versionNumber? cursor
  if next.rest.head? ≠ some '.' then none
  else
    let (minor, next) ← versionNumber? (next.skip 1)
    if major = 1 && (minor = 1 || minor = 2) then some (.version, next) else none

/-- The handle of a tag directive and the address that it stands for. -/
def tagDirective? (cursor : Cursor) : Option (Token × Cursor) := do
  let handle ← Tag.handle? cursor.rest
  let next := cursor.skip handle.length
  let start := next.skipWhile isBlank
  let address := start.rest.takeWhile Tag.isAddressChar
  let finish := start.skip address.length
  if !next.rest.head?.any isBlank || address.isEmpty || !endsWord finish.rest then none
  else some (.tagHandle handle (← Tag.address? address), finish)

def directive? (s : Scan) : Option Scan := do
  let s ← s.endAll?
  let name := (s.cursor.rest.drop 1).takeWhile Tag.isNameChar
  let next := s.cursor.skip (name.length + 1)
  if !next.rest.head?.any isBlank then none
  else
    let next := next.skipWhile isBlank
    let (token, next) ←
      if name = "YAML".toList then version? next
      else if name = "TAG".toList then tagDirective? next
      else none
    some ({ s with cursor := ← next.endOfLine? }.push token)

def documentMark? (s : Scan) (token : Token) : Option Scan := do
  let s ← s.endAll?
  some (s.take 3 token)

/-- Signs that cannot start a plain scalar. -/
def indicators : List Char :=
  ['-', '?', ':', ',', '[', ']', '\x7b', '\x7d', '#', '&', '*', '!', '|', '>', '\'', '"',
   '%', '@', '\x60']

def startsPlain (s : Scan) (c : Char) (rest : List Char) : Bool :=
  (!isGap c && c ∉ indicators) || (c = '-' && !rest.head?.any isBlank) ||
    (!s.inFlow && (c = '?' || c = ':') && !endsWord rest)

/-- Read the token that starts with a character. -/
def next? (s : Scan) (c : Char) (rest : List Char) : Option Scan :=
  if s.column = 0 && c = '%' then s.directive?
  else if s.cursor.atDocumentMark then
    s.documentMark? (if c = '-' then .documentStart else .documentEnd)
  else
    match c with
    | '[' => s.openFlow? .flowSequenceStart
    | '\x7b' => s.openFlow? .flowMappingStart
    | ']' => s.closeFlow? .flowSequenceEnd
    | '\x7d' => s.closeFlow? .flowMappingEnd
    | ',' => s.flowEntry?
    | '*' => s.named? .alias
    | '&' => s.named? .anchor
    | '!' => s.tag?
    | '\'' => s.quoted? true
    | '"' => s.quoted? false
    | _ =>
      if c = '-' && endsWord rest then s.blockEntry?
      else if c = '?' && (s.inFlow || endsWord rest) then s.explicitKey?
      else if c = ':' && (s.inFlow || endsWord rest) then s.value?
      else if c = '|' && !s.inFlow then s.block? true
      else if c = '>' && !s.inFlow then s.block? false
      else if s.startsPlain c rest then s.plain?
      else none

/-- All tokens. Each takes at least one character, so the length bounds their count. -/
def run (fuel : Nat) (s : Scan) : Option (List Token) :=
  match fuel with
  | 0 => none
  | fuel + 1 => do
    let s ← (s.skipGap (s.cursor.rest.length + 1)).dropStaleKey?
    let s := s.unroll s.column
    match s.cursor.rest with
    | [] => some (← (s.unroll (-1)).dropKey?).tokens.reverse
    | c :: rest => run fuel (← s.next? c rest)

end Scan

/-- The characters that may stand in a text. -/
def isPrintable (c : Char) : Bool :=
  let code := c.toNat
  code = 0x9 || code = 0xa || code = 0xd || (0x20 ≤ code && code ≤ 0x7e) || code = 0x85 ||
    (0xa0 ≤ code && code ≤ 0xfffd) || 0x10000 ≤ code

/-- The tokens of a text. -/
def Token.all? (text : List Char) : Option (List Token) :=
  if text.all isPrintable then Scan.run (text.length + 1) { cursor := { rest := text } } else none

end ResourceModels.Yaml

import ResourceModels.Text.Unicode.Alphabetic
import ResourceModels.Text.Unicode.CaseMapping
import ResourceModels.Text.Unicode.LetterCase
import ResourceModels.Text.Unicode.Numeric

/-!
# Character classes and letter case

Membership in a Unicode class is decided by the boundaries of the class: a character is inside
when an odd number of boundaries lies at or before it. ASCII characters are decided without
the tables.
-/

namespace ResourceModels.Text

/-- An odd number of boundaries lies at or before the code point. -/
def inside (boundaries : List Nat) (code : Nat) : Bool :=
  (boundaries.takeWhile (· ≤ code)).length % 2 = 1

def isAsciiDigit (c : Char) : Bool := '0' ≤ c && c ≤ '9'

def isAsciiUpper (c : Char) : Bool := 'A' ≤ c && c ≤ 'Z'

def isAsciiLower (c : Char) : Bool := 'a' ≤ c && c ≤ 'z'

def isAscii (c : Char) : Bool := c.toNat < 0x80

def isAlphabetic (c : Char) : Bool :=
  if isAscii c then isAsciiUpper c || isAsciiLower c else inside Unicode.alphabetic c.toNat

def isNumeric (c : Char) : Bool :=
  if isAscii c then isAsciiDigit c else inside Unicode.numeric c.toNat

def isAlphanumeric (c : Char) : Bool := isAlphabetic c || isNumeric c

def isUppercase (c : Char) : Bool :=
  if isAscii c then isAsciiUpper c else inside Unicode.uppercase c.toNat

def isLowercase (c : Char) : Bool :=
  if isAscii c then isAsciiLower c else inside Unicode.lowercase c.toNat

/-- The control characters: the first 32, U+007F and the 32 that follow it. -/
def isControl (c : Char) : Bool :=
  c.toNat < 0x20 || (0x7f ≤ c.toNat && c.toNat < 0xa0)

/-- The Unicode property White_Space. -/
def isBlank (c : Char) : Bool :=
  inside [0x9, 0xe, 0x20, 0x21, 0x85, 0x86, 0xa0, 0xa1, 0x1680, 0x1681, 0x2000, 0x200b, 0x2028,
    0x202a, 0x202f, 0x2030, 0x205f, 0x2060, 0x3000, 0x3001] c.toNat

namespace Unicode

def CaseRun.covers (run : CaseRun) (code : Nat) : Bool :=
  run.first ≤ code && code ≤ run.last && (code - run.first) % run.stride = 0

/-- The image of a character, which is itself where no mapping is listed. -/
def mapCase (runs : List CaseRun) (special : List (Nat × List Nat)) (c : Char) : List Char :=
  match special.lookup c.toNat with
  | some codes => codes.map Char.ofNat
  | none =>
    match runs.find? (·.covers c.toNat) with
    | some run => [Char.ofNat (c.toNat + run.offset).toNat]
    | none => [c]

end Unicode

def toUpper (c : Char) : List Char :=
  if isAscii c then [if isAsciiLower c then Char.ofNat (c.toNat - 32) else c]
  else Unicode.mapCase Unicode.upperRuns Unicode.upperSpecial c

def toLower (c : Char) : List Char :=
  if isAscii c then [if isAsciiUpper c then Char.ofNat (c.toNat + 32) else c]
  else Unicode.mapCase Unicode.lowerRuns Unicode.lowerSpecial c

/-- A text without the blanks at its ends. -/
def trim (text : List Char) : List Char :=
  ((text.dropWhile isBlank).reverse.dropWhile isBlank).reverse

end ResourceModels.Text

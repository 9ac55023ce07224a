import ResourceModels.Json.Token
import ResourceModels.Text.Character

/-!
# Tags of YAML nodes

A tag is an address, held as octets because escapes in it need not make up text. It is written out
between angle brackets, or as a handle with a suffix, where the document says what the handle stands
for. An exclamation mark alone is a tag of its own and stands for nothing else.
-/

namespace ResourceModels.Yaml

structure Tag where
  octets : List UInt8
  deriving DecidableEq, Repr

namespace Tag

def ofText (text : String) : Tag := ⟨text.toUTF8.toList⟩

/-- The tags that every document knows. -/
def standardAddress : String := "tag:yaml.org,2002:"

/-- A tag that every document knows. -/
def standard (name : String) : Tag := ofText (standardAddress ++ name)

/-- An exclamation mark alone. -/
def bare : Tag := ofText "!"

/-- What a tag of the document's own names: the text after its exclamation mark, or the mark itself
where nothing follows it. -/
def localName? (tag : Tag) : Option String :=
  match tag.octets with
  | 33 :: rest => String.fromUTF8? ⟨(if rest.isEmpty then tag.octets else rest).toArray⟩
  | _ => none

/-- The characters of a name: of an anchor, a directive or a handle. -/
def isNameChar (c : Char) : Bool :=
  Text.isAsciiDigit c || Text.isAsciiUpper c || Text.isAsciiLower c || c = '_' || c = '-'

def isSuffixChar (c : Char) : Bool :=
  isNameChar c ||
    c ∈ [';', '/', '?', ':', '@', '&', '=', '+', '$', '.', '%', '!', '~', '*', '\'', '(', ')']

/-- Three more characters may stand in an address that is written out. -/
def isAddressChar (c : Char) : Bool := isSuffixChar c || c ∈ [',', '[', ']']

/-- How many octets a character has whose first octet this is. -/
def width? (octet : Nat) : Option Nat :=
  if octet < 0x80 then some 1
  else if octet < 0xc0 then none
  else if octet < 0xe0 then some 2
  else if octet < 0xf0 then some 3
  else if octet < 0xf8 then some 4
  else none

/-- The octets of an address. A percent sign stands before the two digits of one octet, and `due`
octets have to follow to complete a character. -/
def decode? (due : Nat) : List Char → Option (List UInt8)
  | [] => if due = 0 then some [] else none
  | '%' :: high :: low :: rest => do
    let octet := 16 * (← Json.Token.hexValue? high) + (← Json.Token.hexValue? low)
    let due ←
      if due = 0 then (width? octet).map (· - 1)
      else if octet / 64 = 2 then some (due - 1)
      else none
    return octet.toUInt8 :: (← decode? due rest)
  | c :: rest => if due = 0 && c ≠ '%' then (decode? 0 rest).map (c.toNat.toUInt8 :: ·) else none

/-- The octets of an address, which ends before a zero octet. -/
def address? (text : List Char) : Option (List UInt8) :=
  (decode? 0 text).map (·.takeWhile (· ≠ 0))

/-- The text of a tag before it is known what its handle stands for. -/
inductive Written where
  /-- A tag that is written out, or an exclamation mark alone. -/
  | complete (tag : Tag)
  | short (handle : List Char) (suffix : List UInt8)
  deriving DecidableEq, Repr

/-- What handles stand for. -/
abbrev Handles := List (List Char × List UInt8)

/-- The handles that every document knows. -/
def standardHandles : Handles :=
  [(['!'], bare.octets), (['!', '!'], (ofText standardAddress).octets)]

/-- The tag that is meant; `none` for an unknown handle. -/
def Written.resolve? (handles : Handles) : Written → Option Tag
  | .complete tag => some tag
  | .short handle suffix => (handles.lookup handle).map fun address => ⟨address ++ suffix⟩

/-- A tag after its exclamation mark, and how many characters it has. -/
def read? (text : List Char) : Option (Written × Nat) :=
  match text with
  | '<' :: rest => do
    let address := rest.takeWhile isAddressChar
    if address.isEmpty || (rest.drop address.length).head? ≠ some '>' then none
    else some (.complete ⟨← address? address⟩, address.length + 2)
  | _ => do
    let name := text.takeWhile isNameChar
    let whole := text.takeWhile isSuffixChar
    if (text.drop name.length).head? = some '!' then
      let suffix := whole.drop (name.length + 1)
      if suffix.isEmpty then none
      else some (.short ('!' :: name ++ ['!']) (← address? suffix), whole.length)
    else
      let suffix ← address? whole
      some (if suffix.isEmpty then .complete bare else .short ['!'] suffix, whole.length)

/-- A handle at the front of a text, as a directive names it. -/
def handle? : List Char → Option (List Char)
  | '!' :: rest =>
    let name := rest.takeWhile isNameChar
    if (rest.drop name.length).head? = some '!' then some ('!' :: name ++ ['!'])
    else if name.isEmpty then some ['!']
    else none
  | _ => none

end Tag

end ResourceModels.Yaml

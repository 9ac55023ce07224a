import ResourceModels.Yaml.Token

/-!
# Reading YAML nodes from tokens

One document of one node. What is missing, such as a value after a colon, is an empty plain scalar.
The number of tokens bounds both how deep nodes are nested and how many stand beside each other.
-/

namespace ResourceModels.Yaml

/-- The tokens that are left, and what is known of the document so far. -/
structure Input where
  tokens : List Token
  handles : Tag.Handles := Tag.standardHandles
  /-- The number of each anchor. -/
  anchors : List (List Char × Nat) := []
  /-- The nodes that have an anchor by its number, the one that started last first. -/
  targets : List (Nat × Yaml) := []

abbrev Reader := StateT Input Option

namespace Reader

def peek : Reader (Option Token) := return (← get).tokens.head?

def skip : Reader Unit := modify fun input => { input with tokens := input.tokens.drop 1 }

def isNext (token : Token) : Reader Bool := return (← peek) = some token

/-- A node, or the empty one where one of the given tokens follows. -/
def nodeUnless (node : Reader Yaml) (ends : List Token) : Reader Yaml := do
  match ← peek with
  | some token => if token ∈ ends then return Yaml.empty else node
  | none => node

/-- The entries of a block sequence after its start. -/
def blockEntries (node : Reader Yaml) : Nat → Reader (List Yaml)
  | 0 => failure
  | fuel + 1 => do
    match ← peek with
    | some .blockEnd => skip; return []
    | some .blockEntry =>
      skip
      let item ← nodeUnless node [.blockEntry, .blockEnd]
      return item :: (← blockEntries node fuel)
    | _ => failure

/-- The entries of a sequence at the indentation of the mapping around it, which nothing ends. -/
def bareEntries (node : Reader Yaml) : Nat → Reader (List Yaml)
  | 0 => failure
  | fuel + 1 => do
    if ← isNext .blockEntry then
      skip
      let item ← nodeUnless node [.blockEntry, .key, .value, .blockEnd]
      return item :: (← bareEntries node fuel)
    else return []

def valueAfter (node : Reader Yaml) (ends : List Token) : Reader Yaml := do
  if ← isNext .value then
    skip
    nodeUnless node ends
  else return Yaml.empty

/-- The members of a block mapping after its start. -/
def blockMembers (node : Reader Yaml) : Nat → Reader (List (Yaml × Yaml))
  | 0 => failure
  | fuel + 1 => do
    match ← peek with
    | some .blockEnd => skip; return []
    | some .key =>
      skip
      let key ← nodeUnless node [.key, .value, .blockEnd]
      let value ← valueAfter node [.key, .value, .blockEnd]
      return (key, value) :: (← blockMembers node fuel)
    | _ => failure

/-- A comma between two entries of a flow. -/
def separator (first : Bool) : Reader Unit :=
  if first then return ()
  else do
    if ← isNext .flowEntry then skip else failure

/-- The member of a flow sequence after the mark of a key. Where no key follows the mark, the token
after it is passed over, whatever it is. -/
def flowPair (node : Reader Yaml) : Reader (Yaml × Yaml) := do
  let ends := [.flowEntry, .flowSequenceEnd]
  match ← peek with
  | some token =>
    if token ∈ .value :: ends then
      skip
      return (Yaml.empty, ← valueAfter node ends)
    else
      let key ← node
      return (key, ← valueAfter node ends)
  | none => failure

/-- The items of a flow sequence after its start. A key with its value is a mapping of its own. -/
def flowItems (node : Reader Yaml) (first : Bool) : Nat → Reader (List Yaml)
  | 0 => failure
  | fuel + 1 => do
    if ← isNext .flowSequenceEnd then
      skip
      return []
    separator first
    match ← peek with
    | some .flowSequenceEnd => skip; return []
    | some .key =>
      skip
      let pair ← flowPair node
      return .mapping [pair] :: (← flowItems node false fuel)
    | _ =>
      let item ← node
      return item :: (← flowItems node false fuel)

/-- The members of a flow mapping after its start. -/
def flowMembers (node : Reader Yaml) (first : Bool) : Nat → Reader (List (Yaml × Yaml))
  | 0 => failure
  | fuel + 1 => do
    if ← isNext .flowMappingEnd then
      skip
      return []
    separator first
    match ← peek with
    | some .flowMappingEnd => skip; return []
    | some .key =>
      skip
      let key ← nodeUnless node [.value, .flowEntry, .flowMappingEnd]
      let value ← valueAfter node [.flowEntry, .flowMappingEnd]
      return (key, value) :: (← flowMembers node false fuel)
    | _ =>
      let key ← node
      return (key, Yaml.empty) :: (← flowMembers node false fuel)

/-- What stands before a node. -/
structure Properties where
  anchor : Option (List Char) := none
  tag : Option Tag := none

/-- The anchor and the tag before a node, in either order, at most one of each. -/
def properties (found : Properties) : Nat → Reader Properties
  | 0 => return found
  | fuel + 1 => do
    match ← peek, found.anchor, found.tag with
    | some (.anchor name), none, _ =>
      skip
      properties { found with anchor := some name } fuel
    | some (.tag written), _, none =>
      skip
      let tag ← (written.resolve? (← get).handles : Option Tag)
      properties { found with tag := some tag } fuel
    | _, _, _ => return found

/-- Number an anchor by how many there were before it. A name that is used again is numbered anew
but counts once, so two names can come to have the same number. -/
def number (name : List Char) : Reader Nat :=
  modifyGet fun input =>
    let number := input.anchors.length
    let others := input.anchors.filter (·.1 ≠ name)
    (number, { input with anchors := (name, number) :: others })

/-- Read a node and remember it by its anchor. It comes behind those that start inside it. -/
def anchored (name : Option (List Char)) (node : Reader Yaml) : Reader Yaml :=
  match name with
  | none => node
  | some name => do
    let number ← number name
    let before := (← get).targets.length
    let node ← node
    modify fun input =>
      let inside := input.targets.length - before
      { input with
        targets := input.targets.take inside ++ (number, node) :: input.targets.drop inside }
    return node

/-- A reference by the name of an anchor that has been read. -/
def reference (name : List Char) : Reader Yaml := do
  match (← get).anchors.lookup name with
  | some number => return .reference number
  | none => failure

/-- A node. `block` allows blocks, and `bare` a sequence that is not indented. -/
def node (fuel : Nat) (block bare : Bool) : Reader Yaml :=
  match fuel with
  | 0 => failure
  | fuel + 1 => do
    if let some (.alias name) ← peek then
      skip
      reference name
    else
      let ⟨anchor, tag⟩ ← properties {} 2
      let count := fuel + 1
      anchored anchor do
        match ← peek, block, bare with
        | some (.scalar style text), _, _ => skip; return .scalar tag style text
        | some .flowSequenceStart, _, _ =>
          skip
          return .sequence (← flowItems (node fuel false false) true count)
        | some .flowMappingStart, _, _ =>
          skip
          return .mapping (← flowMembers (node fuel false false) true count)
        | some .blockEntry, _, true =>
          return .sequence (← bareEntries (node fuel true false) count)
        | some .blockSequenceStart, true, _ =>
          skip
          return .sequence (← blockEntries (node fuel true false) count)
        | some .blockMappingStart, true, _ =>
          skip
          return .mapping (← blockMembers (node fuel true true) count)
        | _, _, _ => if anchor.isSome || tag.isSome then return .scalar tag .plain "" else failure

/-- The directives before a document: one version at most, and each handle once. -/
def directives (versioned : Bool) (handles : List (List Char)) : Nat → Reader Bool
  | 0 => failure
  | fuel + 1 => do
    match ← peek with
    | some .version =>
      if versioned then failure
      else
        skip
        let _ ← directives true handles fuel
        return true
    | some (.tagHandle handle address) =>
      if handle ∈ handles then failure
      else
        skip
        modify fun input => { input with handles := (handle, address) :: input.handles }
        let _ ← directives versioned (handle :: handles) fuel
        return true
    | _ => return false

/-- The marks that end the last document. Nothing may follow them. -/
def finish : Nat → Reader Unit
  | 0 => failure
  | fuel + 1 => do
    match ← peek with
    | none => return ()
    | some .documentEnd => skip; finish fuel
    | some _ => failure

/-- A document of its own, or one after the mark that starts it. -/
def document (fuel : Nat) : Reader Yaml := do
  let directed ← directives false [] fuel
  let started ← isNext .documentStart
  if directed && !started then failure
  if started then
    skip
    match ← peek with
    | none | some .version | some (.tagHandle _ _) | some .documentStart | some .documentEnd =>
      return Yaml.empty
    | some _ => node fuel true false
  else node fuel true false

end Reader

/-- The one document of a text. A text without any tokens holds nothing. -/
def Document.ofText? (text : String) : Option Document := do
  let tokens ← Token.all? text.toList
  if tokens.isEmpty then some ⟨Yaml.empty, []⟩
  else
    let fuel := tokens.length + 1
    let (root, input) ← (Reader.document fuel).run { tokens }
    let _ ← (Reader.finish fuel).run input
    some ⟨root, input.targets⟩

end ResourceModels.Yaml

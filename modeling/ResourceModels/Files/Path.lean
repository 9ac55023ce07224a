import ResourceModels.Text.Words

/-!
# Paths

A path is its text, a row of segments with a slash between two of them. A leading slash makes it
absolute. An empty segment, and a `.` after the first segment, name nothing and are passed over
when a path is taken apart; they stay in the text of a path that is only extended.
-/

namespace ResourceModels

structure Path where
  text : String
  deriving DecidableEq, Repr, Inhabited

namespace Path

def startsWithSlash (text : String) : Bool := ['/'].isPrefixOf text.toList

def isAbsolute (path : Path) : Bool := startsWithSlash path.text

def endsWithSlash (path : Path) : Bool := ['/'].isSuffixOf path.text.toList

/-- What stands between the slashes. An absolute path starts with an empty segment. -/
def segments (path : Path) : List String :=
  (Text.pieces (· = '/') path.text.toList).map String.ofList

/-- A segment that names nothing. -/
def isIdle (segment : String) : Bool := segment = "" || segment = "."

/-- Remove idle segments at the end. The first segment stays. -/
def trimmed : List String → List String
  | [] => []
  | first :: rest => first :: (rest.reverse.dropWhile isIdle).reverse

/-- The path of trimmed segments, where a lone empty one is the root. -/
def ofSegments : List String → Path
  | [""] => ⟨"/"⟩
  | segments => ⟨"/".intercalate segments⟩

/-- Extend a path. An absolute segment replaces the whole path, and an empty one adds no more
than a slash. -/
def push (path : Path) (segment : String) : Path :=
  if startsWithSlash segment then ⟨segment⟩
  else if path.text = "" || path.endsWithSlash then ⟨path.text ++ segment⟩
  else ⟨path.text ++ "/" ++ segment⟩

/-- The path without its last component. The root and the empty path have no parent. -/
def parent? (path : Path) : Option Path :=
  match trimmed path.segments with
  | [] | [""] => none
  | [_] => some ⟨""⟩
  | segments => some (ofSegments (trimmed segments.dropLast))

/-- The last component, if it is a name. -/
def name? (path : Path) : Option String :=
  (trimmed path.segments).getLast?.filter (· ∉ ["", ".", ".."])

/-- Put another name in the place of the last component, or after a path that ends in none. -/
def withName (path : Path) (name : String) : Path :=
  match path.name? with
  | none => path.push name
  | some _ => (path.parent?.getD path).push name

/-- Split a name at its last dot. A dot at the start does not count. -/
def splitAtDot (name : List Char) : List Char × Option (List Char) :=
  match name.reverse.dropWhile (· ≠ '.') with
  | [] | ['.'] => (name, none)
  | _ :: stem => (stem.reverse, some (name.reverse.takeWhile (· ≠ '.')).reverse)

def stem? (path : Path) : Option String :=
  path.name?.map fun name => String.ofList (splitAtDot name.toList).1

def extension? (path : Path) : Option String :=
  path.name?.bind fun name => (splitAtDot name.toList).2.map String.ofList

/-- Exactly two slashes at the start are kept: they may name another root. -/
def root (path : Path) : Path :=
  match path.text.toList with
  | '/' :: '/' :: '/' :: _ => ⟨"/"⟩
  | '/' :: '/' :: _ => ⟨"//"⟩
  | _ => ⟨"/"⟩

/-- The path as seen from the root, without idle segments. Climbing segments stay, because what
they lead to is for the file system to say, and so does a slash at the end. -/
def absolute (home path : Path) : Path :=
  let start := if path.isAbsolute then path.root else home
  let full := (path.segments.filter (!isIdle ·)).foldl push start
  if path.endsWithSlash then full.push "" else full

end Path

end ResourceModels

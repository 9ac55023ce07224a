import ResourceModels.Entries
import ResourceModels.Files.Path

/-!
# File systems

A tree of directories and regular files, with the directory in which relative paths start and
the places at which nothing can be created. A path is followed segment by segment, and every
segment but the last has to lead to a directory that exists. Operations that change the tree
return it in either case, because a failure may come after a part of the change.

Whether a file can be written depends on its place and on nothing else, and a file that cannot be
written stays as it is. Failures that depend on the content or on the moment, such as a disk that
fills up while a file is being written and leaves it cut off, have no place here.
-/

namespace ResourceModels

/-- Content that is text in UTF-8 is held as that text. -/
inductive Content where
  | text (text : String)
  | binary (bytes : List UInt8)
  deriving DecidableEq, Repr, Inhabited

def Content.ofBytes (bytes : ByteArray) : Content :=
  match String.fromUTF8? bytes with
  | some decoded => .text decoded
  | none => .binary bytes.toList

def Content.bytes : Content → ByteArray
  | .text content => content.toUTF8
  | .binary content => ⟨content.toArray⟩

inductive FileNode where
  | file (content : Content)
  | directory (entries : List (String × FileNode))
  deriving Repr, Inhabited

namespace FileNode

def isDirectory : FileNode → Bool
  | .directory _ => true
  | .file _ => false

def entry? : FileNode → String → Option FileNode
  | .directory entries, name => Entries.get? entries name
  | .file _, _ => none

/-- The node that a row of names leads to. -/
def find? (node : FileNode) : List String → Option FileNode
  | [] => some node
  | name :: names => (node.entry? name).bind (·.find? names)

/-- Put a node where a row of names leads to. Directories on the way have to be there. -/
def put (node new : FileNode) : List String → FileNode
  | [] => new
  | name :: names =>
    match node with
    | .file content => .file content
    | .directory entries =>
      match Entries.get? entries name with
      | some below => .directory (Entries.insert entries name (below.put new names))
      | none => if names = [] then .directory (Entries.insert entries name new) else node

/-- Remove what a row of names leads to. -/
def remove (node : FileNode) : List String → FileNode
  | [] => node
  | [name] =>
    match node with
    | .file content => .file content
    | .directory entries => .directory (Entries.erase entries name)
  | name :: names =>
    match node with
    | .file content => .file content
    | .directory entries =>
      match Entries.get? entries name with
      | some below => .directory (Entries.insert entries name (below.remove names))
      | none => node

mutual

/-- All regular files below a node, depth first, with siblings in the order of their names. -/
def files : FileNode → List (List String × Content)
  | .file content => [([], content)]
  | .directory entries =>
    ((filesOfEntries entries).mergeSort fun a b => decide (a.1 ≤ b.1)).flatMap
      fun (name, below) => below.map fun (names, content) => (name :: names, content)

/-- The regular files below each of the entries. -/
def filesOfEntries : List (String × FileNode) → List (String × List (List String × Content))
  | [] => []
  | (name, node) :: rest => (name, files node) :: filesOfEntries rest

end

end FileNode

structure FileSystem where
  /-- The directory at the top. -/
  top : FileNode
  /-- The names that lead to the directory in which relative paths start. -/
  home : List String
  /-- Where nothing can be created or written, whatever the content and at any time. -/
  refuses : List String → Bool := fun _ => false

namespace FileSystem

/-- A file system with nothing but its home directory. -/
def empty (home : List String) : FileSystem :=
  ⟨home.foldr (fun name node => .directory [(name, node)]) (.directory []), home, fun _ => false⟩

def node? (fs : FileSystem) (place : List String) : Option FileNode := fs.top.find? place

def isDirectoryAt (fs : FileSystem) (place : List String) : Bool :=
  (fs.node? place).any FileNode.isDirectory

/-- No name longer than this many bytes can be created. -/
def nameLimit : Nat := 255

/-- Text that can be handed to the system as a path. -/
def isUsable (path : Path) : Bool := path.text ≠ "" && path.text.toList.all (· ≠ '\x00')

def start (fs : FileSystem) (path : Path) : List String :=
  if path.isAbsolute then [] else fs.home

/-- Where a segment leads to from a place, whether that is a directory or not. -/
def advance (place : List String) (segment : String) : List String :=
  if Path.isIdle segment then place else if segment = ".." then place.dropLast
  else place ++ [segment]

/-- Follow segments. All places but the last have to be directories. -/
def follow (fs : FileSystem) (place : List String) : List String → Option (List String)
  | [] => some place
  | segment :: rest =>
    if fs.isDirectoryAt place then fs.follow (advance place segment) rest else none

/-- The place that a path names. What stands there need not exist. -/
def place? (fs : FileSystem) (path : Path) : Option (List String) :=
  if isUsable path then fs.follow (fs.start path) path.segments else none

def find? (fs : FileSystem) (path : Path) : Option FileNode := (fs.place? path).bind fs.node?

def isDirectory (fs : FileSystem) (path : Path) : Bool := (fs.find? path).any FileNode.isDirectory

/-- The text of a file, if there is such a file and it holds text. -/
def readText? (fs : FileSystem) (path : Path) : Option String :=
  match fs.find? path with
  | some (.file (.text text)) => some text
  | _ => none

def absolute (fs : FileSystem) (path : Path) : Path :=
  Path.absolute ⟨"/" ++ "/".intercalate fs.home⟩ path

/-- The regular files of a directory at any depth, under paths that start with its own. -/
def filesBelow (fs : FileSystem) (path : Path) : List (Path × Content) :=
  match fs.find? path with
  | none => []
  | some node => node.files.map fun (names, content) => (names.foldl Path.push path, content)

/-- The regular files that `before` does not have, or has with other content. -/
def changes (before after : FileSystem) : List (List String × Content) :=
  after.top.files.filter (· ∉ before.top.files)

/-- Whether the last name of a place may be given to something new. -/
def admits (fs : FileSystem) (place : List String) : Bool :=
  (place.getLast?.getD "").utf8ByteSize ≤ nameLimit && !fs.refuses place

def put (fs : FileSystem) (place : List String) (node : FileNode) : FileSystem :=
  { fs with top := fs.top.put node place }

def remove (fs : FileSystem) (path : Path) : FileSystem :=
  match fs.place? path with
  | none => fs
  | some place => { fs with top := fs.top.remove place }

/-- Follow segments and create the directories that are missing. The answer says whether the whole
way is there in the end. -/
def createAlong (fs : FileSystem) (place : List String) : List String → Bool × FileSystem
  | [] => (true, fs)
  | segment :: rest =>
    let next := advance place segment
    match fs.node? next with
    | some (.directory _) => fs.createAlong next rest
    | some (.file _) => (false, fs)
    | none =>
      if fs.admits next then (fs.put next (.directory [])).createAlong next rest else (false, fs)

/-- Create a directory and those above it. The empty path is always there. -/
def createDirectories (fs : FileSystem) (path : Path) : Bool × FileSystem :=
  if path.text = "" then (true, fs)
  else if isUsable path then fs.createAlong (fs.start path) path.segments
  else (false, fs)

/-- Write a file into a directory that exists. It is written whole or not at all. -/
def write (fs : FileSystem) (path : Path) (content : Content) : Bool × FileSystem :=
  match fs.place? path with
  | none => (false, fs)
  | some place =>
    if !fs.isDirectoryAt place && fs.admits place then (true, fs.put place (.file content))
    else (false, fs)

/-- Write a file, with the directories above it. A failure names the path that could not be
created. -/
def save (fs : FileSystem) (path : Path) (content : Content) : Except Path Unit × FileSystem :=
  match path.parent? with
  | none =>
    match fs.write path content with
    | (true, fs) => (.ok (), fs)
    | (false, fs) => (.error path, fs)
  | some parent =>
    match fs.createDirectories parent with
    | (false, fs) => (.error parent, fs)
    | (true, fs) =>
      match fs.write path content with
      | (true, fs) => (.ok (), fs)
      | (false, fs) => (.error path, fs)

end FileSystem

end ResourceModels

import ResourceModels.Entries
import ResourceModels.Code.Identifier

/-!
# Relative imports

How one generated module is imported from another: climb from the importing module's package by
dots, then descend by the dotted package, then take the name.
-/

namespace ResourceModels

namespace Code

structure RelativeImport where
  dots : Nat
  package : String
  name : String
  /-- The name the module is bound to, where it is not its own. -/
  boundAs : Option String := none
  deriving DecidableEq, Repr

namespace RelativeImport

/-- How many leading segments two packages share. -/
def shared : List String → List String → Nat
  | a :: as, b :: bs => if a = b then shared as bs + 1 else 0
  | _, _ => 0

/-- The import of the module `target` in the module `current`. -/
def between (current target : ModulePath) : RelativeImport :=
  let package := (modulePath current).dropLast
  let target := modulePath target
  let common := shared package target.dropLast
  { dots := package.length - common + 1
    package := ".".intercalate (target.dropLast.drop common)
    name := target.getLast?.getD "" }

def fromClause (relative : RelativeImport) : String :=
  String.ofList (List.replicate relative.dots '.') ++ relative.package

def binding (relative : RelativeImport) : String := relative.boundAs.getD relative.name

/-- Deeper climbs first, then by package, then by name. -/
def le (a b : RelativeImport) : Bool :=
  if a.dots ≠ b.dots then b.dots < a.dots
  else if a.package ≠ b.package then decide (a.package < b.package)
  else decide (a.name ≤ b.name)

/-- As `le`, but imports under another name follow the plain ones of their package. -/
def lineLe (a b : RelativeImport) : Bool :=
  if a.dots ≠ b.dots then b.dots < a.dots
  else if a.package ≠ b.package then decide (a.package < b.package)
  else if a.boundAs.isSome ≠ b.boundAs.isSome then b.boundAs.isSome
  else decide (a.name ≤ b.name)

end RelativeImport

/-- The modules that a module refers to, each with its import. -/
abbrev Imports := Entries ModulePath RelativeImport

namespace Imports

/-- Remove repetitions from a sorted list. -/
def distinct : List ModulePath → List ModulePath
  | [] => []
  | [path] => [path]
  | first :: second :: rest =>
    if first = second then distinct (second :: rest) else first :: distinct (second :: rest)

/-- The name with the first free number after it. -/
def numbered (bound : List String) (name : String) : String :=
  (((List.range (bound.length + 1)).map fun i => name ++ "_" ++ toString (i + 1)).find?
    (· ∉ bound)).getD ""

/-- Bind each import to its own name, or to a numbered one where that is taken. -/
def bind (bound : List String) : Imports → Imports
  | [] => []
  | (path, relative) :: rest =>
    if relative.name ∈ bound then
      let name := numbered bound relative.name
      (path, { relative with boundAs := some name }) :: bind (name :: bound) rest
    else (path, relative) :: bind (relative.name :: bound) rest

/-- The imports that the module `current` needs for the modules it refers to. -/
def between (current : ModulePath) (referenced : List ModulePath) : Imports :=
  let others := distinct ((referenced.filter (· ≠ current)).mergeSort ModulePath.le)
  bind [] ((others.map fun path => (path, RelativeImport.between current path)).mergeSort
    fun a b => a.2.le b.2)

/-- Add an import line to the lines so far, last first. Plain names of one package share a line,
as long as nothing else comes between. -/
def addLine (lines : List (String × List String × Bool)) (relative : RelativeImport) :
    List (String × List String × Bool) :=
  match relative.boundAs, lines with
  | some name, lines =>
    (relative.fromClause, [relative.name ++ " as " ++ name], false) :: lines
  | none, (clause, names, true) :: rest =>
    if clause = relative.fromClause then (clause, names ++ [relative.name], true) :: rest
    else (relative.fromClause, [relative.name], true) :: (clause, names, true) :: rest
  | none, lines => (relative.fromClause, [relative.name], true) :: lines

/-- The import lines, deepest first. -/
def lines (imports : Imports) : List String :=
  let sorted := ((imports.mergeSort fun a b => ModulePath.le a.1 b.1).map Prod.snd).mergeSort
    RelativeImport.lineLe
  (sorted.foldl addLine []).reverse.map fun (clause, names, _) =>
    "from " ++ clause ++ " import " ++ ", ".intercalate names

end Imports

end Code

end ResourceModels

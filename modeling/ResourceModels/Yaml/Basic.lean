import ResourceModels.Yaml.Tag

/-!
# YAML nodes

A node is a scalar, a sequence, a mapping, or a reference to a node that has an anchor. Scalars keep
how they were written and their tag, because only a plain scalar can stand for nothing at all and a
tag can say otherwise. A reference holds the number of an anchor: what it stands for is known only
at the end of the document, and may hold the reference itself.
-/

namespace ResourceModels

namespace Yaml

/-- How a scalar is written. -/
inductive Style where
  | plain
  | quoted
  | literal
  | folded
  deriving DecidableEq, Repr

end Yaml

inductive Yaml where
  | scalar (tag : Option Yaml.Tag) (style : Yaml.Style) (text : String)
  | sequence (items : List Yaml)
  | mapping (members : List (Yaml × Yaml))
  | reference (anchor : Nat)
  deriving Repr, Inhabited

namespace Yaml

/-- What stands where nothing is written. -/
def empty : Yaml := .scalar none .plain ""

def text? : Yaml → Option String
  | .scalar _ _ text => some text
  | _ => none

/-- A node with the nodes that have an anchor, by its number. Of several with the same number the
first one counts. -/
structure Document where
  root : Yaml
  targets : List (Nat × Yaml) := []
  deriving Repr, Inhabited

/-- What a reference stands for, and every other node itself. -/
def Document.follow? (document : Document) : Yaml → Option Yaml
  | .reference anchor => document.targets.lookup anchor
  | node => some node

end Yaml

end ResourceModels

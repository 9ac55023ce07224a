import ResourceModels.Code.ModuleText

/-!
# Packages

The units of a whole model set: one for each module, and an empty initializer for every package
on the way to one, all in the order of their namespaces.
-/

namespace ResourceModels

/-- A generated source text and the namespace it belongs to. -/
structure GeneratedUnit where
  path : ModulePath
  body : String
  deriving DecidableEq, Repr

def GeneratedUnit.le (a b : GeneratedUnit) : Bool := ModulePath.le a.path b.path

namespace Code

/-- Every non-empty proper start of a namespace. -/
def packagesAbove (path : ModulePath) : List ModulePath :=
  (List.range (path.length - 1)).map fun i => path.take (i + 1)

/-- An initializer for every package that encloses one of the modules. -/
def initializers (paths : List ModulePath) : List GeneratedUnit :=
  (Imports.distinct ((paths.flatMap packagesAbove).mergeSort ModulePath.le)).map fun package =>
    ⟨package ++ [initModule], ""⟩

def fileExtension : String := "py"

/-- The units of a model set. -/
def generate (style : Style) (set : ModelSet) : List GeneratedUnit :=
  let ranks := declarationOrder set
  let units : List GeneratedUnit :=
    set.map fun home => ⟨modulePath home.path, moduleText style ranks home⟩
  (units ++ initializers (units.map GeneratedUnit.path)).mergeSort GeneratedUnit.le

end Code

end ResourceModels

import ResourceModels.Names

/-!
# References between schemas

A reference names a schema of the same document, under one of two locations. The name may hold
anything, but it is not empty.
-/

namespace ResourceModels

inductive DerivationError where
  | invalidReference (path : String)
  | unresolvedReference (path schema : String)
  | invalidSchema (name : String)
  deriving DecidableEq, Repr

/-- The wording, where it is the program's own. -/
def DerivationError.message : DerivationError → Option String
  | .invalidReference path => some ("invalid reference format: " ++ path)
  | .unresolvedReference path schema =>
    some ("unresolved reference " ++ path ++ " in " ++ schema)
  | .invalidSchema _ => none

namespace Reference

/-- Where a document keeps its schemas. -/
def locations : List String := ["#/components/schemas/", "#/definitions/"]

/-- What follows a start, if the text has it. -/
def after? : List Char → List Char → Option (List Char)
  | [], text => some text
  | _ :: _, [] => none
  | c :: start, d :: text => if c = d then after? start text else none

/-- The name of the schema a reference points at. -/
def target (path : String) : Except DerivationError String :=
  match locations.findSome? fun location => after? location.toList path.toList with
  | some (c :: rest) => .ok (String.ofList (c :: rest))
  | _ => .error (.invalidReference path)

end Reference

end ResourceModels

import ResourceModels.Files.FileSystem
import ResourceModels.Derivation.Document

/-!
# From files to a model set

Each file holds a document whose bucket is the stem of its name. Modules of one namespace are put
together, in the order of the files, and the modules are sorted by namespace.
-/

namespace ResourceModels

inductive SpecsError where
  | unreadable (path : Path)
  | malformed (path : Path) (error : DocumentError)
  | derivation (error : DerivationError)
  deriving DecidableEq, Repr

namespace Derivation

/-- The document that a file holds. -/
def load (fs : FileSystem) (path : Path) : Except SpecsError Document :=
  match fs.readText? path with
  | none => .error (.unreadable path)
  | some text => do
    let document ← (Document.parse text).mapError (.malformed path)
    (document.checkVersion).mapError (.malformed path)
    .ok document

/-- The modules of one file. -/
def ofFile (conventions : Conventions) (collapse : Bool) (fs : FileSystem) (path : Path) :
    Except SpecsError (List Module) := do
  let document ← load fs path
  (ofSchemas (path.stem?.getD "") conventions collapse document.schemas).mapError .derivation

/-- The modules of all files, one file after another. -/
def modulesOf (conventions : Conventions) (collapse : Bool) (fs : FileSystem) :
    List Path → Except SpecsError (List Module)
  | [] => .ok []
  | path :: rest =>
    match ofFile conventions collapse fs path with
    | .error error => .error error
    | .ok modules => do
      let more ← modulesOf conventions collapse fs rest
      .ok (modules ++ more)

/-- Put together the models of modules that share a namespace. -/
def unite (modules : List Module) : List Module :=
  (modules.foldl
    (fun united (home : Module) => Entries.alter united home.path home.models (· ++ home.models))
    ([] : Entries ModulePath (List Model))).map fun (path, models) => ⟨path, models⟩

/-- The model set of all files. -/
def ofFiles (conventions : Conventions) (collapse : Bool) (fs : FileSystem) (paths : List Path) :
    Except SpecsError ModelSet := do
  let modules ← modulesOf conventions collapse fs paths
  .ok ((unite modules).mergeSort fun a b => ModulePath.le a.path b.path)

end Derivation

end ResourceModels

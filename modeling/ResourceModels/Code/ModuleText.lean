import ResourceModels.Code.DeclarationOrder
import ResourceModels.Code.Hint
import ResourceModels.Code.Layout

/-!
# The text of a module

A module is a fixed first line, groups of import lines, and its classes in the order of their ranks.
An object is a class with a field for each property, an enumeration a class with a member for
each value, and any other declaration a class around its one value.
-/

namespace ResourceModels.Code

/-- How generated source is to look. -/
structure Style where
  wrapText : Bool := true
  preferDouble : Bool := true
  /-- Write the default of a field as a keyword argument. -/
  defaultKeyword : Bool := true
  lineLength : Nat := 88
  deriving DecidableEq, Repr

def Style.layout (style : Style) : Layout :=
  ⟨style.lineLength, style.preferDouble, style.wrapText⟩

/-- The lines of a class, and the library names they use. -/
structure ClassText where
  lines : List String
  uses : List LibraryName
  deriving DecidableEq, Repr

namespace ClassText

def emptyBody : String := Layout.pad Layout.level "pass"

/-- The default of a field as source. A field without a default has none if it is required,
and null otherwise. -/
def defaultSource? (style : Style) (field : Field ModelType) : Option String :=
  match field.default, field.required with
  | none, true => none
  | default, _ => some (value style.preferDouble (default.getD .null))

/-- What a field call starts with: the default, or dots where there is none. -/
def leading (style : Style) : Option String → Argument
  | none => .positional "..."
  | some source => if style.defaultKeyword then .keyword "default" source else .positional source

/-- The arguments that make a call necessary. -/
def notes (style : Style) (wireName description : Option String) : List Argument :=
  (wireName.map fun name => Argument.keyword "alias" (quote style.preferDouble name)).toList ++
    (description.map (Argument.text "description")).toList

/-- The lines of one field. -/
def ofField (style : Style) (current : ModulePath) (imports : Imports)
    (field : Field ModelType) : ClassText :=
  let (name, wireName) := fieldName field.name
  let plain := Hint.ofType current imports field.type
  let hint := if field.isOptional then plain.optional else plain
  let target := name ++ ": " ++ hint.text
  let default := defaultSource? style field
  match notes style wireName field.description with
  | [] => ⟨Layout.assignment Layout.level target default, hint.uses⟩
  | notes =>
    ⟨style.layout.fieldCall Layout.level target (leading style default :: notes),
      .field :: hint.uses⟩

def ofObject (style : Style) (current : ModulePath) (imports : Imports)
    (model : ObjectModel ModelType) : ClassText :=
  let fields := model.fields.map (ofField style current imports)
  let body := if fields.isEmpty then [emptyBody] else fields.flatMap ClassText.lines
  ⟨("class " ++ model.name ++ "(BaseModel):") :: body,
    .baseModel :: fields.flatMap ClassText.uses⟩

/-- The member names to try for a value: the name itself, then with numbers. -/
def memberCandidates (base : String) (numbered : Nat) : List String :=
  base :: (List.range numbered).map fun i => base ++ "_" ++ toString (i + 1)

/-- The first free member name. More names are tried than are taken. -/
def freeMember (taken : List String) (base : String) : String :=
  ((memberCandidates base taken.length).find? (· ∉ taken)).getD base

/-- The members of an enumeration: each value with its name. -/
def members (taken : List String) : List String → List (String × String)
  | [] => []
  | value :: rest =>
    let name := freeMember taken (memberName value)
    (name, value) :: members (name :: taken) rest

def ofEnum (style : Style) (model : EnumModel) : ClassText :=
  let body :=
    if model.variants.isEmpty then [emptyBody]
    else (members [] model.variants).map fun (name, value) =>
      Layout.pad Layout.level (name ++ " = " ++ quote style.preferDouble value)
  ⟨("class " ++ model.name ++ "(Enum):") :: body, [.enum]⟩

def ofAlias (style : Style) (current : ModulePath) (imports : Imports) (model : AliasModel) :
    ClassText :=
  let hint := Hint.ofType current imports model.target
  let target := "root: " ++ hint.text
  let head := "class " ++ model.name ++ "(RootModel[" ++ hint.text ++ "]):"
  match model.description with
  | some description =>
    ⟨head :: style.layout.fieldCall Layout.level target
        [.positional "...", .text "description" description],
      .rootModel :: .field :: hint.uses⟩
  | none => ⟨head :: Layout.assignment Layout.level target none, .rootModel :: hint.uses⟩

def ofModel (style : Style) (current : ModulePath) (imports : Imports) : Model → ClassText
  | .object model => ofObject style current imports model
  | .enum model => ofEnum style model
  | .alias model => ofAlias style current imports model

end ClassText

namespace ModuleText

/-- Ranked declarations first, by rank; the others keep their order after them. -/
def rankLe (a b : Option Nat) : Bool :=
  match a, b with
  | some a, some b => a ≤ b
  | some _, none => true
  | none, some _ => false
  | none, none => true

def arranged (ranks : DeclarationOrder.Ranks) (home : Module) : List Model :=
  let rank (model : Model) := Entries.get? ranks ⟨home.path, model.name⟩
  home.models.mergeSort fun a b => rankLe (rank a) (rank b)

def firstLine : String := "from __future__ import annotations"

/-- Groups of import lines, those that are empty left out. -/
def importGroups (uses : List LibraryName) (imports : Imports) : List (List String) :=
  [Library.standardLines uses, (Library.pydantic.importLine? uses).toList, imports.lines].filter
    (!·.isEmpty)

def joinLines (lines : List String) : String := String.join (lines.map (· ++ "\n"))

/-- A blank line stands before each group of imports, and two before each class. -/
def assemble (groups classes : List (List String)) : String :=
  firstLine ++ "\n" ++ String.join (groups.map fun lines => "\n" ++ joinLines lines) ++
    String.join (classes.map fun lines => "\n\n" ++ joinLines lines)

/-- The modules that the declarations of a module refer to. -/
def referenced (home : Module) : List ModulePath :=
  home.models.flatMap fun model => model.refs.map ClassRef.path

end ModuleText

/-- The source of a module. -/
def moduleText (style : Style) (ranks : DeclarationOrder.Ranks) (home : Module) : String :=
  let imports := Imports.between home.path (ModuleText.referenced home)
  let classes := (ModuleText.arranged ranks home).map (ClassText.ofModel style home.path imports)
  ModuleText.assemble (ModuleText.importGroups (classes.flatMap ClassText.uses) imports)
    (classes.map ClassText.lines)

end ResourceModels.Code

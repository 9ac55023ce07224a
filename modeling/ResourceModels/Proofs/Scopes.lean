import Mathlib
import ResourceModels.Code.Package
import ResourceModels.Proofs.FileOrder
import ResourceModels.Proofs.GivenNames
import ResourceModels.Proofs.Imports

/-!
# What bare names mean in a module

A hint names a class of its own module, a library name, a built-in type or the binding of another
module, all of them bare. Each such name is built in, imported or declared in the module. It has
just one of these meanings, and no attribute beside it hides it, where the names of classes, the
names of attributes and the names of modules keep apart (`bare_names_clear`). Nothing in the
derivation sees to that: a class takes the name its property suggests, be it one that the module
imports (`InlineProperty.any_has_two_meanings`).
-/

namespace ResourceModels

namespace Code

namespace Hint

/-- The built-in names that hints use. -/
def builtins : List String := ["str", "float", "int", "bool", "bytes", "None"]

mutual

/-- The names that stand bare in a hint, which leaves out those behind a binding. -/
def bareNames : Hint → List String
  | .plain text => [text]
  | .library name => [name.text]
  | .qualified binding _ => [binding]
  | .apply name arguments => name.text :: bareNamesOfAll arguments

def bareNamesOfAll : List Hint → List String
  | [] => []
  | hint :: rest => hint.bareNames ++ bareNamesOfAll rest

end

theorem mem_bareNamesOfAll {hints : List Hint} {bare : String} :
    bare ∈ bareNamesOfAll hints ↔ ∃ hint ∈ hints, bare ∈ hint.bareNames := by
  induction hints with
  | nil => simp [bareNamesOfAll]
  | cons hint rest ih => simp [bareNamesOfAll, ih]

theorem mem_usesOfAll {hints : List Hint} {name : LibraryName} :
    name ∈ usesOfAll hints ↔ ∃ hint ∈ hints, name ∈ hint.uses := by
  induction hints with
  | nil => simp [usesOfAll]
  | cons hint rest ih => simp [usesOfAll, ih]

/-- Hints that are built from built-in types, library names and the hints of `classes`. -/
inductive Built (classes : Hint → Prop) : Hint → Prop
  | builtin {text : String} (known : text ∈ builtins) : Built classes (.plain text)
  | library (name : LibraryName) : Built classes (.library name)
  | ofClass {hint : Hint} (given : classes hint) : Built classes hint
  | apply (name : LibraryName) {arguments : List Hint}
      (each : ∀ hint ∈ arguments, Built classes hint) : Built classes (.apply name arguments)

section

variable {classes : Hint → Prop}

theorem Built.optional {hint : Hint} (built : hint.Built classes) :
    hint.optional.Built classes := by
  unfold Hint.optional
  split
  · exact built
  · exact .apply _ (List.forall_mem_singleton.mpr built)

theorem Built.alternatives {hints : List Hint} (each : ∀ hint ∈ hints, hint.Built classes)
    (nullable : Bool) : (Hint.alternatives hints nullable).Built classes := by
  match hints with
  | [] => exact .builtin (by decide)
  | [hint] =>
    have built := each hint (List.mem_singleton.mpr rfl)
    cases nullable with
    | true => exact built.optional
    | false => exact built
  | first :: second :: rest =>
    have built := Built.apply .union each
    cases nullable with
    | true => exact built.optional
    | false => exact built

/-- The hint of a type is built from names that are known before, and from its classes. -/
theorem built_ofType {current : ModulePath} {imports : Imports} (type : ModelType)
    (given : ∀ target ∈ type.refs, classes (ofRef current imports target)) :
    (ofType current imports type).Built classes := by
  induction type using ModelType.tree_induction with
  | ref target => exact .ofClass (given target (List.mem_singleton.mpr rfl))
  | array item ih => exact .apply .list (List.forall_mem_singleton.mpr (ih given))
  | map value ih =>
    exact .apply .dict (List.forall_mem_cons.mpr
      ⟨.builtin (by decide), List.forall_mem_singleton.mpr (ih given)⟩)
  | union members ih =>
    rw [ofType, ofMembers_eq]
    refine .alternatives (fun hint listed => ?_) _
    obtain ⟨member, kept, rfl⟩ := List.mem_map.mp listed
    have present := List.mem_of_mem_filter kept
    exact ih member present fun target inside =>
      given target (ModelType.mem_refsOfMembers.mpr ⟨member, present, inside⟩)
  | object model =>
    exact .apply .dict (List.forall_mem_cons.mpr
      ⟨.builtin (by decide), List.forall_mem_singleton.mpr (.library .any)⟩)
  | dateTime => exact .library .datetime
  | date => exact .library .date
  | any => exact .library .any
  | _ => exact .builtin (by decide)

end

/-- Every bare name of the hint is built in, a library name that counts as used, or one of the
`others`. -/
def MadeOf (others : String → Prop) (hint : Hint) : Prop :=
  ∀ bare ∈ hint.bareNames,
    bare ∈ builtins ∨ (∃ name ∈ hint.uses, bare = name.text) ∨ others bare

theorem Built.madeOf {others : String → Prop} {hint : Hint} (built : hint.Built (MadeOf others)) :
    hint.MadeOf others := by
  induction built with
  | builtin known => exact fun _ inside => .inl (List.mem_singleton.mp inside ▸ known)
  | library name =>
    exact fun _ inside =>
      .inr (.inl ⟨name, List.mem_singleton.mpr rfl, List.mem_singleton.mp inside⟩)
  | ofClass made => exact made
  | apply name each ih =>
    intro bare inside
    rcases List.mem_cons.mp inside with rfl | inside
    · exact .inr (.inl ⟨name, List.mem_cons_self, rfl⟩)
    · obtain ⟨hint, listed, within⟩ := mem_bareNamesOfAll.mp inside
      refine (ih hint listed bare within).imp_right (.imp_left ?_)
      rintro ⟨used, among, rfl⟩
      exact ⟨used, List.mem_cons_of_mem _ (mem_usesOfAll.mpr ⟨hint, listed, among⟩), rfl⟩

end Hint

namespace ClassText

/-- The hint of a field, in which null is admitted if the field is optional. -/
def fieldHint (current : ModulePath) (imports : Imports) (field : Field ModelType) : Hint :=
  let plain := Hint.ofType current imports field.type
  if field.isOptional then plain.optional else plain

/-- The hints in a class. An enumeration has none. -/
def hints (current : ModulePath) (imports : Imports) : Model → List Hint
  | .object model => model.fields.map (fieldHint current imports)
  | .enum _ => []
  | .alias model => [Hint.ofType current imports model.target]

/-- The attributes of a class. -/
def attributes : Model → List String
  | .object model => model.fields.map fun field => (fieldName field.name).1
  | .enum model => (members [] model.variants).map Prod.fst
  | .alias _ => ["root"]

/-- The lines of a field start with its attribute and its hint. -/
theorem ofField_eq (style : Style) (current : ModulePath) (imports : Imports)
    (field : Field ModelType) : ofField style current imports field =
      let hint := fieldHint current imports field
      let target := (fieldName field.name).1 ++ ": " ++ hint.text
      match notes style (fieldName field.name).2 field.description with
      | [] => ⟨Layout.assignment Layout.level target (defaultSource? style field), hint.uses⟩
      | notes =>
        ⟨style.layout.fieldCall Layout.level target
          (leading style (defaultSource? style field) :: notes), .field :: hint.uses⟩ :=
  rfl

/-- A class uses every library name in its hints. -/
theorem uses_subset {style : Style} {current : ModulePath} {imports : Imports} {model : Model}
    {hint : Hint} (inside : hint ∈ hints current imports model) :
    hint.uses ⊆ (ofModel style current imports model).uses := by
  cases model with
  | object model =>
    obtain ⟨field, listed, rfl⟩ := List.mem_map.mp inside
    have used : (fieldHint current imports field).uses ⊆
        (ofField style current imports field).uses := by
      rw [ofField_eq]
      dsimp only
      split
      · exact List.Subset.refl _
      · exact List.subset_cons_self _ _
    refine List.subset_cons_of_subset _ fun name among => ?_
    exact List.mem_flatMap.mpr ⟨_, List.mem_map_of_mem listed, used among⟩
  | enum model => cases inside
  | «alias» model =>
    obtain rfl := List.mem_singleton.mp inside
    rw [ofModel, ofAlias]
    split
    · exact List.subset_cons_of_subset _ (List.subset_cons_self _ _)
    · exact List.subset_cons_self _ _

theorem built_of_mem_hints {classes : Hint → Prop} {current : ModulePath} {imports : Imports}
    {model : Model} (given : ∀ target ∈ model.refs, classes (Hint.ofRef current imports target))
    {hint : Hint} (inside : hint ∈ hints current imports model) : hint.Built classes := by
  cases model with
  | object model =>
    obtain ⟨field, listed, rfl⟩ := List.mem_map.mp inside
    have built : (Hint.ofType current imports field.type).Built classes :=
      Hint.built_ofType field.type fun target referred =>
        given target (ModelType.mem_refsOfFields.mpr ⟨field, listed, referred⟩)
    unfold fieldHint
    dsimp only
    split
    · exact built.optional
    · exact built
  | enum model => cases inside
  | «alias» model =>
    obtain rfl := List.mem_singleton.mp inside
    exact Hint.built_ofType model.target given

/-- Where there are hints, the attributes are made from the names of the fields. -/
theorem exists_field_of_mem_attributes {current : ModulePath} {imports : Imports} {model : Model}
    {hint : Hint} (inside : hint ∈ hints current imports model) {attr : String}
    (listed : attr ∈ attributes model) :
    ∃ field ∈ model.fieldNames, attr = (fieldName field).1 := by
  cases model with
  | object model =>
    obtain ⟨field, among, rfl⟩ := List.mem_map.mp listed
    exact ⟨field.name, List.mem_map_of_mem among, rfl⟩
  | enum model => cases inside
  | «alias» model =>
    obtain rfl := List.mem_singleton.mp listed
    exact ⟨"root", List.mem_singleton.mpr rfl, by decide⟩

end ClassText

namespace ModuleText

def imports (home : Module) : Imports := Imports.between home.path (referenced home)

/-- The library names that the classes of a module use. -/
def uses (style : Style) (home : Module) : List LibraryName :=
  home.models.flatMap fun model => (ClassText.ofModel style home.path (imports home) model).uses

/-- The names that a module imports, from libraries and for other modules. -/
def importedNames (style : Style) (home : Module) : List String :=
  (uses style home).map LibraryName.text ++ (imports home).map fun entry => entry.2.binding

theorem importGroups_congr {first second : List LibraryName}
    (same : ∀ name, name ∈ first ↔ name ∈ second) (imports : Imports) :
    importGroups first imports = importGroups second imports := by
  have same_line : ∀ library : Library, library.importLine? first = library.importLine? second := by
    intro library
    have same_contains : ∀ name, first.contains name = second.contains name := fun name => by
      rw [Bool.eq_iff_iff, List.contains_iff_mem, List.contains_iff_mem, same]
    unfold Library.importLine?
    simp only [same_contains]
  unfold importGroups Library.standardLines
  simp only [same_line]

/-- The order of the classes does not matter for the names that they use. -/
theorem mem_uses_arranged (style : Style) (ranks : DeclarationOrder.Ranks) (home : Module)
    (name : LibraryName) : name ∈ ((arranged ranks home).map
      (ClassText.ofModel style home.path (imports home))).flatMap ClassText.uses ↔
      name ∈ uses style home := by
  rw [List.flatMap_map, uses, List.mem_flatMap, List.mem_flatMap]
  unfold arranged
  simp only [List.mem_mergeSort]

/-- A module starts with the imports of the names it uses and of the modules it refers to. -/
theorem moduleText_eq (style : Style) (ranks : DeclarationOrder.Ranks) (home : Module) :
    moduleText style ranks home = assemble (importGroups (uses style home) (imports home))
      (((arranged ranks home).map (ClassText.ofModel style home.path (imports home))).map
        ClassText.lines) := by
  rw [← importGroups_congr (mem_uses_arranged style ranks home)]
  rfl

/-- Every bare name in the hints of the module is built in, imported or declared in the module. -/
def NamesKnown (style : Style) (home : Module) : Prop :=
  ∀ model ∈ home.models, ∀ hint ∈ ClassText.hints home.path (imports home) model,
    ∀ bare ∈ hint.bareNames, bare ∈ Hint.builtins ∨ bare ∈ importedNames style home ∨
      bare ∈ home.models.map Model.name

/-- No bare name has two meanings. -/
structure NamesClear (style : Style) (home : Module) : Prop where
  imported : ∀ model ∈ home.models, model.name ∉ importedNames style home
  builtin : ∀ model ∈ home.models, model.name ∉ Hint.builtins
  attributes : ∀ model ∈ home.models, ∀ attr ∈ ClassText.attributes model,
    ∀ hint ∈ ClassText.hints home.path (imports home) model, attr ∉ hint.bareNames

/-- A class is named bare in its own module and behind a binding elsewhere. -/
theorem ofRef_of_mem_refs {home : Module} {model : Model} (inside : model ∈ home.models)
    {target : ClassRef} (referred : target ∈ model.refs) :
    (target.path = home.path ∧
        Hint.ofRef home.path (imports home) target = .plain target.name) ∨
      ∃ relative, (target.path, relative) ∈ imports home ∧
        Hint.ofRef home.path (imports home) target = .qualified relative.binding target.name := by
  unfold Hint.ofRef
  split
  next here => exact .inl ⟨here, rfl⟩
  next elsewhere =>
    have listed : target.path ∈ referenced home :=
      List.mem_flatMap.mpr ⟨model, inside, List.mem_map_of_mem referred⟩
    obtain ⟨relative, imported, found⟩ :=
      Imports.exists_entry (Imports.mem_others.mpr ⟨listed, elsewhere⟩)
    rw [show imports home = Imports.between home.path (referenced home) from rfl, found]
    exact .inr ⟨relative, imported, rfl⟩

/-- A module knows its bare names if the classes it refers to within itself are there. -/
theorem namesKnown_of_closed {home : Module}
    (closed : ∀ model ∈ home.models, ∀ target ∈ model.refs, target.path = home.path →
      target.name ∈ home.models.map Model.name) (style : Style) : NamesKnown style home := by
  intro model inside hint listed bare within
  have classes : ∀ target ∈ model.refs, (Hint.ofRef home.path (imports home) target).MadeOf
      fun bare => bare ∈ importedNames style home ∨ bare ∈ home.models.map Model.name := by
    intro target referred bare within
    refine .inr (.inr ?_)
    obtain ⟨here, same⟩ | ⟨relative, imported, same⟩ := ofRef_of_mem_refs inside referred
    · rw [same] at within
      obtain rfl := List.mem_singleton.mp within
      exact .inr (closed model inside target referred here)
    · rw [same] at within
      obtain rfl := List.mem_singleton.mp within
      exact .inl (List.mem_append_right _ (List.mem_map_of_mem imported))
  obtain builtin | ⟨name, used, rfl⟩ | known :=
    (ClassText.built_of_mem_hints classes listed).madeOf bare within
  · exact .inl builtin
  · have among : name ∈ uses style home :=
      List.mem_flatMap.mpr ⟨model, inside, ClassText.uses_subset listed used⟩
    exact .inr (.inl (List.mem_append_left _ (List.mem_map_of_mem among)))
  · exact .inr known

end ModuleText

/-- The names that modules take from libraries, and the built-in ones in hints. -/
def reservedNames : List String := Hint.builtins ++ LibraryName.all.map LibraryName.text

theorem text_mem_reservedNames (name : LibraryName) : name.text ∈ reservedNames := by
  cases name <;> decide

end Code

open Code

/-- The names that other modules can bind the modules of a document to. -/
def Resolver.GivesBinding (resolver : Resolver) (binding : String) : Prop :=
  ∃ name node, Entries.get? resolver.nodes name = some node ∧
    resolver.isCollapsed node = false ∧
    (binding = Imports.ownName (resolver.classRef name).path ∨ ∃ number, 0 < number ∧
      binding = Imports.ownName (resolver.classRef name).path ++ "_" ++ toString number)

namespace Derivation

/-- The names that the documents of each bucket give keep apart: those of classes, those of
attributes, those of modules, and the reserved ones. -/
structure NamesApart (documents : Resolver → Prop) : Prop where
  classes : ∀ document, documents document → ∀ name, document.GivesClass name →
    name ∉ reservedNames ∧ ∀ other, documents other → other.bucket = document.bucket →
      ¬ other.GivesBinding name
  attributes : ∀ document, documents document → ∀ field, document.GivesField field →
    (fieldName field).1 ∉ reservedNames ∧ ∀ other, documents other →
      other.bucket = document.bucket →
        ¬ other.GivesBinding (fieldName field).1 ∧ ¬ other.GivesClass (fieldName field).1

variable {conventions : Conventions} {collapse : Bool} {fs : FileSystem}

/-- A document that is read from one of the files, with its schemas decoded. -/
def Reads (conventions : Conventions) (collapse : Bool) (fs : FileSystem) (paths : List Path)
    (resolver : Resolver) : Prop :=
  ∃ path ∈ paths, ∃ document decoded, load fs path = .ok document ∧
    nodes conventions document.schemas = .ok decoded ∧
    resolver = ⟨path.stem?.getD "", decoded, conventions, collapse⟩

/-- Where the names in a declaration come from. -/
structure NamesGiven (document : Resolver) (home : Module) (model : Model) : Prop where
  bucket : home.path.head? = some document.bucket
  name : document.GivesClass model.name
  fields : ∀ field ∈ model.fieldNames, document.GivesField field
  /-- A class is referred to in the module of a schema. -/
  modules : ∀ target ∈ model.refs, ∃ name node, Entries.get? document.nodes name = some node ∧
    document.isCollapsed node = false ∧ target.path = (document.classRef name).path
  here : ∀ target ∈ model.refs, target.path = home.path →
    target.name ∈ home.models.map Model.name

/-- Every declaration of the model set has its names from one of the documents. -/
theorem exists_document {paths : List Path} {set : ModelSet}
    (success : ofFiles conventions collapse fs paths = .ok set) {home : Module}
    (present : home ∈ set) {model : Model} (inside : model ∈ home.models) :
    ∃ document, Reads conventions collapse fs paths document ∧
      NamesGiven document home model := by
  obtain ⟨path, among, modules, from_file, part, listed, same_path, within, united⟩ :=
    exists_part success present inside
  have bucket := (ofFile_paths from_file).2 part listed
  obtain ⟨document, loaded, derived⟩ := bind_eq_ok from_file
  obtain ⟨decoded, declared, known, related, rfl⟩ := ofSchemas_eq_ok (mapError_eq_ok derived)
  let resolver : Resolver := ⟨path.stem?.getD "", decoded, conventions, collapse⟩
  rw [← keys_nodes known] at related
  obtain ⟨plain, grouped, rfl⟩ := List.mem_map.mp listed
  obtain ⟨named, fields⟩ := given_of_mem_group related grouped within
  refine ⟨resolver, ⟨path, among, document, decoded, loaded, known, rfl⟩,
    ⟨same_path ▸ bucket, named, fields, fun target referred => ?_, fun target referred here => ?_⟩⟩
  · obtain ⟨other, other_listed, other_path, -⟩ :=
      exists_promoted_of_mem_refs related grouped within referred
    obtain ⟨grouped_other, listed_other, rfl⟩ := List.mem_map.mp other_listed
    have declared_path : target.path ∈ declared.map Prod.fst := by
      rw [← List.mem_eraseDups, ← Module.group_paths, ← other_path]
      exact List.mem_map.mpr ⟨grouped_other, listed_other, rfl⟩
    obtain ⟨entry, entry_listed, entry_path⟩ := List.mem_map.mp declared_path
    obtain ⟨name, -, declares_path, node, found, kept, -⟩ :=
      exists_left_of_forall₂ related entry_listed
    exact ⟨name, node, found, kept, entry_path.symm.trans declares_path⟩
  · obtain ⟨other, other_listed, other_path, found, found_listed, same_name⟩ :=
      exists_promoted_of_mem_refs related grouped within referred
    rw [← same_name]
    exact List.mem_map_of_mem (united other other_listed (other_path.trans here) found_listed)

/-- A module binds others to names that a document of its bucket gives. -/
theorem givesBinding_of_mem_imports {paths : List Path} {set : ModelSet}
    (success : ofFiles conventions collapse fs paths = .ok set) {home : Module}
    (present : home ∈ set) {entry : ModulePath × RelativeImport}
    (imported : entry ∈ ModuleText.imports home) :
    ∃ document, Reads conventions collapse fs paths document ∧
      home.path.head? = some document.bucket ∧ document.GivesBinding entry.2.binding := by
  obtain ⟨keys, -, binds⟩ := Imports.between_spec home.path (ModuleText.referenced home)
  have listed := (Imports.mem_others.mp (keys.mem_iff.mp (List.mem_map_of_mem imported))).1
  obtain ⟨model, inside, listed⟩ := List.mem_flatMap.mp listed
  obtain ⟨target, referred, same_path⟩ := List.mem_map.mp listed
  obtain ⟨document, read, given⟩ := exists_document success present inside
  obtain ⟨name, node, known, kept, from_schema⟩ := given.modules target referred
  refine ⟨document, read, given.bucket, name, node, known, kept, ?_⟩
  rw [← from_schema, same_path]
  exact (binds entry imported).binding

/-- What a module imports is reserved or the name of a module of its bucket. -/
theorem reserved_or_givesBinding {paths : List Path} {set : ModelSet}
    (success : ofFiles conventions collapse fs paths = .ok set) {home : Module}
    (present : home ∈ set) {style : Style} {name : String}
    (imported : name ∈ ModuleText.importedNames style home) : name ∈ reservedNames ∨
      ∃ document, Reads conventions collapse fs paths document ∧
        home.path.head? = some document.bucket ∧ document.GivesBinding name := by
  rcases List.mem_append.mp imported with library | module
  · obtain ⟨library_name, -, rfl⟩ := List.mem_map.mp library
    exact .inl (text_mem_reservedNames library_name)
  · obtain ⟨entry, listed, rfl⟩ := List.mem_map.mp module
    exact .inr (givesBinding_of_mem_imports success present listed)

/-- Names that keep apart in the documents are clear in every module. -/
theorem namesClear_of_apart {paths : List Path} {set : ModelSet}
    (success : ofFiles conventions collapse fs paths = .ok set)
    (apart : NamesApart (Reads conventions collapse fs paths)) (style : Style) {home : Module}
    (present : home ∈ set) (known : ModuleText.NamesKnown style home) :
    ModuleText.NamesClear style home where
  imported := by
    intro model inside imported
    obtain ⟨document, read, given⟩ := exists_document success present inside
    obtain ⟨free, unbound⟩ := apart.classes document read model.name given.name
    obtain reserved | ⟨other, read_other, bucket, binds⟩ :=
      reserved_or_givesBinding success present imported
    · exact free reserved
    · have same_bucket := Option.some.inj (bucket.symm.trans given.bucket)
      exact unbound other read_other same_bucket binds
  builtin := by
    intro model inside builtin
    obtain ⟨document, read, given⟩ := exists_document success present inside
    exact (apart.classes document read model.name given.name).1 (List.mem_append_left _ builtin)
  attributes := by
    intro model inside attr listed hint among bare
    obtain ⟨document, read, given⟩ := exists_document success present inside
    obtain ⟨field, field_listed, rfl⟩ := ClassText.exists_field_of_mem_attributes among listed
    obtain ⟨free, other_names⟩ :=
      apart.attributes document read field (given.fields field field_listed)
    obtain builtin | imported | declared := known model inside hint among _ bare
    · exact free (List.mem_append_left _ builtin)
    · obtain reserved | ⟨other, read_other, bucket, binds⟩ :=
        reserved_or_givesBinding success present imported
      · exact free reserved
      · have same_bucket := Option.some.inj (bucket.symm.trans given.bucket)
        exact (other_names other read_other same_bucket).1 binds
    · obtain ⟨owner, owner_inside, same_name⟩ := List.mem_map.mp declared
      obtain ⟨other, read_other, given_other⟩ := exists_document success present owner_inside
      have same_bucket := Option.some.inj (given_other.bucket.symm.trans given.bucket)
      exact (other_names other read_other same_bucket).2 (same_name ▸ given_other.name)

/-- The text of every module imports the library names that its classes use and the modules they
refer to. Every bare name in its hints is built in, imported or declared, and it has no second
meaning if the names that the documents give keep apart. -/
theorem bare_names_clear {paths : List Path} {set : ModelSet}
    (success : ofFiles conventions collapse fs paths = .ok set) (style : Style) :
    ∀ home ∈ set,
      (∀ ranks, moduleText style ranks home = ModuleText.assemble
        (ModuleText.importGroups (ModuleText.uses style home) (ModuleText.imports home))
        (((ModuleText.arranged ranks home).map
          (ClassText.ofModel style home.path (ModuleText.imports home))).map ClassText.lines)) ∧
      ModuleText.NamesKnown style home ∧
      (NamesApart (Reads conventions collapse fs paths) → ModuleText.NamesClear style home) := by
  intro home present
  have closed : ∀ model ∈ home.models, ∀ target ∈ model.refs, target.path = home.path →
      target.name ∈ home.models.map Model.name := by
    intro model inside
    obtain ⟨document, -, given⟩ := exists_document success present inside
    exact given.here
  have known := ModuleText.namesKnown_of_closed closed style
  exact ⟨fun ranks => ModuleText.moduleText_eq style ranks home, known,
    fun apart => namesClear_of_apart success apart style present known⟩

-- A class with one property and an object inline there. The property alone decides whether the
-- names are clear.
namespace InlineProperty

def schemas (property : String) : Entries String Json :=
  [("Widget", .object [("type", .string "object"), ("properties", .object [
    (property, .object [("type", .string "object"), ("properties", .object [
      ("value", .object [])])])])])]

def document (property : String) : Json :=
  .object [
    ("openapi", .string "3.0.0"),
    ("info", .object [("title", .string "Kubernetes"), ("version", .string "v1")]),
    ("components", .object [("schemas", .object (schemas property))])]

def files (property : String) : FileSystem where
  top := .directory [("k8s.json", .file (.text (document property).pretty))]
  home := []

/-- The model set, where the object that stands inline is called `name`. -/
def set (property name : String) : ModelSet :=
  [⟨["k8s", "models"], [
    .object ⟨name, none, [⟨"value", .any, false, false, none, none, false⟩]⟩,
    .object ⟨"Widget", none,
      [⟨property, .ref ⟨["k8s", "models"], name⟩, false, false, none, none, false⟩]⟩]⟩]

section

variable {property : String}
  (written : Json.Token.all? ((document property).indented 0) = some (document property).tokens)

include written

theorem load_files : load (files property) ⟨"/k8s.json"⟩ =
    .ok ⟨⟨⟨"3.0.0", "Kubernetes", "v1"⟩, none⟩, schemas property⟩ := by
  have version : Metadata.isVersion3 ⟨"3.0.0", "Kubernetes", "v1"⟩ = true := by decide
  exact load_of_written rfl written rfl rfl version

theorem ofFiles_eq {name : String}
    (derived : ofSchemas "k8s" .kubernetes true (schemas property) = .ok (set property name)) :
    ofFiles .kubernetes true (files property) [⟨"/k8s.json"⟩] = .ok (set property name) := by
  have stem : (Path.mk "/k8s.json").stem?.getD "" = "k8s" := by decide
  have from_file : ofFile .kubernetes true (files property) ⟨"/k8s.json"⟩ =
      .ok (set property name) := by
    unfold ofFile
    rw [load_files written, stem]
    dsimp only [bind, Except.bind]
    rw [derived]
    rfl
  have found : modulesOf .kubernetes true (files property) [⟨"/k8s.json"⟩] =
      .ok (set property name ++ []) :=
    modulesOf_cons_eq_ok.mpr ⟨_, _, from_file, rfl, rfl⟩
  unfold ofFiles
  rw [found]
  cbv

end

/-- The class of the object has the name of a type that the module imports for a hint. -/
theorem any_has_two_meanings : ∃ set home model,
    ofFiles .kubernetes true (files "any") [⟨"/k8s.json"⟩] = .ok set ∧ home ∈ set ∧
      model ∈ home.models ∧ model.name = "Any" ∧ "Any" ∈ ModuleText.importedNames {} home := by
  have success : ofFiles .kubernetes true (files "any") [⟨"/k8s.json"⟩] = .ok (set "any" "Any") :=
    ofFiles_eq (by decide +kernel) (by rfl)
  refine ⟨_, _, _, success, List.mem_singleton.mpr rfl, List.mem_cons_self, rfl, ?_⟩
  decide +kernel

def inner : Node := .bare (.object ⟨[("value", .bare .any)], [], none⟩)

def widget : Node := .bare (.object ⟨[("size", inner)], [], none⟩)

def resolver : Resolver := ⟨"k8s", [("Widget", widget)], .kubernetes, true⟩

theorem eq_resolver_of_reads {other : Resolver}
    (read : Reads .kubernetes true (files "size") [⟨"/k8s.json"⟩] other) : other = resolver := by
  have stem : (Path.mk "/k8s.json").stem?.getD "" = "k8s" := by decide
  have decoded_eq : nodes .kubernetes (schemas "size") = .ok [("Widget", widget)] := rfl
  obtain ⟨path, listed, loaded_document, decoded, loaded, known, rfl⟩ := read
  obtain rfl := List.mem_singleton.mp listed
  rw [load_files (by decide +kernel)] at loaded
  cases loaded
  cases decoded_eq.symm.trans known
  rw [stem]
  rfl

theorem eq_widget {key : String} {node : Node}
    (known : Entries.get? resolver.nodes key = some node) : key = "Widget" ∧ node = widget := by
  simpa [resolver] using Entries.mem_of_get? known

theorem visited_eq {context : String} {node : Node} (visited : resolver.Visits context node) :
    (context = "Widget" ∧ node = widget) ∨ (context = "Size" ∧ node = inner) ∨
      (context = "Value" ∧ node = .bare .any) := by
  induction visited with
  | schema name node known kept =>
    obtain ⟨rfl, rfl⟩ := eq_widget known
    exact .inl ⟨by decide, rfl⟩
  | property context shape notes property above inside ih =>
    obtain ⟨-, same⟩ | ⟨-, same⟩ | ⟨-, same⟩ := ih <;> cases same
    · obtain rfl := List.mem_singleton.mp inside
      exact .inr (.inl ⟨by decide, rfl⟩)
    · obtain rfl := List.mem_singleton.mp inside
      exact .inr (.inr ⟨by decide, rfl⟩)
  | additional context shape notes node above no_properties given ih =>
    obtain ⟨-, same⟩ | ⟨-, same⟩ | ⟨-, same⟩ := ih <;> cases same <;> cases given
  | items context items notes above ih =>
    obtain ⟨-, same⟩ | ⟨-, same⟩ | ⟨-, same⟩ := ih <;> cases same
  | variant context variants notes variant above inside ih =>
    obtain ⟨-, same⟩ | ⟨-, same⟩ | ⟨-, same⟩ := ih <;> cases same
  | replaced context path notes target node above valid known collapsed ih =>
    obtain ⟨-, same⟩ | ⟨-, same⟩ | ⟨-, same⟩ := ih <;> cases same

/-- The first two characters, which tell the names here apart. -/
def initials (name : String) : List Char := name.toList.take 2

theorem initials_append {start : String} (long : 2 ≤ start.length) (rest : String) :
    initials (start ++ rest) = initials start := by
  rw [← String.length_toList] at long
  rw [initials, String.toList_append, List.take_append_of_le_length long, initials]

theorem initials_of_tried {base name : String} (long : 2 ≤ base.length) {numbered : Nat}
    (tried : name ∈ Promotion.candidates base numbered) : initials name = initials base := by
  simp only [Promotion.candidates, List.mem_cons, List.mem_map] at tried
  obtain rfl | rfl | ⟨i, -, rfl⟩ := tried
  · rfl
  · exact initials_append long _
  · rw [String.append_assoc]
    exact initials_append long _

theorem initials_class {name : String} (given : resolver.GivesClass name) :
    initials name ∈ [['W', 'i'], ['S', 'i']] := by
  cases given with
  | schema key node known kept =>
    obtain ⟨rfl, rfl⟩ := eq_widget known
    decide
  | inline context node numbered name visited needed tried =>
    obtain ⟨rfl, rfl⟩ | ⟨rfl, rfl⟩ | ⟨rfl, rfl⟩ := visited_eq visited
    · rw [initials_of_tried (by decide) tried]
      decide
    · rw [initials_of_tried (by decide) tried]
      decide
    · cases needed

theorem initials_binding {binding : String} (given : resolver.GivesBinding binding) :
    initials binding = ['m', 'o'] := by
  obtain ⟨key, node, known, -, given⟩ := given
  obtain ⟨rfl, rfl⟩ := eq_widget known
  have own : Imports.ownName (resolver.classRef "Widget").path = "models" := by decide
  rw [own] at given
  obtain rfl | ⟨number, -, rfl⟩ := given
  · decide
  · rw [String.append_assoc, initials_append (by decide)]
    decide

theorem attribute_eq {field : String} (given : resolver.GivesField field) :
    (fieldName field).1 ∈ ["size", "value"] := by
  cases given with
  | property context node name visited inside =>
    obtain ⟨rfl, rfl⟩ | ⟨rfl, rfl⟩ | ⟨rfl, rfl⟩ := visited_eq visited
    · obtain rfl := List.mem_singleton.mp inside
      decide
    · obtain rfl := List.mem_singleton.mp inside
      decide
    · cases inside
  | root key node known kept no_model =>
    obtain ⟨rfl, rfl⟩ := eq_widget known
    cases no_model

theorem names_apart : NamesApart (Reads .kubernetes true (files "size") [⟨"/k8s.json"⟩]) where
  classes := by
    have apart : ∀ name ∈ reservedNames, initials name ∉ [['W', 'i'], ['S', 'i']] := by decide
    intro document read name given
    obtain rfl := eq_resolver_of_reads read
    have start := initials_class given
    refine ⟨fun reserved => apart name reserved start, fun other read_other _ binds => ?_⟩
    obtain rfl := eq_resolver_of_reads read_other
    rw [initials_binding binds] at start
    exact absurd start (by decide)
  attributes := by
    have unreserved : ∀ name ∈ reservedNames, name ∉ ["size", "value"] := by decide
    have apart : ∀ name ∈ ["size", "value"],
        initials name ≠ ['m', 'o'] ∧ initials name ∉ [['W', 'i'], ['S', 'i']] := by decide
    intro document read field given
    obtain rfl := eq_resolver_of_reads read
    have attr := attribute_eq given
    refine ⟨fun reserved => unreserved _ reserved attr, fun other read_other _ => ?_⟩
    obtain rfl := eq_resolver_of_reads read_other
    exact ⟨fun binds => (apart _ attr).1 (initials_binding binds),
      fun class_given => (apart _ attr).2 (initials_class class_given)⟩

theorem size_has_one_meaning :
    ofFiles .kubernetes true (files "size") [⟨"/k8s.json"⟩] = .ok (set "size" "Size") ∧
      NamesApart (Reads .kubernetes true (files "size") [⟨"/k8s.json"⟩]) ∧
      ∀ home ∈ set "size" "Size",
        ModuleText.NamesKnown {} home ∧ ModuleText.NamesClear {} home := by
  have success : ofFiles .kubernetes true (files "size") [⟨"/k8s.json"⟩] =
      .ok (set "size" "Size") := ofFiles_eq (by decide +kernel) (by rfl)
  refine ⟨success, names_apart, fun home present => ?_⟩
  obtain ⟨-, known, clear⟩ := bare_names_clear success {} home present
  exact ⟨known, clear names_apart⟩

end InlineProperty

end Derivation

end ResourceModels

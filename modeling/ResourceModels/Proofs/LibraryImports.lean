import Mathlib
import ResourceModels.Proofs.ClassCode

/-!
# The names that modules import from libraries

The library names that the hints, bases and calls of a module use are counted while its classes are
written, and imported from the count. Read back from the text, which has the code of all classes,
both come out the same: each name used is imported from its library, and each name imported is used
(`moduleText_imports_exact`).
-/

namespace ResourceModels.Code

/-- What lines of imports are written with. -/
def isImportChar (c : Char) : Bool := continuesDotted c || c = ',' || c = ' '

section

variable {classes : String → Prop}

theorem block_import {text : String} {rest : List Char} (starts : text.toList = 'f' :: rest)
    (spelling : ∀ c ∈ text.toList, isImportChar c = true) :
    Block classes [] (importedIn · text.toList) [text] := by
  have inert : Inert (· = '\n') text.toList := inert_line isImportChar rfl spelling
  have no_class : "class ".toList.isPrefixOf text.toList = false := by
    rw [starts]
    rfl
  have hintPart_eq : hintPart text.toList = [] := by
    rw [hintPart, List.dropWhile_eq_nil_iff]
    intro c inside
    have listed := (List.takeWhile_sublist _).subset inside
    exact decide_eq_true (ne_of_kind (spelling c listed) rfl)
  have assigned_eq : assigned text.toList = [] := by
    rw [assigned, List.dropWhile_eq_nil_iff]
    exact fun c inside => decide_eq_true (ne_of_kind (spelling c inside) rfl)
  apply Block.of_line (List.cons_ne_nil _ _)
  · rw [String.intercalate_singleton]
    exact (passes_inert inert).shows
  · exact inert.mute.no_break
  · rw [usedIn, no_class, if_neg Bool.false_ne_true, hintPart_eq, assigned_eq]
    exact .nil

theorem block_blank : Block classes [] nothing [""] := by
  apply Block.single (startsWithout_nil _) passes_nil.shows List.not_mem_nil
  exact .nil

theorem toList_lineOf (clause : String) (names : List String) :
    (Imports.lineOf clause names).toList = "from ".toList ++ (clause.toList ++
      (" import ".toList ++ [',', ' '].intercalate (names.map String.toList))) := by
  have comma : (", " : String).toList = [',', ' '] := by decide
  rw [Imports.lineOf, String.toList_append, String.toList_append, String.toList_append,
    String.toList_intercalate, comma, List.append_assoc, List.append_assoc]

theorem spelling_lineOf {clause : String} {names : List String}
    (clause_spelling : ∀ c ∈ clause.toList, isImportChar c = true)
    (names_spelling : ∀ name ∈ names, ∀ c ∈ name.toList, isImportChar c = true) :
    ∀ c ∈ (Imports.lineOf clause names).toList, isImportChar c = true := by
  have listed : ∀ c ∈ [',', ' '].intercalate (names.map String.toList), isImportChar c = true :=
    kind_intercalate rfl rfl (List.forall_mem_map.mpr names_spelling)
  rw [toList_lineOf]
  exact List.forall_mem_append.mpr ⟨List.all_eq_true.mp rfl, List.forall_mem_append.mpr
    ⟨clause_spelling, List.forall_mem_append.mpr ⟨List.all_eq_true.mp rfl, listed⟩⟩⟩

/-- The names to import from a library, where these names are used. -/
def namesFrom (uses : List LibraryName) (library : Library) : List String :=
  (LibraryName.all.filter fun name => name.library = library && uses.contains name).map
    LibraryName.text

theorem importLine?_toList (library : Library) (uses : List LibraryName) :
    (library.importLine? uses).toList =
      if namesFrom uses library = [] then []
      else [Imports.lineOf library.text (namesFrom uses library)] := by
  unfold Library.importLine? namesFrom
  split <;> simp_all [Imports.lineOf]

theorem namesIn_listed (names : List LibraryName) :
    namesIn ([',', ' '].intercalate ((names.map LibraryName.text).map String.toList)) =
      names.map LibraryName.text := by
  rw [namesIn_intercalate, List.map_map, List.flatMap_map]
  induction names with
  | nil => rfl
  | cons name names ih =>
    rw [List.flatMap_cons, ih, Function.comp_apply, Hint.namesIn_library]
    rfl

/-- A line starts with the name of its own library and no other one. -/
theorem isPrefixOf_lineOf (library other : Library) (rest : List Char) :
    ("from " ++ other.text ++ " import ").toList.isPrefixOf
      ("from ".toList ++ (library.text.toList ++ (" import ".toList ++ rest))) =
        decide (other = library) := by
  cases other <;> cases library <;> rfl

theorem importedIn_lineOf (library other : Library) (names : List LibraryName) :
    importedIn other (Imports.lineOf library.text (names.map LibraryName.text)).toList =
      if other = library then names.map LibraryName.text else [] := by
  rw [importedIn, toList_lineOf, isPrefixOf_lineOf]
  by_cases same : other = library
  · subst same
    have line_eq : ∀ rest, "from ".toList ++ (other.text.toList ++ (" import ".toList ++ rest)) =
        ("from " ++ other.text ++ " import ").toList ++ rest := by
      simp
    rw [if_pos (decide_eq_true rfl), if_pos rfl, line_eq, List.drop_left, namesIn_listed]
  · rw [if_neg (by simpa using same), if_neg same]

theorem isImportChar_of_dotted {c : Char} (dotted : continuesDotted c = true) :
    isImportChar c = true := by
  rw [isImportChar, dotted, Bool.true_or, Bool.true_or]

theorem block_importLine (library : Library) (uses : List LibraryName) :
    Block classes [] (fun other => if other = library then namesFrom uses library else [])
      (library.importLine? uses).toList := by
  rw [importLine?_toList]
  split
  next none_used =>
    apply Block.nil.imports_congr
    intro other
    rw [none_used, ite_self, nothing]
  next =>
    have clause : ∀ c ∈ library.text.toList, isImportChar c = true := by
      apply List.all_eq_true.mp
      cases library <;> rfl
    have names : ∀ name ∈ namesFrom uses library, ∀ c ∈ name.toList, isImportChar c = true := by
      intro text listed c inside
      obtain ⟨name, -, rfl⟩ := List.mem_map.mp listed
      exact isImportChar_of_dotted (Hint.dotted_library name c inside)
    apply (block_import (toList_lineOf library.text _) (spelling_lineOf clause names)).imports_congr
    exact fun other => importedIn_lineOf library other _

theorem importedIn_relative (library : Library) (rest : List Char) :
    importedIn library ("from ".toList ++ '.' :: rest) = [] := by
  have no_prefix : ("from " ++ library.text ++ " import ").toList.isPrefixOf
      ("from ".toList ++ '.' :: rest) = false := by
    cases library <;> rfl
  rw [importedIn, no_prefix, if_neg Bool.false_ne_true]

theorem spelling_item {relative : RelativeImport} (plain : relative.Plain) :
    ∀ c ∈ relative.item.toList, isImportChar c = true := by
  have spelling : ∀ {name : String}, IsWord name → ∀ c ∈ name.toList, isImportChar c = true :=
    fun word c inside => isImportChar_of_dotted (dotted_of_word word c inside)
  have name_spelling := spelling plain.name
  have binding_spelling := spelling plain.binding
  obtain ⟨dots, package, name, boundAs⟩ := relative
  cases boundAs with
  | none => exact name_spelling
  | some binding =>
    change ∀ c ∈ (name ++ " as " ++ binding).toList, isImportChar c = true
    rw [String.toList_append, String.toList_append]
    exact List.forall_mem_append.mpr
      ⟨List.forall_mem_append.mpr ⟨name_spelling, List.all_eq_true.mp rfl⟩, binding_spelling⟩

/-- The clause of a relative import starts with a dot. -/
theorem fromClause_between (current target : ModulePath) : ∃ rest,
    (RelativeImport.between current target).fromClause.toList = '.' :: rest := by
  rw [RelativeImport.fromClause, String.toList_append, String.toList_ofList]
  exact ⟨_, rfl⟩

theorem block_relative (current : ModulePath) (referenced : List ModulePath) :
    Block classes [] nothing (Imports.between current referenced).lines := by
  obtain ⟨lines, groups, lines_eq, holds, all⟩ :=
    Imports.exists_groups (Imports.between current referenced)
  have imported : ∀ group ∈ groups, ∀ relative ∈ group,
      ∃ path, (path, relative) ∈ Imports.between current referenced := by
    intro group listed relative present
    have in_imports := all.mem_iff.mp (List.mem_flatten.mpr ⟨group, listed, present⟩)
    obtain ⟨entry, imported, rfl⟩ := List.mem_map.mp in_imports
    exact ⟨entry.1, imported⟩
  rw [lines_eq]
  apply Block.map
  intro line listed
  obtain ⟨group, group_listed, nonempty, shared, items⟩ := exists_right_of_forall₂ holds listed
  obtain ⟨first, rest, rfl⟩ := List.exists_cons_of_ne_nil nonempty
  obtain ⟨path, first_imported⟩ := imported _ group_listed first List.mem_cons_self
  have clause_eq : line.1 = (RelativeImport.between current path).fromClause := by
    rw [← shared first List.mem_cons_self]
    exact ((Imports.between_spec current referenced).2.2 _ first_imported).clause
  have clause : ∀ c ∈ line.1.toList, isImportChar c = true := by
    intro c inside
    rw [clause_eq] at inside
    obtain rfl | word := Imports.mem_fromClause_between inside
    · rfl
    · rw [isImportChar, continuesDotted, continuesIdentifier_iff.mpr word, Bool.true_or,
        Bool.true_or, Bool.true_or]
  have names : ∀ name ∈ line.2.1, ∀ c ∈ name.toList, isImportChar c = true := by
    rw [items]
    refine List.forall_mem_map.mpr fun relative present => ?_
    obtain ⟨path, relative_imported⟩ := imported _ group_listed relative present
    exact spelling_item (Imports.plain_of_mem relative_imported)
  obtain ⟨behind, starts⟩ := fromClause_between current path
  apply (block_import (toList_lineOf line.1 line.2.1) (spelling_lineOf clause names)).imports_congr
  intro library
  rw [toList_lineOf, clause_eq, starts]
  exact importedIn_relative library _

end

namespace ModuleText

/-- Groups of lines that are not empty, with a blank line before each of them. -/
def separated (lines : List String) : List String := if lines.isEmpty then [] else "" :: lines

/-- All lines of a module. -/
def allLines (groups classes : List (List String)) : List String :=
  firstLine :: (groups.flatMap separated ++ classes.flatMap ("" :: "" :: ·))

theorem joinLines_blank (lines : List String) :
    joinLines ("" :: lines) = "\n" ++ joinLines lines := by
  rw [joinLines_cons, String.empty_append]

theorem joinLines_flatMap {α : Type} (list : List α) (lines : α → List String) :
    joinLines (list.flatMap lines) =
      String.join (list.map fun member => joinLines (lines member)) := by
  induction list with
  | nil => rfl
  | cons member list ih =>
    rw [List.flatMap_cons, joinLines_append, ih, List.map_cons, String.join_cons]

theorem flatMap_separated (groups : List (List String)) :
    groups.flatMap separated = (groups.filter (!·.isEmpty)).flatMap ("" :: ·) := by
  induction groups with
  | nil => rfl
  | cons lines groups ih => cases lines <;> simp [separated, ih]

theorem assemble_eq (groups classes : List (List String)) :
    assemble (groups.filter (!·.isEmpty)) classes = joinLines (allLines groups classes) := by
  have two : "\n\n" = "\n" ++ "\n" := rfl
  rw [allLines, joinLines_cons, joinLines_append, flatMap_separated, joinLines_flatMap,
    joinLines_flatMap, assemble, two]
  simp only [joinLines_blank, String.append_assoc]

section

variable {known : String → Prop}

theorem block_separated {uses : List LibraryName} {imported : Library → List String}
    {lines : List String} (block : Block known uses imported lines) :
    Block known uses imported (separated lines) := by
  cases lines with
  | nil => exact block
  | cons line lines => exact block_blank.append block

theorem block_firstLine : Block known [] nothing [firstLine] := by
  have spelling : ∀ c ∈ firstLine.toList, isImportChar c = true := List.all_eq_true.mp rfl
  apply (block_import rfl spelling).imports_congr
  intro library
  cases library <;> rfl

theorem block_standardLines (uses : List LibraryName) :
    Block known [] (fun library => if library = .pydantic then [] else namesFrom uses library)
      (Library.standardLines uses) := by
  rw [Library.standardLines, List.filterMap_eq_flatMap_toList]
  apply ((block_importLine .datetime uses).append ((block_importLine .enum uses).append
    ((block_importLine .typing uses).append .nil))).imports_congr
  intro library
  cases library <;> simp [nothing]

theorem block_importGroups (uses : List LibraryName) (current : ModulePath)
    (referenced : List ModulePath) :
    Block known [] (namesFrom uses)
      ([Library.standardLines uses, (Library.pydantic.importLine? uses).toList,
        (Imports.between current referenced).lines].flatMap separated) := by
  apply ((block_separated (block_standardLines uses)).append
    ((block_separated (block_importLine .pydantic uses)).append
      ((block_separated (block_relative current referenced)).append .nil))).imports_congr
  intro library
  cases library <;> simp [nothing]

end

/-- The names of the classes that a module declares or refers to. -/
def classNames (home : Module) : List String :=
  home.models.flatMap fun model => model.name :: model.refs.map ClassRef.name

/-- A class of a module, as it is written there. -/
def classText (style : Style) (home : Module) : Model → ClassText :=
  ClassText.ofModel style home.path (imports home)

section

variable {home : Module}

/-- Every hint in the module can be read. -/
theorem legible_of_mem_hints
    (identifiers : ∀ name ∈ classNames home, isIdentifier name = true) {model : Model}
    (inside : model ∈ home.models) :
    ∀ hint ∈ ClassText.hints home.path (imports home) model,
      hint.Legible (· ∈ classNames home) := by
  intro hint listed
  apply (ClassText.built_of_mem_hints _ listed).legible
  intro target referred
  have named : target.name ∈ classNames home :=
    List.mem_flatMap.mpr ⟨model, inside,
      List.mem_cons_of_mem _ (List.mem_map_of_mem referred)⟩
  have word := (isIdentifier_iff.mp (identifiers _ named)).1.word
  obtain ⟨-, same⟩ | ⟨relative, imported, same⟩ := ofRef_of_mem_refs inside referred
  · rw [same]
    exact Hint.legible_plain word (.inr named)
  · rw [same]
    exact Hint.legible_qualified (Imports.plain_of_mem imported).binding word

/-- The lines of a class use what the class counts. -/
theorem block_class (identifiers : ∀ name ∈ classNames home, isIdentifier name = true)
    (style : Style) {model : Model} (inside : model ∈ home.models) :
    Block (· ∈ classNames home) (classText style home model).uses nothing
      (classText style home model).lines := by
  have named : model.name ∈ classNames home :=
    List.mem_flatMap.mpr ⟨model, inside, List.mem_cons_self⟩
  have word := (isIdentifier_iff.mp (identifiers _ named)).1.word
  exact ClassText.block_ofModel style word (legible_of_mem_hints identifiers inside)

/-- The lines before the classes. -/
def headLines (style : Style) (home : Module) : List String :=
  firstLine :: [Library.standardLines (uses style home),
    (Library.pydantic.importLine? (uses style home)).toList, (imports home).lines].flatMap separated

/-- The lines of the classes, in the order of their ranks. -/
def classLines (style : Style) (ranks : DeclarationOrder.Ranks) (home : Module) : List String :=
  (arranged ranks home).flatMap fun model => "" :: "" :: (classText style home model).lines

theorem moduleText_eq_joinLines (style : Style) (ranks : DeclarationOrder.Ranks) (home : Module) :
    moduleText style ranks home =
      joinLines (headLines style home ++ classLines style ranks home) := by
  rw [moduleText_eq, importGroups, assemble_eq, allLines, List.flatMap_map, List.flatMap_map]
  rfl

theorem block_headLines {known : String → Prop} (style : Style) (home : Module) :
    Block known [] (namesFrom (uses style home)) (headLines style home) :=
  block_firstLine.append (block_importGroups (uses style home) home.path (referenced home))

/-- The lines of a module import just what its classes use. -/
theorem block_moduleLines (identifiers : ∀ name ∈ classNames home, isIdentifier name = true)
    (style : Style) (ranks : DeclarationOrder.Ranks) :
    Block (· ∈ classNames home) (uses style home) (namesFrom (uses style home))
      (headLines style home ++ classLines style ranks home) := by
  have classes : Block (· ∈ classNames home)
      ((arranged ranks home).flatMap fun model => (classText style home model).uses) nothing
      (classLines style ranks home) := by
    apply Block.flatMap
    intro model listed
    have own := block_class identifiers style (List.mem_mergeSort.mp listed)
    exact block_blank.append (block_blank.append own)
  have lines := (block_headLines style home).append classes
  refine (lines.congr fun name => ?_).imports_congr fun library => List.append_nil _
  rw [← mem_uses_arranged style ranks, List.flatMap_map]
  rfl

/-- Classes that have code each have it behind two blank lines in all of their lines. -/
theorem exists_spells_classes {models : List Model} {lines : Model → List String}
    (each : ∀ model ∈ models, ∃ own, Spells (lines model) own) :
    ∃ classes, List.Forall₂ (fun model own => Spells (lines model) own) models classes ∧
      Spells (models.flatMap fun model => "" :: "" :: lines model)
        (classes.flatMap ([] :: [] :: ·)) := by
  induction models with
  | nil => exact ⟨[], .nil, .nil⟩
  | cons model models ih =>
    obtain ⟨⟨own, spells⟩, later⟩ := List.forall_mem_cons.mp each
    obtain ⟨classes, related, others⟩ := ih later
    exact ⟨own :: classes, .cons spells related,
      (Spells.blank.append (Spells.blank.append spells)).append others⟩

/-- The code ends with the code of the classes, one after another by their ranks and each behind two
blank lines. -/
def EndsWithClasses (style : Style) (ranks : DeclarationOrder.Ranks) (home : Module)
    (code : List (List Char)) : Prop :=
  ∃ head classes, code = head ++ classes.flatMap ([] :: [] :: ·) ++ [[]] ∧
    List.Forall₂ (fun model own =>
        codeLines? (joinLines (classText style home model).lines) = some (own ++ [[]]))
      (arranged ranks home) classes

theorem endsWithClasses (identifiers : ∀ name ∈ classNames home, isIdentifier name = true)
    {style : Style} {ranks : DeclarationOrder.Ranks} {code : List (List Char)}
    (spells : Spells (headLines style home ++ classLines style ranks home) code) :
    EndsWithClasses style ranks home (code ++ [[]]) := by
  obtain ⟨head, head_spells, -⟩ :=
    @block_headLines (· ∈ classNames home) style home
  obtain ⟨classes, related, class_spells⟩ :=
    @exists_spells_classes (arranged ranks home) (fun model => (classText style home model).lines)
      fun model listed =>
        have ⟨own, own_spells, _⟩ := block_class identifiers style (List.mem_mergeSort.mp listed)
        ⟨own, own_spells⟩
  refine ⟨head, classes, ?_, related.imp fun _ _ own => own.codeLines?_eq⟩
  rw [spells.unique (head_spells.append class_spells)]

/-- What the code of a module imports from a library. -/
def importedFrom (library : Library) (code : List (List Char)) : List String :=
  code.flatMap (importedIn library)

/-- The names that the code of a module uses, which leaves out those behind a binding. -/
def usedNames (code : List (List Char)) : List String := code.flatMap usedIn

/-- The code imports the library names that it uses and no others. -/
structure ImportsExact (classNames : List String) (code : List (List Char)) : Prop where
  /-- What is imported from a library is a name of that library, and used. -/
  imported : ∀ library, ∀ text ∈ importedFrom library code,
    text ∈ usedNames code ∧ ∃ name : LibraryName, name.library = library ∧ name.text = text
  /-- A library name is imported from its library where it is used, unless it names a class. -/
  used : ∀ name : LibraryName, name.text ∈ usedNames code → name.text ∉ classNames →
    name.text ∈ importedFrom name.library code
  /-- Nothing else is used. -/
  others : ∀ text ∈ usedNames code, text ∈ Hint.builtins ∨ text ∈ classNames ∨
    ∃ library, text ∈ importedFrom library code
  once : ∀ library, (importedFrom library code).Nodup

theorem text_injective : Function.Injective LibraryName.text := by
  intro first second same
  cases first <;> cases second <;> first | rfl | exact absurd same (by decide)

theorem mem_namesFrom {uses : List LibraryName} {library : Library} {text : String} :
    text ∈ namesFrom uses library ↔ ∃ name ∈ uses, name.library = library ∧ name.text = text := by
  have all : ∀ name : LibraryName, name ∈ LibraryName.all := by
    intro name
    cases name <;> decide
  simp [namesFrom, all, and_assoc, and_left_comm]

theorem nodup_namesFrom (uses : List LibraryName) (library : Library) :
    (namesFrom uses library).Nodup := by
  have all : LibraryName.all.Nodup := by decide
  exact (all.filter _).map text_injective

/-- Code that accounts for the names that are counted, and imports the counted names from their
libraries, imports what it uses and nothing else. -/
theorem ImportsExact.of_accounts {classNames : List String} {uses : List LibraryName}
    {code : List (List Char)} (accounts : Accounts (· ∈ classNames) uses (usedNames code))
    (imports : ∀ library, importedFrom library code = namesFrom uses library) :
    ImportsExact classNames code := by
  constructor
  case imported =>
    intro library text listed
    rw [imports, mem_namesFrom] at listed
    obtain ⟨name, used, own, rfl⟩ := listed
    exact ⟨accounts.used name used, name, own, rfl⟩
  case used =>
    intro name inside no_class
    rw [imports, mem_namesFrom]
    obtain builtin | named | ⟨other, used, same⟩ := accounts.known _ inside
    · exact absurd builtin (by cases name <;> decide)
    · exact absurd named no_class
    · obtain rfl := text_injective same
      exact ⟨name, used, rfl, rfl⟩
  case others =>
    intro text inside
    refine (accounts.known _ inside).imp_right (.imp_right ?_)
    rintro ⟨name, used, rfl⟩
    refine ⟨name.library, ?_⟩
    rw [imports, mem_namesFrom]
    exact ⟨name, used, rfl, rfl⟩
  case once =>
    intro library
    rw [imports]
    exact nodup_namesFrom _ library

/-- Whatever the ranks and the style, the code of a module has the code of all its classes, and
imports the library names that it uses and no others. -/
theorem moduleText_imports_exact (style : Style) (ranks : DeclarationOrder.Ranks)
    (identifiers : ∀ name ∈ classNames home, isIdentifier name = true) :
    ∃ code, codeLines? (moduleText style ranks home) = some code ∧
      EndsWithClasses style ranks home code ∧ ImportsExact (classNames home) code := by
  obtain ⟨code, spells, accounts, from_library⟩ := block_moduleLines identifiers style ranks
  have counted : Accounts (· ∈ classNames home) (uses style home) (usedNames (code ++ [[]])) := by
    rw [usedNames, List.flatMap_append]
    exact (List.append_nil (code.flatMap usedIn)).symm ▸ accounts
  have imports : ∀ library, importedFrom library (code ++ [[]]) =
      namesFrom (uses style home) library := by
    intro library
    have blank : importedIn library [] = [] :=
      importedIn_of_startsWithout library (startsWithout_nil _)
    rw [importedFrom, List.flatMap_append, from_library, List.flatMap_singleton, blank,
      List.append_nil]
  exact ⟨code ++ [[]], moduleText_eq_joinLines style ranks home ▸ spells.codeLines?_eq,
    endsWithClasses identifiers spells, .of_accounts counted imports⟩

end

namespace Owner

def home : Module :=
  ⟨["k8s", "core", "v1"], [.object ⟨"Owner", none, [
    ⟨"since", .union [.date, .null], false, false, some "no List(Any)", none, false⟩,
    ⟨"kinds", .map (.ref ⟨["k8s", "meta", "v1"], "Kind"⟩), true, false, none, none, false⟩]⟩]⟩

/-- The names in the description do not count. -/
theorem owner_imports_exact :
    (∀ name ∈ classNames home, isIdentifier name = true) ∧
      ∃ code, codeLines? (moduleText {} [] home) = some code ∧
        EndsWithClasses {} [] home code ∧ ImportsExact (classNames home) code ∧
        importedFrom .datetime code = ["date"] ∧ importedFrom .enum code = [] ∧
        importedFrom .typing code = ["Dict", "Optional"] ∧
        importedFrom .pydantic code = ["BaseModel", "Field"] := by
  have identifiers : ∀ name ∈ classNames home, isIdentifier name = true := by decide
  have imported : (codeLines? (moduleText {} [] home)).map (fun code =>
      [Library.datetime, .enum, .typing, .pydantic].map (importedFrom · code)) =
        some [["date"], [], ["Dict", "Optional"], ["BaseModel", "Field"]] := by
    decide +kernel
  obtain ⟨code, read, ends, imports⟩ := moduleText_imports_exact {} [] identifiers
  rw [read, Option.map_some] at imported
  refine ⟨identifiers, code, read, ends, imports, ?_⟩
  simpa using imported

end Owner

end ModuleText

end ResourceModels.Code

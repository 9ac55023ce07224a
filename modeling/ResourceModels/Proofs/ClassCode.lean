import Mathlib
import ResourceModels.Proofs.CalledNames
import ResourceModels.Proofs.EnumMembers

/-!
# The code of lines

Lines are read one after another, so what some of them use and import does not depend on the others
(`Block`). A class uses the library names that it counts, whatever its fields and members are, and
imports none (`block_ofModel`).
-/

namespace ResourceModels.Code

/-- The names that a line of code imports from a library. -/
def importedIn (library : Library) (line : List Char) : List String :=
  let start := ("from " ++ library.text ++ " import ").toList
  if start.isPrefixOf line then namesIn (line.drop start.length) else []

example : importedIn .typing "from typing import Any, List".toList = ["Any", "List"] := by decide

theorem importedIn_of_startsWithout (library : Library) {line : List Char}
    (other : StartsWithout (· = 'f') line) : importedIn library line = [] := by
  have start : ("from " ++ library.text ++ " import ").toList =
      'f' :: ("rom ".toList ++ (library.text.toList ++ " import ".toList)) := by
    simp
  have no_prefix : ("from " ++ library.text ++ " import ").toList.isPrefixOf line = false := by
    rw [start]
    cases line with
    | nil => rfl
    | cons c rest =>
      have different : ('f' == c) = false := beq_eq_false_iff_ne.mpr fun same =>
        of_decide_eq_false (other c rfl) same.symm
      rw [List.isPrefixOf, different, Bool.false_and]
  rw [importedIn, no_prefix, if_neg Bool.false_ne_true]

namespace ModuleText

theorem joinLines_cons (line : String) (lines : List String) :
    joinLines (line :: lines) = line ++ "\n" ++ joinLines lines := by
  rw [joinLines, List.map_cons, String.join_cons]
  rfl

theorem joinLines_append (lines more : List String) :
    joinLines (lines ++ more) = joinLines lines ++ joinLines more := by
  rw [joinLines, List.map_append, String.join_append]
  rfl

theorem joinLines_eq {lines : List String} (nonempty : lines ≠ []) :
    joinLines lines = "\n".intercalate lines ++ "\n" := by
  induction lines with
  | nil => exact absurd rfl nonempty
  | cons line lines ih =>
    rw [joinLines_cons]
    cases lines with
    | nil => rw [String.intercalate_singleton]; exact String.append_empty
    | cons next lines =>
      rw [String.intercalate_cons_cons, ih (List.cons_ne_nil next lines), ← String.append_assoc]

end ModuleText

/-- Lines of code, with a line break behind each of them. -/
def joinCode (code : List (List Char)) : List Char := code.flatMap (· ++ ['\n'])

theorem pieces_joinCode {code : List (List Char)} (whole : ∀ line ∈ code, '\n' ∉ line) :
    Text.pieces (· = '\n') (joinCode code) = code ++ [[]] := by
  induction code with
  | nil => rfl
  | cons line code ih =>
    obtain ⟨here, later⟩ := List.forall_mem_cons.mp whole
    rw [joinCode, List.flatMap_cons, List.append_assoc, List.singleton_append,
      Text.pieces_append (decide_eq_true rfl), Text.pieces_of_not_mem here, ← joinCode, ih later]
    rfl

/-- These are the lines of code in the lines, whatever comes behind them. -/
structure Spells (lines : List String) (code : List (List Char)) : Prop where
  whole : ∀ line ∈ code, '\n' ∉ line
  seen : ∀ rest, codeFrom .start ((ModuleText.joinLines lines).toList ++ rest) =
    (codeFrom .start rest).map (joinCode code ++ ·)

namespace Spells

variable {lines more : List String} {code others : List (List Char)}

theorem nil : Spells [] [] := ⟨by simp, fun _ => (map_append_nil _).symm⟩

theorem append (left : Spells lines code) (right : Spells more others) :
    Spells (lines ++ more) (code ++ others) := by
  refine ⟨List.forall_mem_append.mpr ⟨left.whole, right.whole⟩, fun rest => ?_⟩
  rw [ModuleText.joinLines_append, String.toList_append, List.append_assoc, left.seen, right.seen,
    map_append_append, joinCode, joinCode, joinCode, List.flatMap_append]

/-- Lines that are one line of code together. -/
theorem of_shows {line : List Char} (nonempty : lines ≠ [])
    (shows : Shows false ("\n".intercalate lines).toList line) (whole : '\n' ∉ line) :
    Spells lines [line] := by
  refine ⟨List.forall_mem_singleton.mpr whole, fun rest => ?_⟩
  have behind : codeFrom .start ('\n' :: rest) = (codeFrom .start rest).map (['\n'] ++ ·) :=
    codeFrom_cons rfl rest
  have shown := shows [] Bool.false_ne_true.elim ('\n' :: rest) (startsWithout_cons rfl rest)
  rw [ModuleText.joinLines_eq nonempty, String.toList_append, List.append_assoc]
  refine shown.trans ?_
  rw [← Scope.start, behind, map_append_append, joinCode, List.flatMap_singleton]

/-- The lines of code of a text are those in its lines, and an empty one behind them. -/
theorem codeLines?_eq (spells : Spells lines code) :
    codeLines? (ModuleText.joinLines lines) = some (code ++ [[]]) := by
  have seen := spells.seen []
  have nothing : codeFrom .start [] = some [] := rfl
  rw [List.append_nil, nothing, Option.map_some, List.append_nil] at seen
  rw [codeLines?, seen, Option.map_some, pieces_joinCode spells.whole]

theorem unique (spells : Spells lines code) (again : Spells lines others) : code = others :=
  List.append_cancel_right (Option.some.inj (spells.codeLines?_eq.symm.trans again.codeLines?_eq))

theorem blank : Spells [""] [[]] :=
  .of_shows (List.cons_ne_nil _ _) passes_nil.shows List.not_mem_nil

end Spells

/-- Lines with code that accounts for the library names used and imports just the names given. -/
def Block (classes : String → Prop) (uses : List LibraryName)
    (imported : Library → List String) (lines : List String) : Prop :=
  ∃ code, Spells lines code ∧ Accounts classes uses (code.flatMap usedIn) ∧
    ∀ library, code.flatMap (importedIn library) = imported library

/-- No name from any library. -/
def nothing : Library → List String := fun _ => []

namespace Block

variable {classes : String → Prop} {uses more : List LibraryName}
  {imported others : Library → List String} {first second : List String}

theorem nil : Block classes [] nothing [] := ⟨[], .nil, .nil, fun _ => rfl⟩

theorem append (left : Block classes uses imported first)
    (right : Block classes more others second) :
    Block classes (uses ++ more) (fun library => imported library ++ others library)
      (first ++ second) := by
  obtain ⟨code, spells, accounts, from_library⟩ := left
  obtain ⟨more_code, more_spells, more_accounts, more_from_library⟩ := right
  refine ⟨code ++ more_code, spells.append more_spells, ?_, fun library => ?_⟩
  · rw [List.flatMap_append]
    exact accounts.append more_accounts
  · rw [List.flatMap_append, from_library, more_from_library]

theorem congr (same : ∀ name, name ∈ uses ↔ name ∈ more)
    (block : Block classes uses imported first) : Block classes more imported first := by
  obtain ⟨code, spells, accounts, from_library⟩ := block
  exact ⟨code, spells, accounts.congr same, from_library⟩

theorem imports_congr (same : ∀ library, imported library = others library)
    (block : Block classes uses imported first) : Block classes uses others first :=
  funext same ▸ block

theorem flatMap {α : Type} {list : List α} {uses : α → List LibraryName}
    {lines : α → List String}
    (each : ∀ member ∈ list, Block classes (uses member) nothing (lines member)) :
    Block classes (list.flatMap uses) nothing (list.flatMap lines) := by
  induction list with
  | nil => exact nil
  | cons member list ih =>
    obtain ⟨here, later⟩ := List.forall_mem_cons.mp each
    exact here.append (ih later)

theorem map {α : Type} {list : List α} {line : α → String}
    (each : ∀ member ∈ list, Block classes [] nothing [line member]) :
    Block classes [] nothing (list.map line) := by
  induction list with
  | nil => exact nil
  | cons member list ih =>
    obtain ⟨here, later⟩ := List.forall_mem_cons.mp each
    exact here.append (ih later)

theorem of_line {line : List Char} (nonempty : first ≠ [])
    (shows : Shows false ("\n".intercalate first).toList line) (whole : '\n' ∉ line)
    (accounts : Accounts classes uses (usedIn line)) :
    Block classes uses (importedIn · line) first := by
  refine ⟨[line], .of_shows nonempty shows whole, ?_, fun library => ?_⟩
  · rwa [List.flatMap_singleton]
  · rw [List.flatMap_singleton]

/-- Nothing is imported by a line that starts with another letter. -/
theorem of_other {line : List Char} (other : StartsWithout (· = 'f') line) (nonempty : first ≠ [])
    (shows : Shows false ("\n".intercalate first).toList line) (whole : '\n' ∉ line)
    (accounts : Accounts classes uses (usedIn line)) : Block classes uses nothing first := by
  apply (of_line nonempty shows whole accounts).imports_congr
  exact fun library => importedIn_of_startsWithout library other

/-- As `of_other`, for one line. -/
theorem single {text : String} {line : List Char} (other : StartsWithout (· = 'f') line)
    (shows : Shows false text.toList line) (whole : '\n' ∉ line)
    (accounts : Accounts classes uses (usedIn line)) : Block classes uses nothing [text] := by
  refine of_other other (List.cons_ne_nil _ _) ?_ whole accounts
  rwa [String.intercalate_singleton]

end Block

namespace ClassText

open Layout (pad level)

variable {classes : String → Prop} {name : String} {hint : Hint}

theorem inert_assign : Inert (· = '\n') [' ', '=', ' '] :=
  inert_line (fun c => c = ' ' || c = '=') rfl (by simp)

theorem inert_pad (word : IsWord name) : Inert (· = '\n') (pad level name).toList := by
  rw [Layout.toList_pad]
  exact List.forall_mem_append.mpr ⟨inert_blanks level, Layout.inert_name word⟩

theorem passes_target (word : IsWord name) (legible : hint.Legible classes) :
    Passes false (pad level (name ++ ": " ++ hint.text)).toList
      (pad level (name ++ ": " ++ hint.text)).toList := by
  rw [toList_target]
  exact (passes_inert (inert_pad word)).append ((passes_inert inert_colon).append legible.shown)

theorem block_declaration (word : IsWord name) (legible : hint.Legible classes)
    {lines : List String} (nonempty : lines ≠ []) {tail code : List Char}
    (text_eq : ("\n".intercalate lines).toList =
      (pad level (name ++ ": " ++ hint.text)).toList ++ tail)
    (shows : Shows false tail code) (line : '\n' ∉ code)
    (valued : code = [] ∨ ∃ more, code = ' ' :: '=' :: more) {uses : List LibraryName}
    (accounts : Accounts classes uses ((called [] (assigned code)).map String.ofList)) :
    Block classes (hint.uses ++ uses) nothing lines := by
  have target := passes_target word legible
  have used := legible.accounts.append accounts
  rw [← usedIn_declaration word legible valued] at used
  have target_line : '\n' ∉ (pad level (name ++ ": " ++ hint.text)).toList := by
    rw [toList_target]
    simp [(inert_pad word).mute.no_break, legible.no_break]
  have shown := target.append_shows shows
  rw [← text_eq] at shown
  refine .of_other ?_ nonempty shown ?_ used
  · rw [Layout.toList_pad]
    exact startsWithout_cons rfl _
  · rw [List.mem_append]
    exact fun inside => inside.elim target_line line

/-- What is assigned calls the library names that it uses. -/
theorem block_value (word : IsWord name) (legible : hint.Legible classes)
    {lines : List String} (nonempty : lines ≠ []) {source code : List Char}
    (text_eq : ("\n".intercalate lines).toList =
      (pad level (name ++ ": " ++ hint.text ++ " = ")).toList ++ source)
    (shows : Shows false source code) (line : '\n' ∉ code) {uses : List LibraryName}
    (accounts : Accounts classes uses ((called [] code).map String.ofList)) :
    Block classes (hint.uses ++ uses) nothing lines := by
  have shown : Shows false ([' ', '=', ' '] ++ source) ([' ', '=', ' '] ++ code) :=
    (passes_inert inert_assign).append_shows shows
  refine block_declaration word legible nonempty ?_ shown ?_ (.inr ⟨_, rfl⟩) accounts
  · rw [text_eq]
    simp [Layout.toList_pad]
  · simp [line]

theorem block_assignment (word : IsWord name) (legible : hint.Legible classes)
    {value : Option String} (silent : ∀ source ∈ value, Silent false source.toList) :
    Block classes hint.uses nothing
      (Layout.assignment level (name ++ ": " ++ hint.text) value) := by
  rw [← List.append_nil hint.uses]
  cases value with
  | none =>
    refine block_declaration word legible (List.cons_ne_nil _ _) ?_ passes_nil.shows
      List.not_mem_nil (.inl rfl) .nil
    rw [String.intercalate_singleton, List.append_nil]
  | some source =>
    obtain ⟨code, mute, shows⟩ := silent source rfl
    have uncalled := Uncalled.of_no_paren mute.no_paren
    refine block_value word legible (List.cons_ne_nil _ _) ?_ shows mute.no_break ?_
    · rw [String.intercalate_singleton]
      simp [Layout.toList_pad]
    · rw [uncalled.called_eq_nil]
      exact .nil

theorem block_call (word : IsWord name) (legible : hint.Legible classes) (layout : Layout)
    {arguments : List Argument} (quiet : ∀ argument ∈ arguments, argument.Quiet) :
    Block classes (hint.uses ++ [.field]) nothing
      (layout.fieldCall level (name ++ ": " ++ hint.text) arguments) := by
  obtain ⟨inner, value, within, call, text_eq⟩ :=
    layout.exists_callText level (name ++ ": " ++ hint.text) arguments
  obtain ⟨code, line, calls, passes⟩ := call.calls_field (within.callsNothing quiet)
  refine block_value word legible ?_ text_eq passes.shows line ?_
  · intro empty
    simp [empty, Layout.toList_pad] at text_eq
  · rw [calls]
    exact .library .field

theorem silent_value (preferDouble : Bool) (json : Json) :
    Silent false (value preferDouble json).toList := by
  rw [value, String.toList_ofList]
  exact silent_valueChars preferDouble json

theorem silent_defaultSource (style : Style) (field : Field ModelType) :
    ∀ source ∈ defaultSource? style field, Silent false source.toList := by
  intro source given
  unfold defaultSource? at given
  split at given
  · cases given
  · obtain rfl := Option.some.inj given
    exact silent_value _ _

theorem quiet_keyword {key source : String} (word : IsWord key)
    (silent : Silent false source.toList) : (Argument.keyword key source).Quiet := by
  constructor
  · rintro name ⟨⟩
    exact word
  · rintro other ⟨⟩
    exact silent

theorem quiet_positional {source : String} (silent : Silent false source.toList) :
    (Argument.positional source).Quiet := by
  constructor
  · rintro name ⟨⟩
  · rintro other ⟨⟩
    exact silent

theorem quiet_text {key : String} (word : IsWord key) (content : String) :
    (Argument.text key content).Quiet := by
  constructor
  · rintro name ⟨⟩
    exact word
  · rintro other ⟨⟩

theorem quiet_dots : (Argument.positional "...").Quiet :=
  quiet_positional (.of_inert (inert_line (· = '.') rfl (by simp)))

theorem quiet_leading (style : Style) (field : Field ModelType) :
    (leading style (defaultSource? style field)).Quiet := by
  have silent := silent_defaultSource style field
  cases given : defaultSource? style field with
  | none => exact quiet_dots
  | some source =>
    rw [leading]
    split
    · exact quiet_keyword (isWord_of_all rfl) (silent source given)
    · exact quiet_positional (silent source given)

theorem quiet_notes (style : Style) (wireName description : Option String) :
    ∀ argument ∈ notes style wireName description, argument.Quiet := by
  have literal : ∀ content, Silent false (quote style.preferDouble content).toList := by
    intro content
    rw [quote, String.toList_ofList]
    exact .literal style.preferDouble content.toList
  intro argument listed
  simp only [notes, List.mem_append, Option.mem_toList, Option.map_eq_some_iff]
    at listed
  obtain ⟨name, -, rfl⟩ | ⟨content, -, rfl⟩ := listed
  · exact quiet_keyword (isWord_of_all rfl) (literal name)
  · exact quiet_text (isWord_of_all rfl) content

/-- A field uses the names in its hint, and that of the field if it is called. -/
theorem block_ofField (style : Style) {current : ModulePath} {imports : Imports}
    {field : Field ModelType} (legible : (fieldHint current imports field).Legible classes) :
    Block classes (ofField style current imports field).uses nothing
      (ofField style current imports field).lines := by
  have word := isWord_fieldName field.name
  have noted := quiet_notes style (fieldName field.name).2 field.description
  rw [ofField_eq]
  dsimp only
  split
  · exact block_assignment word legible (silent_defaultSource style field)
  · have quiet := List.forall_mem_cons.mpr ⟨quiet_leading style field, noted⟩
    apply (block_call word legible style.layout quiet).congr
    simp [or_comm]

/-- A class uses the names in its base. -/
theorem block_head {base : Hint} (word : IsWord name) (legible : base.Legible classes)
    {text : String} (spelling : text.toList = "class ".toList ++
      (name.toList ++ ('(' :: (base.text.toList ++ [')']) ++ [':']))) :
    Block classes base.uses nothing [text] := by
  have start : Inert (· = '\n') "class ".toList :=
    inert_line (fun c => continuesIdentifier c || c = ' ') rfl (List.all_eq_true.mp rfl)
  have colon : Inert (· = '\n') [':'] := inert_line (· = ':') rfl (by simp)
  have bases : Passes false ('(' :: (base.text.toList ++ [')'])) _ :=
    legible.shown.anywhere.shows.brackets rfl
  have shown := (passes_inert start).append
    ((passes_inert (Layout.inert_name word)).append (bases.append (passes_inert colon)))
  rw [← spelling] at shown
  refine .single ?_ shown.shows ?_ ?_ <;> rw [spelling]
  · exact startsWithout_cons rfl _
  · simp [(Layout.inert_name word).mute.no_break, legible.no_break]
  · have before : ∀ c ∈ "class ".toList ++ name.toList, decide (c ≠ '(') = true := by
      refine List.forall_mem_append.mpr ⟨List.all_eq_true.mp rfl, fun c inside => ?_⟩
      exact decide_eq_true (ne_of_kind (continuesIdentifier_iff.mpr (word c inside)) rfl)
    have is_class : "class ".toList.isPrefixOf ("class ".toList ++
        (name.toList ++ ('(' :: (base.text.toList ++ [')']) ++ [':']))) = true := rfl
    rw [usedIn, is_class, if_pos rfl, ← List.append_assoc,
      List.dropWhile_append_of_pos before, List.cons_append, List.append_assoc]
    change Accounts classes base.uses (namesIn ('(' :: (base.text.toList ++ ')' :: [':'])))
    have behind : namesIn [':'] = [] := rfl
    rw [namesIn_cons (by decide), namesIn_append (by decide), behind, List.append_nil]
    exact legible.accounts

theorem block_pass : Block classes [] nothing [emptyBody] := by
  have inert : Inert (· = '\n') emptyBody.toList :=
    inert_line (fun c => continuesIdentifier c || c = ' ') rfl (List.all_eq_true.mp rfl)
  exact .single (startsWithout_cons rfl _) (passes_inert inert).shows (by decide) .nil

/-- The value of a member is a literal, of which nothing is seen. -/
theorem block_member (word : IsWord name) (preferDouble : Bool) (content : String) :
    Block classes [] nothing [pad level (name ++ " = " ++ quote preferDouble content)] := by
  have spelling : (pad level (name ++ " = " ++ quote preferDouble content)).toList =
      (pad level name).toList ++ ([' ', '=', ' '] ++
        quoteEscaped preferDouble (escape content.toList)) := by
    rw [quote, quoteChars]
    simp [Layout.toList_pad]
  have literal : Shows false (quoteEscaped preferDouble (escape content.toList)) [] :=
    shows_literal preferDouble content.toList
  have shown := (passes_inert (inert_pad word)).append_shows
    ((passes_inert inert_assign).append_shows literal)
  rw [← spelling] at shown
  refine .single ?_ shown ?_ ?_
  · rw [Layout.toList_pad]
    exact startsWithout_cons rfl _
  · simp [(inert_pad word).mute.no_break]
  · have name_colon := all_ne_pad word level (d := ':') (by decide) (by decide)
    have name_equals := all_ne_pad word level (d := '=') (by decide) (by decide)
    rw [usedIn_pad, hintPart, List.takeWhile_append_of_pos name_equals,
      List.dropWhile_append_of_pos name_colon, assigned, List.dropWhile_append_of_pos name_equals]
    exact .nil

variable {current : ModulePath} {imports : Imports}

theorem block_ofEnum (style : Style) {model : EnumModel} (word : IsWord model.name) :
    Block classes (ofEnum style model).uses nothing (ofEnum style model).lines := by
  have head : Block classes [.enum] nothing ["class " ++ model.name ++ "(Enum):"] := by
    apply block_head word (Hint.legible_library .enum)
    rw [Hint.text]
    simp [LibraryName.text]
  have body : Block classes [] nothing (if model.variants.isEmpty then [emptyBody]
      else (members [] model.variants).map fun member =>
        pad level (member.1 ++ " = " ++ quote style.preferDouble member.2)) := by
    split_ifs
    · exact block_pass
    · have inTurn := members_named [] model.variants
      exact .map fun member inside =>
        block_member (inTurn.words member inside) style.preferDouble member.2
  exact head.append body

theorem block_ofObject (style : Style) {model : ObjectModel ModelType} (word : IsWord model.name)
    (legible : ∀ field ∈ model.fields, (fieldHint current imports field).Legible classes) :
    Block classes (ofObject style current imports model).uses nothing
      (ofObject style current imports model).lines := by
  have head : Block classes [.baseModel] nothing ["class " ++ model.name ++ "(BaseModel):"] := by
    apply block_head word (Hint.legible_library .baseModel)
    rw [Hint.text]
    simp [LibraryName.text]
  have body : Block classes ((model.fields.map (ofField style current imports)).flatMap uses)
      nothing (if (model.fields.map (ofField style current imports)).isEmpty then [emptyBody]
        else (model.fields.map (ofField style current imports)).flatMap lines) := by
    split_ifs with empty
    · rw [List.isEmpty_iff.mp empty]
      exact block_pass
    · apply Block.flatMap
      exact List.forall_mem_map.mpr fun field listed => block_ofField style (legible field listed)
  exact head.append body

/-- The names in the hint are used twice, in the base and in the annotation. -/
theorem block_ofAlias (style : Style) {model : AliasModel} (word : IsWord model.name)
    (legible : (Hint.ofType current imports model.target).Legible classes) :
    Block classes (ofAlias style current imports model).uses nothing
      (ofAlias style current imports model).lines := by
  have root : IsWord "root" := isWord_of_all rfl
  have head : Block classes
      (Hint.apply .rootModel [Hint.ofType current imports model.target]).uses nothing
      ["class " ++ model.name ++ "(RootModel[" ++
        (Hint.ofType current imports model.target).text ++ "]):"] := by
    apply block_head word (.apply .rootModel (List.forall_mem_singleton.mpr legible))
    rw [Hint.text_apply]
    simp [LibraryName.text]
  rw [ofAlias]
  split
  next description _ =>
    have described : (Argument.text "description" description).Quiet :=
      quiet_text (isWord_of_all rfl) description
    have quiet := List.forall_mem_cons.mpr ⟨quiet_dots, List.forall_mem_singleton.mpr described⟩
    apply (head.append (block_call root legible style.layout quiet)).congr
    simp only [Hint.uses, Hint.usesOfAll]
    grind
  next =>
    have silent : ∀ source ∈ (none : Option String), Silent false source.toList := by simp
    apply (head.append (block_assignment root legible silent)).congr
    simp only [Hint.uses, Hint.usesOfAll]
    grind

/-- A class uses the library names that it counts, and imports none. -/
theorem block_ofModel (style : Style) {model : Model} (word : IsWord model.name)
    (legible : ∀ hint ∈ hints current imports model, hint.Legible classes) :
    Block classes (ofModel style current imports model).uses nothing
      (ofModel style current imports model).lines := by
  cases model with
  | object model =>
    exact block_ofObject style word fun field listed =>
      legible _ (List.mem_map_of_mem listed)
  | enum model => exact block_ofEnum style word
  | «alias» model => exact block_ofAlias style word (legible _ (List.mem_singleton.mpr rfl))

end ClassText

end ResourceModels.Code

import Mathlib
import ResourceModels.Proofs.CodeReading
import ResourceModels.Proofs.Layouts
import ResourceModels.Proofs.Scopes

/-!
# The names that a line of code uses

A line that starts a class uses the names of its bases, and a line in a class the names in its
annotation and those it calls. A hint uses just the library names that it counts as used, beside
built-in names and classes (`Built.legible`), and a declaration the names in its hint and those that
are called in what is assigned (`usedIn_declaration`).
-/

namespace ResourceModels.Code

/-- What a name with the module in front of it is made of. -/
def continuesDotted (c : Char) : Bool := continuesIdentifier c || c = '.'

/-- The names in an annotation or among bases. What stands behind a module is not among them. -/
def namesIn (code : List Char) : List String :=
  ((Text.pieces (fun c => !continuesDotted c) code).filter fun word =>
    !word.isEmpty && !word.contains '.').map String.ofList

/-- The names that are called, `word` being what has just been read of a name. -/
def called (word : List Char) : List Char → List (List Char)
  | [] => []
  | c :: rest =>
    if continuesIdentifier c then called (word ++ [c]) rest
    else if c = '(' && !word.isEmpty then word :: called [] rest
    else called [] rest

/-- What stands from a colon up to an equals sign. -/
def hintPart (line : List Char) : List Char := (line.takeWhile (· ≠ '=')).dropWhile (· ≠ ':')

/-- What stands from an equals sign on. -/
def assigned (line : List Char) : List Char := line.dropWhile (· ≠ '=')

/-- The names that a line of code uses: those of bases, in an annotation, or called in a value. -/
def usedIn (line : List Char) : List String :=
  if "class ".toList.isPrefixOf line then namesIn (line.dropWhile (· ≠ '('))
  else namesIn (hintPart line) ++ (called [] (assigned line)).map String.ofList

example : usedIn "class Owner(RootModel[List[v1.Any]]):".toList = ["RootModel", "List"] := by
  decide

example : usedIn "    date: Optional[str] = Field(None, alias=, pattern=( ))".toList =
    ["Optional", "str", "Field"] := by
  decide

section

variable {c : Char} (ends : continuesDotted c = false)
include ends

theorem namesIn_append (first second : List Char) :
    namesIn (first ++ c :: second) = namesIn first ++ namesIn second := by
  rw [namesIn, Text.pieces_append (by rw [ends]; rfl), List.filter_append, List.map_append]
  rfl

theorem namesIn_cons (rest : List Char) : namesIn (c :: rest) = namesIn rest :=
  namesIn_append ends [] rest

end

theorem namesIn_of_dotted {word : List Char} (whole : ∀ c ∈ word, continuesDotted c = true) :
    namesIn word = if word = [] ∨ '.' ∈ word then [] else [String.ofList word] := by
  have one_piece : Text.pieces (fun c => !continuesDotted c) word = [word] :=
    Text.pieces_eq_singleton fun c inside => by rw [whole c inside]; rfl
  rw [namesIn, one_piece]
  split
  next left_out => rcases left_out with rfl | dotted <;> simp [*]
  next kept =>
    rw [not_or] at kept
    simp [kept]

theorem namesIn_intercalate (texts : List (List Char)) :
    namesIn ([',', ' '].intercalate texts) = texts.flatMap namesIn := by
  induction texts with
  | nil => rfl
  | cons text texts ih =>
    cases texts with
    | nil => simp
    | cons next texts =>
      rw [List.intercalate_cons_cons, List.append_assoc, List.cons_append,
        namesIn_append (by decide), List.singleton_append, namesIn_cons (by decide), ih]
      rfl

/-- The library names that count as used are among the names, and the other names among them are
built in or classes. -/
structure Accounts (classes : String → Prop) (uses : List LibraryName) (names : List String) :
    Prop where
  used : ∀ name ∈ uses, name.text ∈ names
  known : ∀ text ∈ names,
    text ∈ Hint.builtins ∨ classes text ∨ ∃ name ∈ uses, text = name.text

namespace Accounts

variable {classes : String → Prop} {uses more : List LibraryName} {names others : List String}

theorem nil : Accounts classes [] [] := ⟨by simp, by simp⟩

theorem library (name : LibraryName) : Accounts classes [name] [name.text] :=
  ⟨by simp, by simp⟩

theorem append (left : Accounts classes uses names) (right : Accounts classes more others) :
    Accounts classes (uses ++ more) (names ++ others) := by
  constructor
  case used =>
    intro name inside
    rcases List.mem_append.mp inside with here | later
    · exact List.mem_append_left _ (left.used name here)
    · exact List.mem_append_right _ (right.used name later)
  case known =>
    intro text inside
    rcases List.mem_append.mp inside with here | later
    · refine (left.known text here).imp_right (.imp_right ?_)
      exact fun ⟨name, used, same⟩ => ⟨name, List.mem_append_left _ used, same⟩
    · refine (right.known text later).imp_right (.imp_right ?_)
      exact fun ⟨name, used, same⟩ => ⟨name, List.mem_append_right _ used, same⟩

theorem flatMap {α : Type} {list : List α} {uses : α → List LibraryName} {names : α → List String}
    (each : ∀ member ∈ list, Accounts classes (uses member) (names member)) :
    Accounts classes (list.flatMap uses) (list.flatMap names) := by
  induction list with
  | nil => exact nil
  | cons member list ih =>
    obtain ⟨here, later⟩ := List.forall_mem_cons.mp each
    exact here.append (ih later)

theorem congr (same : ∀ name, name ∈ uses ↔ name ∈ more) (accounts : Accounts classes uses names) :
    Accounts classes more names := by
  constructor
  case used => exact fun name inside => accounts.used name ((same name).mpr inside)
  case known =>
    intro text inside
    refine (accounts.known text inside).imp_right (.imp_right ?_)
    exact fun ⟨name, used, text_eq⟩ => ⟨name, (same name).mp used, text_eq⟩

end Accounts

def isHintChar (c : Char) : Bool := continuesDotted c || ['[', ']', ',', ' '].contains c

theorem dotted_of_word {text : String} (word : IsWord text) :
    ∀ c ∈ text.toList, continuesDotted c = true := by
  intro c inside
  rw [continuesDotted, continuesIdentifier_iff.mpr (word c inside), Bool.true_or]

namespace Hint

variable {classes : String → Prop}

/-- The hint is seen as it is written, and the names in it account for those that count as used. -/
structure Legible (classes : String → Prop) (hint : Hint) : Prop where
  spelling : ∀ c ∈ hint.text.toList, isHintChar c = true
  shown : Passes false hint.text.toList hint.text.toList
  accounts : Accounts classes hint.uses (namesIn hint.text.toList)

theorem Legible.no_break {hint : Hint} (legible : hint.Legible classes) :
    '\n' ∉ hint.text.toList :=
  fun inside => ne_of_kind (legible.spelling _ inside) rfl rfl

theorem legible_of_dotted {hint : Hint} {text : String} (same : hint.text = text)
    (dotted : ∀ c ∈ text.toList, continuesDotted c = true)
    (accounts : Accounts classes hint.uses (namesIn text.toList)) : hint.Legible classes where
  spelling := fun c inside => by rw [isHintChar, dotted c (same ▸ inside), Bool.true_or]
  shown := same ▸ passes_inert (inert_line continuesDotted rfl dotted)
  accounts := same ▸ accounts

theorem legible_plain {text : String} (word : IsWord text)
    (known : text ∈ builtins ∨ classes text) : (plain text).Legible classes := by
  have dotted := dotted_of_word word
  apply legible_of_dotted (by rw [Hint.text]) dotted
  refine ⟨fun _ absent => absurd absent List.not_mem_nil, ?_⟩
  rw [namesIn_of_dotted dotted]
  split
  · simp
  · simpa [uses] using known

theorem dotted_library (name : LibraryName) :
    ∀ c ∈ name.text.toList, continuesDotted c = true := by
  apply List.all_eq_true.mp
  cases name <;> rfl

theorem namesIn_library (name : LibraryName) : namesIn name.text.toList = [name.text] := by
  cases name <;> decide

theorem legible_library (name : LibraryName) : (library name).Legible classes := by
  apply legible_of_dotted (by rw [Hint.text]) (dotted_library name)
  rw [namesIn_library]
  exact .library name

/-- A name behind a binding is none of a library. -/
theorem legible_qualified {binding name : String} (binding_word : IsWord binding)
    (name_word : IsWord name) : (qualified binding name).Legible classes := by
  have spelling : (binding ++ "." ++ name).toList = binding.toList ++ '.' :: name.toList := by simp
  have dotted : ∀ c ∈ (binding ++ "." ++ name).toList, continuesDotted c = true := by
    rw [spelling, List.forall_mem_append, List.forall_mem_cons]
    exact ⟨dotted_of_word binding_word, rfl, dotted_of_word name_word⟩
  apply legible_of_dotted (by rw [Hint.text]) dotted
  rw [namesIn_of_dotted dotted, if_pos (.inr (by simp [spelling]))]
  exact .nil

theorem usesOfAll_eq (hints : List Hint) : usesOfAll hints = hints.flatMap uses := by
  induction hints with
  | nil => rfl
  | cons hint rest ih => rw [usesOfAll, ih, List.flatMap_cons]

theorem toList_apply (name : LibraryName) (arguments : List Hint) :
    (apply name arguments).text.toList = name.text.toList ++
      '[' :: ([',', ' '].intercalate (arguments.map fun hint => hint.text.toList) ++ [']']) := by
  have comma : (", " : String).toList = [',', ' '] := by decide
  rw [text_apply, String.toList_append, String.toList_append, String.toList_append,
    String.toList_intercalate, List.map_map, comma]
  simp [Function.comp_def]

theorem Legible.apply (name : LibraryName) {arguments : List Hint}
    (each : ∀ hint ∈ arguments, hint.Legible classes) :
    (Hint.apply name arguments).Legible classes := by
  have head := dotted_library name
  constructor <;> rw [toList_apply]
  case spelling =>
    have inner : ∀ c ∈ [',', ' '].intercalate (arguments.map fun hint => hint.text.toList),
        isHintChar c = true := by
      apply kind_intercalate rfl rfl
      exact List.forall_mem_map.mpr fun hint listed => (each hint listed).spelling
    rw [List.forall_mem_append, List.forall_mem_cons, List.forall_mem_append]
    refine ⟨fun c inside => ?_, rfl, inner, List.all_eq_true.mp rfl⟩
    rw [isHintChar, head c inside, Bool.true_or]
  case shown =>
    have inner : Passes true ([',', ' '].intercalate (arguments.map fun hint => hint.text.toList))
        ([',', ' '].intercalate (arguments.map fun hint => hint.text.toList)) := by
      apply intercalate_induction fun text => Passes true text text
      case nothing => exact passes_nil
      case each =>
        exact List.forall_mem_map.mpr fun hint listed => (each hint listed).shown.anywhere
      case joined =>
        intro text rest here later
        exact here.append ((passes_inert inert_comma).append later)
    exact (passes_inert (inert_line continuesDotted rfl head)).append (inner.shows.brackets rfl)
  case accounts =>
    rw [namesIn_append (by decide), namesIn_append (by decide), namesIn_library,
      namesIn_intercalate, List.flatMap_map, uses, usesOfAll_eq, show namesIn [] = [] from rfl,
      List.append_nil]
    apply (Accounts.library name).append
    exact .flatMap fun hint listed => (each hint listed).accounts

theorem Built.legible {hint : Hint} (built : hint.Built (Legible classes)) :
    hint.Legible classes := by
  induction built with
  | @builtin text known =>
    have words : ∀ text ∈ builtins, text.toList.all continuesIdentifier = true := by decide
    exact legible_plain (isWord_of_all (words text known)) (.inl known)
  | library name => exact legible_library name
  | ofClass legible => exact legible
  | apply name each ih => exact .apply name ih

end Hint

/-- An indented name holds letters, numbers, underscores and blanks alone. -/
theorem all_ne_pad {name : String} (word : IsWord name) (indent : Nat) {d : Char}
    (no_blank : d ≠ ' ') (other : continuesIdentifier d = false) :
    ∀ c ∈ (Layout.pad indent name).toList, decide (c ≠ d) = true := by
  intro c inside
  rw [Layout.toList_pad, List.mem_append] at inside
  apply decide_eq_true
  rcases inside with blank | inside
  · rw [List.eq_of_mem_replicate blank]
    exact no_blank.symm
  · exact ne_of_kind (continuesIdentifier_iff.mpr (word c inside)) other

/-- An indented line starts no class. -/
theorem usedIn_pad (name : String) (rest : List Char) :
    let line := (Layout.pad Layout.level name).toList ++ rest
    usedIn line = namesIn (hintPart line) ++ (called [] (assigned line)).map String.ofList := by
  have no_class : "class ".toList.isPrefixOf ((Layout.pad Layout.level name).toList ++ rest) =
      false := by
    rw [Layout.toList_pad]
    rfl
  dsimp only
  rw [usedIn, no_class, if_neg Bool.false_ne_true]

theorem toList_target (name hint : String) :
    (Layout.pad Layout.level (name ++ ": " ++ hint)).toList =
      (Layout.pad Layout.level name).toList ++ (':' :: ' ' :: hint.toList) := by
  simp [Layout.toList_pad]

/-- A declared name with its hint, and what is assigned to it, if anything. -/
theorem usedIn_declaration {name : String} (word : IsWord name) {classes : String → Prop}
    {hint : Hint} (legible : hint.Legible classes) {tail : List Char}
    (valued : tail = [] ∨ ∃ code, tail = ' ' :: '=' :: code) :
    usedIn ((Layout.pad Layout.level (name ++ ": " ++ hint.text)).toList ++ tail) =
      namesIn hint.text.toList ++ (called [] (assigned tail)).map String.ofList := by
  have name_colon := all_ne_pad word Layout.level (d := ':') (by decide) (by decide)
  have name_equals := all_ne_pad word Layout.level (d := '=') (by decide) (by decide)
  have hint_equals : ∀ c ∈ ':' :: ' ' :: hint.text.toList, decide (c ≠ '=') = true := by
    refine List.forall_mem_cons.mpr ⟨rfl, List.forall_mem_cons.mpr ⟨rfl, fun c inside => ?_⟩⟩
    exact decide_eq_true (ne_of_kind (legible.spelling c inside) rfl)
  have hintPart_eq : hintPart ((Layout.pad Layout.level name).toList ++
      ((':' :: ' ' :: hint.text.toList) ++ tail)) =
        ':' :: ' ' :: (hint.text.toList ++ tail.takeWhile (· ≠ '=')) := by
    rw [hintPart, List.takeWhile_append_of_pos name_equals,
      List.takeWhile_append_of_pos hint_equals, List.dropWhile_append_of_pos name_colon]
    rfl
  have assigned_eq : assigned ((Layout.pad Layout.level name).toList ++
      ((':' :: ' ' :: hint.text.toList) ++ tail)) = assigned tail := by
    rw [assigned, List.dropWhile_append_of_pos name_equals,
      List.dropWhile_append_of_pos hint_equals, assigned]
  have names_eq : namesIn (hint.text.toList ++ tail.takeWhile (· ≠ '=')) =
      namesIn hint.text.toList := by
    rcases valued with rfl | ⟨code, rfl⟩
    · exact congrArg namesIn (List.append_nil _)
    · exact (namesIn_append (by decide) _ []).trans (List.append_nil _)
  rw [toList_target, List.append_assoc, usedIn_pad, hintPart_eq, assigned_eq,
    namesIn_cons (by decide), namesIn_cons (by decide), names_eq]

end ResourceModels.Code

import Mathlib
import ResourceModels.Proofs.CallReading
import ResourceModels.Proofs.SplitLiterals

/-!
# Layouts of field declarations read back

A field declaration is laid out in one of several ways, depending on how much fits on a line. Read
back, all of them are one assignment of the same call: the arguments in their order, each with its
key, and with its code as it was given or the text that its literals stand for
(`fieldCall_assigns`).
-/

namespace ResourceModels.Code

/-- An argument that can be read: its key is an identifier, and its code an expression. -/
structure Argument.Readable (argument : Argument) : Prop where
  key : ∀ name ∈ argument.key, isIdentifier name = true
  code : ∀ source, argument.value = .code source → Expression (strip source.toList)

/-- What is read for an argument stands for it. -/
structure Argument.Matches (argument : Argument) (read : ReadArgument) : Prop where
  key : read.key = argument.key
  value :
    match argument.value with
    | .code source => read.source = strip source.toList
    | .text content => textOf? read.source = some content.toList

namespace Layout

variable (layout : Layout)

theorem flat_eq (argument : Argument) : (layout.flat argument).toList =
    pieceOf argument.key (layout.valueText argument.value).toList := by
  obtain ⟨key, value⟩ := argument
  cases key with
  | none => rfl
  | some key => simp [flat, pieceOf]

/-- What is read for an argument on one line. -/
def flatRead (argument : Argument) : ReadArgument :=
  ⟨argument.key, strip (layout.valueText argument.value).toList⟩

theorem strip_quote (text : String) : strip (quote layout.preferDouble text).toList =
    quoteEscaped layout.preferDouble (escape text.toList) := by
  rw [quote, String.toList_ofList]
  exact (expression_quote layout.preferDouble text.toList).trim.strip_eq

theorem stands_flat {argument : Argument} (readable : argument.Readable) :
    Stands (layout.flat argument).toList (layout.flatRead argument) := by
  rw [flat_eq]
  refine stands_pieceOf readable.key _ ?_
  cases same : argument.value with
  | code source => exact readable.code source same
  | text content =>
    rw [valueText, strip_quote]
    exact expression_quote layout.preferDouble content.toList

theorem matches_flat (argument : Argument) : argument.Matches (layout.flatRead argument) := by
  refine ⟨rfl, ?_⟩
  cases same : argument.value with
  | code source => simp only [flatRead, same, valueText]
  | text content =>
    simp only [flatRead, same, valueText, strip_quote]
    exact textOf?_quote layout.preferDouble content.toList

/-- The lines, each with a line break in front of it. -/
def linesText (lines : List String) : List Char := lines.flatMap fun line => '\n' :: line.toList

theorem toList_lines (first : String) (rest : List String) :
    ("\n".intercalate (first :: rest)).toList = first.toList ++ linesText rest := by
  induction rest generalizing first with
  | nil => simp [linesText]
  | cons next rest ih =>
    rw [String.intercalate_cons_cons, String.toList_append, String.toList_append, ih]
    simp [linesText]

theorem toList_pad (indent : Nat) (line : String) :
    (pad indent line).toList = List.replicate indent ' ' ++ line.toList := by
  rw [pad, String.toList_append, String.toList_ofList]

/-- A line break and an indentation. -/
def newLine (indent : Nat) : List Char := '\n' :: List.replicate indent ' '

theorem blank_newLine (indent : Nat) : Blank (newLine indent) :=
  List.forall_mem_cons.mpr ⟨rfl, blank_replicate indent⟩

theorem linesText_pad (indent : Nat) (line : String) :
    linesText [pad indent line] = newLine indent ++ line.toList := by
  rw [linesText, List.flatMap_singleton, toList_pad]
  rfl

theorem linesText_map_pad (indent : Nat) (lines : List String) :
    linesText (lines.map (pad indent)) =
      lines.flatMap fun line => newLine indent ++ line.toList := by
  rw [linesText, List.flatMap_map]
  exact List.flatMap_congr fun line _ => congrArg ('\n' :: ·) (toList_pad indent line)

theorem linesText_append (first second : List String) :
    linesText (first ++ second) = linesText first ++ linesText second := List.flatMap_append

/-- What is put in parentheses for a split text. -/
theorem linesText_splitArgument (indent : Nat) (key content : String) :
    ∃ parts, parts ≠ [] ∧ parts.flatten = content.toList ∧
      linesText (layout.splitArgument indent key content) =
        newLine indent ++ (pieceOf (some key) (literalsInParentheses layout.preferDouble
          (newLine (indent + level)) (newLine indent) parts) ++ [',']) := by
  obtain ⟨first, parts, pieces_eq, joined, -⟩ :=
    splitBody_escape (layout.lineLength - (indent + level) - 2) content.toList
  have literals_eq : (splitLiteral layout.preferDouble (layout.lineLength - (indent + level))
      content).flatMap (fun line => newLine (indent + level) ++ line.toList) =
        literalRow layout.preferDouble (newLine (indent + level)) (first :: parts) := by
    rw [splitLiteral, pieces_eq, List.flatMap_map, List.flatMap_map, literalRow]
    exact List.flatMap_congr fun part _ => by rw [String.toList_ofList]
  refine ⟨first :: parts, List.cons_ne_nil first parts, joined, ?_⟩
  have lines_eq : layout.splitArgument indent key content = [pad indent (key ++ "=(")] ++
      (splitLiteral layout.preferDouble (layout.lineLength - (indent + level)) content).map
        (pad (indent + level)) ++ [pad indent "),"] := rfl
  rw [lines_eq, linesText_append, linesText_append, linesText_pad, linesText_pad,
    linesText_map_pad, literals_eq, literalsInParentheses, pieceOf]
  simp

/-- How an argument is laid out in front of its comma: on one line, or as a text that is split into
literals in parentheses. -/
inductive Laid (indent : Nat) (argument : Argument) : List Char → Prop
  | flat : Laid indent argument (layout.flat argument).toList
  | split (key content : String) (parts : List (List Char)) (same : argument = .text key content)
      (nonempty : parts ≠ []) (joined : parts.flatten = content.toList) :
      Laid indent argument (pieceOf (some key) (literalsInParentheses layout.preferDouble
        (newLine (indent + level)) (newLine indent) parts))

/-- An argument on lines of its own, however many these are. -/
theorem exists_laid (indent : Nat) (argument : Argument) :
    ∃ piece, linesText (layout.argumentLines indent argument) =
        newLine indent ++ (piece ++ [',']) ∧ layout.Laid indent argument piece := by
  have one_line : linesText [pad indent (layout.flat argument ++ ",")] =
      newLine indent ++ ((layout.flat argument).toList ++ [',']) := by
    rw [linesText_pad, String.toList_append]
    rfl
  obtain ⟨key, value⟩ := argument
  cases value with
  | code source => exact ⟨_, one_line, .flat⟩
  | text content =>
    cases key with
    | none => exact ⟨_, one_line, .flat⟩
    | some key =>
      rw [argumentLines]
      dsimp only
      split_ifs with wraps
      · obtain ⟨parts, nonempty, joined, lines_eq⟩ :=
          layout.linesText_splitArgument indent key content
        exact ⟨_, lines_eq, .split key content parts rfl nonempty joined⟩
      · exact ⟨_, one_line, .flat⟩

theorem Laid.exists_read {indent : Nat} {argument : Argument} {piece : List Char}
    (laid : layout.Laid indent argument piece) (readable : argument.Readable) :
    ∃ read, Stands piece read ∧ argument.Matches read := by
  cases laid with
  | flat => exact ⟨_, layout.stands_flat readable, layout.matches_flat argument⟩
  | split key content parts same nonempty joined =>
    subst same
    have lead := blank_newLine (indent + level)
    have apart : newLine (indent + level) ≠ [] := List.cons_ne_nil _ _
    have expression := expression_literals layout.preferDouble lead apart
      (blank_newLine indent) parts
    have text := textOf?_literals layout.preferDouble lead apart (blank_newLine indent) nonempty
    have piece := stands_pieceOf readable.key (literalsInParentheses layout.preferDouble
      (newLine (indent + level)) (newLine indent) parts)
    rw [expression.trim.strip_eq] at piece
    exact ⟨_, piece expression, rfl, text.trans (congrArg some joined)⟩

theorem exists_pieces (indent : Nat) {arguments : List Argument}
    (readable : ∀ argument ∈ arguments, argument.Readable) :
    ∃ pieces reads, linesText (arguments.flatMap (layout.argumentLines indent)) =
        pieces.flatMap (fun piece => newLine indent ++ (piece ++ [','])) ∧
      List.Forall₂ Stands pieces reads ∧ List.Forall₂ Argument.Matches arguments reads := by
  induction arguments with
  | nil => exact ⟨[], [], rfl, .nil, .nil⟩
  | cons argument arguments ih =>
    obtain ⟨here, later⟩ := List.forall_mem_cons.mp readable
    obtain ⟨piece, lines_eq, laid⟩ := layout.exists_laid indent argument
    obtain ⟨read, stands, means⟩ := laid.exists_read layout here
    obtain ⟨pieces, reads, rest_eq, all_stand, all_mean⟩ := ih later
    refine ⟨piece :: pieces, read :: reads, ?_, .cons stands all_stand, .cons means all_mean⟩
    rw [List.flatMap_cons, linesText_append, lines_eq, rest_eq, List.flatMap_cons]

theorem forall₂_flat {arguments : List Argument}
    (readable : ∀ argument ∈ arguments, argument.Readable) :
    List.Forall₂ Stands (arguments.map fun argument => (layout.flat argument).toList)
        (arguments.map layout.flatRead) ∧
      List.Forall₂ Argument.Matches arguments (arguments.map layout.flatRead) := by
  rw [List.forall₂_map_left_iff, List.forall₂_map_right_iff, List.forall₂_map_right_iff,
    List.forall₂_same, List.forall₂_same]
  exact ⟨fun argument listed => layout.stands_flat (readable argument listed),
    fun argument _ => layout.matches_flat argument⟩

theorem flatArguments_eq (arguments : List Argument) : (layout.flatArguments arguments).toList =
    [',', ' '].intercalate (arguments.map fun argument => (layout.flat argument).toList) := by
  rw [flatArguments, String.toList_intercalate, List.map_map]
  rfl

/-- The lines between the parentheses of a call hold its arguments. -/
theorem row_callBody (indent outer : Nat) {arguments : List Argument}
    (readable : ∀ argument ∈ arguments, argument.Readable) :
    ∃ reads, List.Forall₂ Argument.Matches arguments reads ∧
      Row (linesText (layout.callBody indent arguments) ++ newLine outer) reads := by
  rw [callBody]
  split_ifs with fits_joined
  · obtain ⟨stands, means⟩ := layout.forall₂_flat readable
    refine ⟨_, means, ?_⟩
    rw [linesText_pad, flatArguments_eq, List.append_assoc]
    exact row_joined stands (blank_newLine indent) (blank_newLine outer)
  · obtain ⟨pieces, reads, lines_eq, stands, means⟩ := layout.exists_pieces indent readable
    refine ⟨reads, means, ?_⟩
    rw [lines_eq]
    exact row_lines stands (blank_newLine indent) (blank_newLine outer)

/-- A call on one line stands for its arguments, too. -/
theorem row_flat {arguments : List Argument}
    (readable : ∀ argument ∈ arguments, argument.Readable) :
    List.Forall₂ Argument.Matches arguments (arguments.map layout.flatRead) ∧
      Row (layout.flatArguments arguments).toList (arguments.map layout.flatRead) := by
  obtain ⟨stands, means⟩ := layout.forall₂_flat readable
  have row := row_joined stands blank_nil blank_nil
  rw [List.nil_append, List.append_nil, ← flatArguments_eq] at row
  exact ⟨means, row⟩

/-- What stands between the parentheses of a call: the arguments on one line, or lines of them. -/
inductive Inner (arguments : List Argument) : List Char → Prop
  | flat : Inner arguments (layout.flatArguments arguments).toList
  | lines (indent outer : Nat) :
      Inner arguments (linesText (layout.callBody indent arguments) ++ newLine outer)

theorem Inner.exists_row {arguments : List Argument} {inner : List Char}
    (within : layout.Inner arguments inner)
    (readable : ∀ argument ∈ arguments, argument.Readable) :
    ∃ reads, List.Forall₂ Argument.Matches arguments reads ∧ Row inner reads := by
  cases within with
  | flat => exact ⟨_, layout.row_flat readable⟩
  | lines indent outer => exact layout.row_callBody indent outer readable

/-- A call, with or without parentheses around it. -/
inductive CallText (indent : Nat) (inner : List Char) : List Char → Prop
  | bare : CallText indent inner ("Field(".toList ++ (inner ++ [')']))
  | enclosed : CallText indent inner ('(' :: (newLine (indent + level) ++
      ("Field(".toList ++ (inner ++ ')' :: (newLine indent ++ [')'])))))

/-- In every layout, the lines are the target and a call that is assigned to it. -/
theorem exists_callText (indent : Nat) (target : String) (arguments : List Argument) :
    ∃ inner value, layout.Inner arguments inner ∧ CallText indent inner value ∧
      ("\n".intercalate (layout.fieldCall indent target arguments)).toList =
        (pad indent (target ++ " = ")).toList ++ value := by
  unfold fieldCall
  dsimp only
  split_ifs with one_line head inner_line
  · refine ⟨_, _, .flat, .bare, ?_⟩
    rw [String.intercalate_singleton]
    simp [toList_pad]
  · refine ⟨_, _, .lines (indent + level) indent, .bare, ?_⟩
    rw [List.cons_append, toList_lines, linesText_append, linesText_pad]
    simp [toList_pad]
  · refine ⟨_, _, .flat, .enclosed, ?_⟩
    rw [List.cons_append, toList_lines, linesText_append, linesText_pad, linesText_pad]
    simp [toList_pad]
  · refine ⟨_, _, .lines (indent + level + level) (indent + level), .enclosed, ?_⟩
    rw [List.cons_append, toList_lines, linesText_append, List.cons_append,
      ← List.singleton_append, linesText_append, linesText_append, linesText_pad, linesText_pad,
      linesText_pad]
    simp [toList_pad]

theorem field_isIdentifier : isIdentifier "Field" = true := by decide

theorem whole?_call {text : List Char} {reads : List ReadArgument} (row : Row text reads) :
    whole? readCall? ("Field(".toList ++ (text ++ [')'])) = some ⟨"Field", reads⟩ :=
  whole?_bare (by decide) (readCall?_row field_isIdentifier row [])

theorem whole?_call_enclosed {text before behind : List Char} {reads : List ReadArgument}
    (row : Row text reads) (lead : Blank before) (blank : Blank behind) :
    whole? readCall? ('(' :: (before ++ ("Field(".toList ++ (text ++ ')' :: (behind ++ [')']))))) =
      some ⟨"Field", reads⟩ := by
  refine whole?_enclosed (behind ++ [')']) ?_ (skip_blank blank _)
  rw [skip_blank lead]
  exact readCall?_row field_isIdentifier row _

/-- Source of a call with the arguments. -/
structure IsCall (arguments : List Argument) (value : List Char) (reads : List ReadArgument) :
    Prop where
  opens : value.head? = some 'F' ∨ value.head? = some '('
  read : whole? readCall? value = some ⟨"Field", reads⟩
  means : List.Forall₂ Argument.Matches arguments reads

/-- What is assigned reads as a call with these arguments. -/
theorem exists_value (indent : Nat) (target : String) {arguments : List Argument}
    (readable : ∀ argument ∈ arguments, argument.Readable) :
    ∃ value reads, ("\n".intercalate (layout.fieldCall indent target arguments)).toList =
      (pad indent (target ++ " = ")).toList ++ value ∧ IsCall arguments value reads := by
  obtain ⟨inner, value, within, call, text_eq⟩ := layout.exists_callText indent target arguments
  obtain ⟨reads, means, row⟩ := within.exists_row layout readable
  refine ⟨value, reads, text_eq, ?_⟩
  cases call with
  | bare => exact ⟨.inl rfl, whole?_call row, means⟩
  | enclosed =>
    have read := whole?_call_enclosed row (blank_newLine (indent + level)) (blank_newLine indent)
    exact ⟨.inr rfl, read, means⟩

end Layout

/-- A target on one line, with no equals sign outside brackets and literals. -/
structure IsTarget (target : List Char) : Prop where
  trim : Trim target
  closed : upTo? (· = '=') .start (target ++ ['=']) = some (target, ['='])
  line : target.any breaksLine = false

theorem readAssignment?_eq {target value : List Char} {call : Call} (is_target : IsTarget target)
    (indent : Nat) (solid : value.head? ≠ some ' ') (read : whole? readCall? value = some call) :
    readAssignment? (List.replicate indent ' ' ++ (target ++ ([' ', '=', ' '] ++ value))) =
      some (target, call) := by
  have indentation := blank_replicate indent
  have one_blank : Blank [' '] := by simp [Blank, isSpace]
  have goes_on : ∀ c, isSpace c = true → decide (c = '=') = false :=
    fun _ space => decide_eq_false (ne_of_kind space rfl)
  have found : upTo? (· = '=') .start
      (List.replicate indent ' ' ++ (target ++ ([' ', '=', ' '] ++ value))) =
        some (List.replicate indent ' ' ++ (target ++ [' ']), '=' :: ' ' :: value) := by
    have apart : StartsWithout isQuote (' ' :: '=' :: ' ' :: value) := startsWithout_cons rfl _
    have ends : upTo? (· = '=') .start ('=' :: ' ' :: value) = some ([], '=' :: ' ' :: value) := rfl
    rw [Scope.start, upTo?_inert (indentation.inert goes_on), ← Scope.start]
    refine (congrArg _ (upTo?_append is_target.closed apart)).trans ?_
    rw [Scope.start, ← List.singleton_append, upTo?_inert (one_blank.inert goes_on), ← Scope.start,
      ends]
    simp [inFront]
  have line : (List.replicate indent ' ' ++ (target ++ [' '])).any breaksLine = false := by
    have indentation_line : (List.replicate indent ' ').any breaksLine = false := by
      rw [List.any_replicate]
      split <;> rfl
    rw [List.any_append, List.any_append, indentation_line, is_target.line]
    rfl
  have value_eq : (('=' :: ' ' :: value).drop 1).dropWhile (· = ' ') = value := by
    cases value with
    | nil => rfl
    | cons c rest =>
      have other : c ≠ ' ' := fun same => solid (congrArg some same)
      change (c :: rest).dropWhile (· = ' ') = c :: rest
      rw [List.dropWhile_cons, if_neg (by simpa using other)]
  rw [readAssignment?, found]
  dsimp only
  rw [line, if_neg Bool.false_ne_true, value_eq, read,
    strip_padded indentation is_target.trim one_blank, Option.map_some]

/-- A split text, a comma behind the last argument and parentheses around the call. -/
example : readAssignment?
    "  a: List[str] = (\n  Field(b=(\n  \"c,\"\n  \"=\"), d=[1, 2],)\n)".toList =
      some ("a: List[str]".toList, ⟨"Field",
        [⟨some "b", "(\n  \"c,\"\n  \"=\")".toList⟩, ⟨some "d", "[1, 2]".toList⟩]⟩) := by
  decide

/-- The lines assign the target a call of a field, with these arguments in their order. Where the
target can be told from what is assigned to it, reading the lines finds both. -/
def Assigns (indent : Nat) (target : String) (arguments : List Argument) (lines : List String) :
    Prop :=
  ∃ value reads, ("\n".intercalate lines).toList =
      (Layout.pad indent (target ++ " = ")).toList ++ value ∧
    whole? readCall? value = some ⟨"Field", reads⟩ ∧
    List.Forall₂ Argument.Matches arguments reads ∧
    (IsTarget target.toList →
      readAssignment? ("\n".intercalate lines).toList = some (target.toList, ⟨"Field", reads⟩))

/-- Every layout of a field declaration is the assignment of the same call, whatever the line
length, the quotes, the indentation and the target. -/
theorem fieldCall_assigns (layout : Layout) (indent : Nat) (target : String)
    {arguments : List Argument} (readable : ∀ argument ∈ arguments, argument.Readable) :
    Assigns indent target arguments (layout.fieldCall indent target arguments) := by
  obtain ⟨value, reads, text_eq, call⟩ := layout.exists_value indent target readable
  refine ⟨value, reads, text_eq, call.read, call.means, fun is_target => ?_⟩
  have solid : value.head? ≠ some ' ' := by
    rcases call.opens with starts | starts <;> rw [starts] <;> decide
  have read := readAssignment?_eq is_target indent solid call.read
  rw [text_eq, Layout.toList_pad, String.toList_append, List.append_assoc, List.append_assoc]
  exact read

/-- Where next to nothing fits on a line, the description is split. -/
theorem fieldCall_assigns_narrow :
    (∀ argument ∈ [Argument.keyword "default" "None",
      .text "description" "the \"name\" of the user"], argument.Readable) ∧
    IsTarget "uid: Optional[str]".toList ∧
    Assigns 4 "uid: Optional[str]"
      [.keyword "default" "None", .text "description" "the \"name\" of the user"]
      ((⟨12, true, true⟩ : Layout).fieldCall 4 "uid: Optional[str]"
        [.keyword "default" "None", .text "description" "the \"name\" of the user"]) := by
  have none_expression : Expression (strip "None".toList) := by
    have source_eq : strip "None".toList = ['N', 'o', 'n', 'e'] := by decide
    rw [source_eq]
    exact ⟨⟨by decide, startsWithout_cons rfl _, by decide⟩, by decide, by decide, by decide⟩
  have readable : ∀ argument ∈ [Argument.keyword "default" "None",
      .text "description" "the \"name\" of the user"], argument.Readable := by
    refine List.forall_mem_cons.mpr ⟨⟨?_, ?_⟩, List.forall_mem_singleton.mpr ⟨?_, ?_⟩⟩
    · rintro name ⟨⟩
      decide
    · rintro source ⟨⟩
      exact none_expression
    · rintro name ⟨⟩
      decide
    · rintro source ⟨⟩
  have is_target : IsTarget "uid: Optional[str]".toList := by
    refine ⟨⟨by decide, startsWithout_cons rfl _, by decide⟩, by decide, by decide⟩
  exact ⟨readable, is_target, fieldCall_assigns ⟨12, true, true⟩ 4 "uid: Optional[str]" readable⟩

end ResourceModels.Code

import Mathlib
import ResourceModels.Proofs.Layouts
import ResourceModels.Proofs.UsedNames

/-!
# What a field declaration calls

A call of a field is laid out in one of several ways, over several lines or on one, and its
arguments may hold any text. Code of it is one line all the same, in which nothing is called but the
field (`CallText.calls_field`).
-/

namespace ResourceModels.Code

theorem called_name {name : List Char} (word : ∀ c ∈ name, continuesIdentifier c = true)
    (before rest : List Char) : called before (name ++ rest) = called (before ++ name) rest := by
  induction name generalizing before with
  | nil => rw [List.nil_append, List.append_nil]
  | cons c name ih =>
    obtain ⟨here, later⟩ := List.forall_mem_cons.mp word
    rw [List.cons_append, called, if_pos here, ih later, List.append_assoc]
    rfl

/-- Every parenthesis that opens in the code stands behind an equals sign. -/
def Uncalled (code : List Char) : Prop :=
  ∀ before after, code = before ++ '(' :: after → before.getLast? = some '='

namespace Uncalled

variable {code more : List Char}

theorem of_no_paren (absent : '(' ∉ code) : Uncalled code := by
  rintro before after rfl
  simp at absent

theorem append (left : Uncalled code) (right : Uncalled more) : Uncalled (code ++ more) := by
  intro before after same
  obtain ⟨between, before_eq, more_eq⟩ | ⟨between, code_eq, rest_eq⟩ :=
    List.append_eq_append_iff.mp same
  · have last := right between after more_eq
    rw [before_eq, List.getLast?_append, last, Option.some_or]
  · cases between with
    | nil =>
      cases right [] after rest_eq.symm
    | cons c between =>
      obtain ⟨rfl, -⟩ := List.cons.inj rest_eq
      exact left before between code_eq

/-- No name stands right in front of a parenthesis, if `word` does not. -/
theorem called_eq_nil_of {word : List Char}
    (behind : ∀ before after, code = before ++ '(' :: after →
      before = [] ∧ word = [] ∨ before.getLast? = some '=') : called word code = [] := by
  induction code generalizing word with
  | nil => rfl
  | cons c rest ih =>
    have later : ∀ before after, rest = before ++ '(' :: after →
        (c :: before).getLast? = some '=' := by
      intro before after same
      have found := behind (c :: before) after (congrArg (c :: ·) same)
      simpa using found
    rw [called]
    split_ifs with continues call
    · apply ih
      intro before after same
      have last := later before after same
      cases before with
      | nil =>
        cases last
        cases continues
      | cons d before => exact .inr (List.getLast?_cons_cons ▸ last)
    · rw [Bool.and_eq_true, decide_eq_true_eq] at call
      obtain ⟨rfl, named⟩ := call
      obtain ⟨-, rfl⟩ | absent := behind [] rest rfl
      · cases named
      · cases absent
    · apply ih
      intro before after same
      cases before with
      | nil => exact .inl ⟨rfl, rfl⟩
      | cons d before => exact .inr (List.getLast?_cons_cons ▸ later _ after same)

theorem called_eq_nil (uncalled : Uncalled code) : called [] code = [] :=
  called_eq_nil_of fun before after same => .inr (uncalled before after same)

/-- A parenthesis behind an equals sign. -/
theorem equals_paren (absent : '(' ∉ code) : Uncalled ('=' :: '(' :: code) := by
  intro before after same
  match before with
  | [] => cases same
  | [c] =>
    obtain ⟨rfl, -⟩ := List.cons.inj same
    rfl
  | c :: d :: before =>
    obtain ⟨-, rest_eq⟩ := List.cons.inj (List.cons.inj same).2
    simp [rest_eq] at absent

end Uncalled

/-- In brackets, code of the text is on one line and calls nothing. -/
def CallsNothing (text : List Char) : Prop :=
  ∃ code, '\n' ∉ code ∧ Uncalled code ∧ Shows true text code

theorem Silent.callsNothing {text : List Char} (silent : Silent true text) :
    CallsNothing text := by
  obtain ⟨code, mute, shows⟩ := silent
  exact ⟨code, mute.no_break, .of_no_paren mute.no_paren, shows⟩

theorem CallsNothing.append {first second : List Char} (left : CallsNothing first)
    (right : CallsNothing second) (no_quote : StartsWithout isQuote second) :
    CallsNothing (first ++ second) := by
  obtain ⟨code, line, uncalled, shows⟩ := left
  obtain ⟨more, more_line, more_uncalled, more_shows⟩ := right
  refine ⟨code ++ more, ?_, uncalled.append more_uncalled, shows.append more_shows no_quote⟩
  rw [List.mem_append]
  exact fun inside => inside.elim line more_line

/-- An argument with a word for its key, if it has one, and with code that calls nothing. -/
structure Argument.Quiet (argument : Argument) : Prop where
  key : ∀ name ∈ argument.key, IsWord name
  code : ∀ source, argument.value = .code source → Silent false source.toList

namespace Layout

theorem passes_newLine (indent : Nat) :
    Passes true (newLine indent) (' ' :: List.replicate indent ' ') :=
  passes_break.append (passes_inert (inert_blanks indent))

theorem mute_blanks (indent : Nat) : Mute (' ' :: List.replicate indent ' ') :=
  (inert_blanks (indent + 1)).mute

theorem silent_newLine (indent : Nat) : Silent true (newLine indent) :=
  ⟨_, mute_blanks indent, (passes_newLine indent).shows⟩

theorem callsNothing_newLine (indent : Nat) {text : List Char} (nothing : CallsNothing text) :
    CallsNothing (newLine indent ++ text) := by
  obtain ⟨code, line, uncalled, shows⟩ := nothing
  have blanks := mute_blanks indent
  refine ⟨_, ?_, ?_, (passes_newLine indent).append_shows shows⟩
  · rw [List.mem_append]
    exact fun inside => inside.elim blanks.no_break line
  · exact (Uncalled.of_no_paren blanks.no_paren).append uncalled

theorem silent_literalRow (preferDouble : Bool) (indent : Nat) (parts : List (List Char)) :
    Silent true (literalRow preferDouble (newLine indent) parts) := by
  induction parts with
  | nil => exact .of_inert (by simp [Inert, literalRow])
  | cons part parts ih =>
    have no_quote := no_quote_literalRow preferDouble (blank_newLine indent)
      (List.cons_ne_nil _ _) parts (startsWithout_nil isQuote)
    rw [List.append_nil] at no_quote
    rw [literalRow, List.flatMap_cons, List.append_assoc]
    apply Silent.passes_append (mute_blanks indent) (passes_newLine indent)
    exact (Silent.literal preferDouble part).append ih no_quote

theorem inert_name {name : String} (word : IsWord name) : Inert (· = '\n') name.toList :=
  inert_line continuesIdentifier rfl fun c inside => continuesIdentifier_iff.mpr (word c inside)

theorem inert_equals : Inert (· = '\n') ['='] := inert_line (· = '=') rfl (by simp)

variable {layout : Layout}

theorem silent_flat {argument : Argument} (quiet : argument.Quiet) :
    Silent true (layout.flat argument).toList := by
  have silent_value : Silent true (layout.valueText argument.value).toList := by
    cases same : argument.value with
    | code source => exact (quiet.code source same).anywhere
    | text content =>
      rw [valueText, quote, String.toList_ofList]
      exact .literal layout.preferDouble content.toList
  rw [flat_eq]
  cases key : argument.key with
  | none => exact silent_value
  | some name =>
    have word := quiet.key name key
    exact .inert_append (inert_name word) (.inert_append inert_equals silent_value)

/-- The literals of a split text stand in parentheses behind an equals sign, which is no call. -/
theorem callsNothing_split (preferDouble : Bool) {key : String} (word : IsWord key)
    (inner outer : Nat) (parts : List (List Char)) :
    CallsNothing (pieceOf (some key)
      (literalsInParentheses preferDouble (newLine inner) (newLine outer) parts)) := by
  obtain ⟨code, mute, shows⟩ := (silent_literalRow preferDouble inner parts).append
    (silent_newLine outer) (startsWithout_cons rfl _)
  have parentheses : Passes true
      (literalsInParentheses preferDouble (newLine inner) (newLine outer) parts)
      ('(' :: (code ++ [')'])) := by
    have enclosed : Passes true ('(' :: ((literalRow preferDouble (newLine inner) parts ++
        newLine outer) ++ [')'])) ('(' :: (code ++ [')'])) := shows.brackets rfl
    rwa [List.append_assoc] at enclosed
  have key_code := inert_name word
  have no_paren : '(' ∉ code ++ [')'] := by
    rw [List.mem_append]
    exact fun inside => inside.elim mute.no_paren (by decide)
  refine ⟨key.toList ++ ('=' :: '(' :: (code ++ [')'])), ?_, ?_, ?_⟩
  · simp [mute.no_break, key_code.mute.no_break]
  · exact (Uncalled.of_no_paren key_code.mute.no_paren).append (.equals_paren no_paren)
  · exact ((passes_inert key_code).append ((passes_inert inert_equals).append parentheses)).shows

theorem Laid.callsNothing {indent : Nat} {argument : Argument} {piece : List Char}
    (laid : layout.Laid indent argument piece) (quiet : argument.Quiet) : CallsNothing piece := by
  cases laid with
  | flat => exact (silent_flat quiet).callsNothing
  | split key content parts same nonempty joined =>
    subst same
    exact callsNothing_split layout.preferDouble (quiet.key key rfl) _ _ parts

theorem silent_flatArguments {arguments : List Argument}
    (quiet : ∀ argument ∈ arguments, argument.Quiet) :
    Silent true (layout.flatArguments arguments).toList := by
  rw [flatArguments_eq]
  apply Silent.intercalate
  exact List.forall_mem_map.mpr fun argument listed => silent_flat (quiet argument listed)

theorem no_quote_linesText (lines : List String) : StartsWithout isQuote (linesText lines) := by
  cases lines with
  | nil => exact startsWithout_nil isQuote
  | cons line lines => exact startsWithout_cons rfl _

theorem callsNothing_lines (indent : Nat) {arguments : List Argument}
    (quiet : ∀ argument ∈ arguments, argument.Quiet) :
    CallsNothing (linesText (arguments.flatMap (layout.argumentLines indent))) := by
  induction arguments with
  | nil => exact (Silent.of_inert (by simp [Inert, linesText])).callsNothing
  | cons argument arguments ih =>
    obtain ⟨here, later⟩ := List.forall_mem_cons.mp quiet
    obtain ⟨piece, lines_eq, laid⟩ := layout.exists_laid indent argument
    have comma : CallsNothing [','] :=
      (Silent.of_inert (inert_line (· = ',') rfl (by simp))).callsNothing
    rw [List.flatMap_cons, linesText_append, lines_eq]
    apply CallsNothing.append _ (ih later) (no_quote_linesText _)
    apply callsNothing_newLine
    exact (laid.callsNothing here).append comma (startsWithout_cons rfl _)

theorem Inner.callsNothing {arguments : List Argument} {inner : List Char}
    (within : layout.Inner arguments inner) (quiet : ∀ argument ∈ arguments, argument.Quiet) :
    CallsNothing inner := by
  cases within with
  | flat => exact (silent_flatArguments quiet).callsNothing
  | lines indent outer =>
    apply CallsNothing.append _ (silent_newLine outer).callsNothing (startsWithout_cons rfl _)
    rw [callBody]
    split_ifs
    · rw [linesText_pad]
      exact callsNothing_newLine indent (silent_flatArguments quiet).callsNothing
    · exact callsNothing_lines indent quiet

theorem called_blanks (count : Nat) (rest : List Char) :
    called [] (List.replicate count ' ' ++ rest) = called [] rest := by
  induction count with
  | zero => rfl
  | succ count ih => exact ih

theorem called_field {code : List Char} (uncalled : Uncalled code) :
    called [] ("Field(".toList ++ code) = ["Field".toList] := by
  have name : ∀ c ∈ "Field".toList, continuesIdentifier c = true := List.all_eq_true.mp rfl
  have rest := uncalled.called_eq_nil
  change called [] ("Field".toList ++ '(' :: code) = _
  rw [called_name name, called, if_neg (by decide), if_pos (by decide), rest]
  rfl

theorem passes_field {enclosed : Bool} {inner code : List Char} (shows : Shows true inner code) :
    Passes enclosed ("Field(".toList ++ (inner ++ [')'])) ("Field(".toList ++ (code ++ [')'])) := by
  have name : ∀ c ∈ "Field".toList, continuesIdentifier c = true := List.all_eq_true.mp rfl
  exact (passes_inert (inert_line continuesIdentifier rfl name)).append (shows.brackets rfl)

/-- Code of the call is one line, in which the field is all that is called. -/
theorem CallText.calls_field {indent : Nat} {inner value : List Char}
    (call : CallText indent inner value) (nothing : CallsNothing inner) :
    ∃ code, '\n' ∉ code ∧ called [] code = ["Field".toList] ∧ Passes false value code := by
  obtain ⟨code, line, uncalled, shows⟩ := nothing
  have closed : Uncalled (code ++ [')']) := uncalled.append (.of_no_paren (by decide))
  cases call with
  | bare =>
    refine ⟨_, ?_, called_field closed, passes_field shows⟩
    simp [line]
  | enclosed =>
    have blanks : Uncalled (' ' :: List.replicate indent ' ') :=
      .of_no_paren (mute_blanks indent).no_paren
    have within : Passes true
        (newLine (indent + level) ++ ("Field(".toList ++ (inner ++ [')']) ++ newLine indent))
        (' ' :: List.replicate (indent + level) ' ' ++
          ("Field(".toList ++ (code ++ [')']) ++ ' ' :: List.replicate indent ' ')) :=
      (passes_newLine (indent + level)).append
        ((passes_field shows).append (passes_newLine indent))
    have passes : Passes false ('(' :: (newLine (indent + level) ++
        ("Field(".toList ++ (inner ++ [')']) ++ newLine indent) ++ [')'])) _ :=
      within.shows.brackets rfl
    have nothing_before : ∀ rest, called [] ('(' ::
        ((' ' :: List.replicate (indent + level) ' ') ++ rest)) = called [] rest :=
      called_blanks (indent + level + 1)
    refine ⟨'(' :: ((' ' :: List.replicate (indent + level) ' ') ++ ("Field(".toList ++
      ((code ++ [')']) ++ ((' ' :: List.replicate indent ' ') ++ [')'])))), ?_, ?_,
      by simpa using passes⟩
    · simp [line, List.mem_replicate]
    · rw [nothing_before]
      exact called_field (closed.append (blanks.append (.of_no_paren (by decide))))

end Layout

end ResourceModels.Code

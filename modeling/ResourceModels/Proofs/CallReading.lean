import Mathlib
import ResourceModels.Code.Layout
import ResourceModels.Proofs.LegalNames
import ResourceModels.Proofs.LiteralValues

/-!
# Calls read back from source

An operand is read up to the comma or parenthesis that ends it, which is the first one outside all
brackets and literals (`upTo?`). What is in between is taken as it stands, so any expression can be
an operand. A call is a name and its operands, of which each may have a keyword. Blanks and line
breaks around operands mean nothing, a comma may follow the last one, and parentheses may stand
around a literal or a whole call.

A formatted literal is read like any other one: the quotes in it are not its own.
-/

namespace ResourceModels.Code

abbrev Mark := { c : Char // isQuote c = true }

/-- Where a reader is: in code, behind one or two quotes at the start of a literal, or in a literal
that has one quote at its ends or three. There, a character may be escaped. -/
inductive Place where
  | code
  | opened (mark : Mark)
  | emptied (mark : Mark)
  | short (mark : Mark) (escaped : Bool)
  | long (mark : Mark) (escaped : Bool) (closing : Nat)
  deriving DecidableEq

/-- A place, and the brackets that are still to be closed, the innermost first. -/
structure Scope where
  closers : List Char
  place : Place
  deriving DecidableEq

def closer? (c : Char) : Option Char :=
  if c = '(' then some ')' else if c = '[' then some ']' else if c = '{' then some '}' else none

/-- A character in code. Neither comments nor joined lines are read. -/
def stepCode (closers : List Char) (c : Char) : Option Scope :=
  if quote : isQuote c then some ⟨closers, .opened ⟨c, quote⟩⟩
  else if c = '#' || c = '\\' then none
  else
    match closer? c with
    | some close => some ⟨close :: closers, .code⟩
    | none =>
      if c = ')' || c = ']' || c = '}' then
        match closers with
        | close :: outer => if c = close then some ⟨outer, .code⟩ else none
        | [] => none
      else some ⟨closers, .code⟩

/-- A character in a literal on one line, not escaped. -/
def stepShort (closers : List Char) (mark : Mark) (c : Char) : Option Scope :=
  if breaksLine c then none
  else if c = mark.val then some ⟨closers, .code⟩
  else some ⟨closers, .short mark (c = '\\')⟩

def Scope.step (scope : Scope) (c : Char) : Option Scope :=
  match scope.place with
  | .code => stepCode scope.closers c
  | .opened mark =>
    if c = mark.val then some ⟨scope.closers, .emptied mark⟩ else stepShort scope.closers mark c
  | .emptied mark =>
    if c = mark.val then some ⟨scope.closers, .long mark false 0⟩ else stepCode scope.closers c
  | .short mark false => stepShort scope.closers mark c
  | .short mark true => if breaksLine c then none else some ⟨scope.closers, .short mark false⟩
  | .long mark true _ => some ⟨scope.closers, .long mark false 0⟩
  | .long mark false closing =>
    if c ≠ mark.val then some ⟨scope.closers, .long mark (c = '\\') 0⟩
    else if closing = 2 then some ⟨scope.closers, .code⟩
    else some ⟨scope.closers, .long mark false (closing + 1)⟩

def Scope.start : Scope := ⟨[], .code⟩

/-- Outside all brackets and literals. Two quotes are a literal unless a third one follows. -/
def Scope.isOutside (scope : Scope) : Bool :=
  scope.closers.isEmpty &&
    match scope.place with
    | .code | .emptied _ => true
    | _ => false

/-- Put characters in front of what is read. -/
def inFront (chars : List Char) (result : Option (List Char × List Char)) :
    Option (List Char × List Char) :=
  result.map fun (read, after) => (chars ++ read, after)

/-- The text up to the first character of a kind outside all brackets and literals, and what stands
from there on. -/
def upTo? (stops : Char → Bool) : Scope → List Char → Option (List Char × List Char)
  | _, [] => none
  | scope, c :: rest =>
    if scope.isOutside && stops c then some ([], c :: rest)
    else (scope.step c).bind fun next => inFront [c] (upTo? stops next rest)

/-- Text without the blanks around it. -/
def strip (text : List Char) : List Char := (skip text).rdropWhile isSpace

/-- An argument as it is found in source. -/
structure ReadArgument where
  key : Option String
  source : List Char
  deriving DecidableEq, Repr

/-- An operand, with its keyword apart: a name in front of an equals sign that is no comparison. -/
def keyed (operand : List Char) : ReadArgument :=
  let name := String.ofList (operand.takeWhile continuesIdentifier)
  match skip (operand.dropWhile continuesIdentifier) with
  | [] => ⟨none, operand⟩
  | c :: value =>
    if c = '=' ∧ isIdentifier name = true ∧ value.head? ≠ some '=' then ⟨some name, skip value⟩
    else ⟨none, operand⟩

def endsOperand (c : Char) : Bool := c = ',' || c = ')'

def readArgument? (text : List Char) : Option (ReadArgument × List Char) :=
  (upTo? endsOperand .start text).map fun (operand, after) => (keyed (strip operand), after)

structure Call where
  function : String
  arguments : List ReadArgument
  deriving DecidableEq, Repr

/-- A call at the start of a text, and what stands behind it. -/
def readCall? (text : List Char) : Option (Call × List Char) :=
  let name := String.ofList (text.takeWhile continuesIdentifier)
  match text.dropWhile continuesIdentifier with
  | [] => none
  | c :: rest =>
    if c = '(' ∧ isIdentifier name = true then
      (readSeries? readArgument? ')' rest.length (skip rest)).map fun (arguments, after) =>
        (⟨name, arguments⟩, after)
    else none

/-- The whole of a text, with or without parentheses around it. -/
def whole? {α : Type} (reader : List Char → Option (α × List Char)) : List Char → Option α
  | [] => none
  | c :: rest =>
    if c = '(' then
      match reader (skip rest) with
      | some (value, after) => if skip after = [')'] then some value else none
      | none => none
    else
      match reader (c :: rest) with
      | some (value, []) => some value
      | _ => none

/-- The text that a value stands for, if it is made of literals. -/
def textOf? (source : List Char) : Option (List Char) :=
  whole? (readStrings? source.length) source

/-- The target of an assignment, and the call that is assigned. The target is on one line. -/
def readAssignment? (text : List Char) : Option (List Char × Call) :=
  match upTo? (· = '=') .start text with
  | none => none
  | some (target, rest) =>
    if target.any breaksLine then none
    else (whole? readCall? ((rest.drop 1).dropWhile (· = ' '))).map fun call => (strip target, call)

/-- A text with no blank at its ends. -/
structure Trim (text : List Char) : Prop where
  nonempty : text ≠ []
  first : StartsWithout isSpace text
  last : text.rdropWhile isSpace = text

theorem rdropWhile_append_blank (text : List Char) {blanks : List Char} (blank : Blank blanks) :
    (text ++ blanks).rdropWhile isSpace = text.rdropWhile isSpace := by
  have reversed : ∀ c ∈ blanks.reverse, isSpace c = true :=
    fun c inside => blank c (List.mem_reverse.mp inside)
  rw [List.rdropWhile, List.reverse_append, List.dropWhile_append_of_pos reversed]
  rfl

theorem Trim.skip_append {core : List Char} (trim : Trim core) (rest : List Char) :
    skip (core ++ rest) = core ++ rest :=
  skip_of_startsWithout (trim.first.append trim.nonempty rest)

theorem strip_padded {left core right : List Char} (before : Blank left) (trim : Trim core)
    (behind : Blank right) : strip (left ++ (core ++ right)) = core := by
  rw [strip, skip_blank before, trim.skip_append, rdropWhile_append_blank core behind, trim.last]

theorem Trim.strip_eq {core : List Char} (trim : Trim core) : strip core = core := by
  rw [strip, ← List.append_nil core, trim.skip_append, List.append_nil, trim.last]

/-- The blanks around a text are found again. -/
theorem exists_strip (text : List Char) :
    ∃ left right, text = left ++ (strip text ++ right) ∧ Blank left ∧ Blank right := by
  refine ⟨text.takeWhile isSpace, (skip text).rtakeWhile isSpace, ?_, ?_, ?_⟩
  · rw [strip, List.rdropWhile_append_rtakeWhile, skip, List.takeWhile_append_dropWhile]
  · exact fun c inside => List.mem_takeWhile_imp inside
  · exact fun c inside => List.mem_rtakeWhile_imp inside

/-- What stands in front of a text with no blank at its end changes nothing about its end. -/
theorem Trim.append (front : List Char) {core : List Char} (first : StartsWithout isSpace front)
    (nonempty : front ≠ []) (trim : Trim core) : Trim (front ++ core) where
  nonempty := List.append_ne_nil_of_left_ne_nil nonempty _
  first := first.append nonempty core
  last := by
    have no_blank := List.rdropWhile_eq_self_iff.mp trim.last trim.nonempty
    rw [List.rdropWhile_eq_self_iff]
    intro some_text
    rwa [List.getLast_append_of_ne_nil _ trim.nonempty]

section

variable {stops : Char → Bool} {closers : List Char}

theorem inFront_nil (result : Option (List Char × List Char)) : inFront [] result = result := by
  cases result <;> rfl

theorem inFront_inFront (first second : List Char) (result : Option (List Char × List Char)) :
    inFront first (inFront second result) = inFront (first ++ second) result := by
  cases result with
  | none => rfl
  | some result => simp [inFront]

theorem of_inFront (chars : List Char) {read after : List Char}
    {result : Option (List Char × List Char)}
    (same : inFront chars result = some (chars ++ read, after)) : result = some (read, after) := by
  obtain ⟨⟨read', after'⟩, rfl, behind⟩ := Option.map_eq_some_iff.mp same
  obtain ⟨appended, rfl⟩ := Prod.mk.inj behind
  rw [List.append_cancel_left appended]

theorem upTo?_step {scope next : Scope} {c : Char} (goes_on : (scope.isOutside && stops c) = false)
    (step : scope.step c = some next) (rest : List Char) :
    upTo? stops scope (c :: rest) = inFront [c] (upTo? stops next rest) := by
  rw [upTo?, goes_on, if_neg Bool.false_ne_true, step, Option.bind_some]

/-- Behind two quotes, nothing but a third one tells the place from code. -/
theorem upTo?_emptied (mark : Mark) {rest : List Char} (apart : StartsWithout isQuote rest) :
    upTo? stops ⟨closers, .emptied mark⟩ rest = upTo? stops ⟨closers, .code⟩ rest := by
  cases rest with
  | nil => rfl
  | cons c rest =>
    have other : c ≠ mark.val := (ne_of_kind mark.property (apart c rfl)).symm
    have same : Scope.step ⟨closers, .emptied mark⟩ c = Scope.step ⟨closers, .code⟩ c :=
      if_neg other
    rw [upTo?, upTo?, same]
    rfl

theorem upTo?_of_isOutside {scope : Scope} (outside : scope.isOutside = true) {rest : List Char}
    (apart : StartsWithout isQuote rest) : upTo? stops scope rest = upTo? stops .start rest := by
  obtain ⟨closers, place⟩ := scope
  rw [Scope.isOutside, Bool.and_eq_true, List.isEmpty_iff] at outside
  obtain ⟨rfl, outside⟩ := outside
  cases place with
  | code => rfl
  | emptied mark => exact upTo?_emptied mark apart
  | opened mark => cases outside
  | short mark escaped => cases outside
  | long mark escaped closing => cases outside

/-- A text that ends at the character behind it ends in the same way in front of any other text. -/
theorem upTo?_append {stop : Char} {source : List Char} {scope : Scope}
    (closed : upTo? stops scope (source ++ [stop]) = some (source, [stop])) {rest : List Char}
    (apart : StartsWithout isQuote rest) :
    upTo? stops scope (source ++ rest) = inFront source (upTo? stops .start rest) := by
  induction source generalizing scope with
  | nil =>
    -- Inside a bracket or a literal, the reader would go on behind the character, where nothing is.
    have outside : scope.isOutside = true := by
      by_contra inside
      rw [List.nil_append, upTo?, Bool.eq_false_iff.mpr inside, Bool.false_and,
        if_neg Bool.false_ne_true] at closed
      cases step : scope.step stop with
      | none => simp [step] at closed
      | some next => simp [step, upTo?, inFront] at closed
    rw [List.nil_append, upTo?_of_isOutside outside apart, inFront_nil]
  | cons c source ih =>
    rw [List.cons_append, upTo?] at closed
    split_ifs at closed with stopped
    · cases closed
    · obtain ⟨next, step, read⟩ := Option.bind_eq_some_iff.mp closed
      rw [List.cons_append, upTo?_step (Bool.eq_false_iff.mpr stopped) step,
        ih (of_inFront [c] read), inFront_inFront, List.singleton_append]

/-- Characters that are nothing special in code. -/
def Inert (stops : Char → Bool) (text : List Char) : Prop :=
  ∀ c ∈ text, stops c = false ∧ ∀ closers, stepCode closers c = some ⟨closers, .code⟩

theorem upTo?_inert {text : List Char} (inert : Inert stops text) (rest : List Char) :
    upTo? stops ⟨closers, .code⟩ (text ++ rest) =
      inFront text (upTo? stops ⟨closers, .code⟩ rest) := by
  induction text with
  | nil => rw [List.nil_append, inFront_nil]
  | cons c text ih =>
    obtain ⟨⟨goes_on, step⟩, later⟩ := List.forall_mem_cons.mp inert
    have stays : Scope.step ⟨closers, .code⟩ c = some ⟨closers, .code⟩ := step closers
    rw [List.cons_append, upTo?_step (by rw [goes_on, Bool.and_false]) stays, ih later,
      inFront_inFront, List.singleton_append]

/-- The characters that open or close something, and those that are not read at all. -/
def special : List Char := ['"', '\'', '#', '\\', '(', '[', '{', ')', ']', '}']

theorem stepCode_of_not_special {c : Char} (plain : c ∉ special) (closers : List Char) :
    stepCode closers c = some ⟨closers, .code⟩ := by
  simp only [special, List.mem_cons, List.not_mem_nil, or_false, not_or] at plain
  simp [stepCode, isQuote, closer?, plain]

/-- A text of a kind of characters that has nothing special among them. -/
theorem inert_of_kind {kind : Char → Bool} (ordinary : special.any kind = false)
    (goes_on : ∀ c, kind c = true → stops c = false) {text : List Char}
    (each : ∀ c ∈ text, kind c = true) : Inert stops text := by
  intro c inside
  have here := each c inside
  refine ⟨goes_on c here, stepCode_of_not_special fun listed => ?_⟩
  exact List.any_eq_false.mp ordinary c listed here

theorem Blank.inert {blanks : List Char} (blank : Blank blanks)
    (goes_on : ∀ c, isSpace c = true → stops c = false) : Inert stops blanks :=
  inert_of_kind rfl goes_on blank

theorem isSpace_of_word {c : Char} (word : continuesIdentifier c = true) : isSpace c = false := by
  simp [isSpace, ne_of_kind word (d := ' ') rfl, ne_of_kind word (d := '\t') rfl,
    ne_of_kind word (d := '\n') rfl, ne_of_kind word (d := '\r') rfl,
    ne_of_kind word (d := '\x0c') rfl]

theorem inert_word {text : List Char} (word : ∀ c ∈ text, continuesIdentifier c = true)
    (goes_on : ∀ c, continuesIdentifier c = true → stops c = false) : Inert stops text :=
  inert_of_kind rfl goes_on word

/-- Outside literals. Two quotes are a literal unless a third one follows. -/
def Place.isCode : Place → Bool
  | .code | .emptied _ => true
  | _ => false

/-- A reader in a literal goes over characters, up to the end of the literal and no further. -/
inductive Scope.Crosses : Scope → List Char → Scope → Prop
  | done (scope : Scope) : Crosses scope [] scope
  | step {scope next last : Scope} {c : Char} {chars : List Char}
      (inside : scope.place.isCode = false) (goes : scope.step c = some next)
      (rest : Crosses next chars last) : Crosses scope (c :: chars) last

theorem Scope.Crosses.append {first middle last : Scope} {chars more : List Char}
    (left : Crosses first chars middle) (right : Crosses middle more last) :
    Crosses first (chars ++ more) last := by
  induction left with
  | done => exact right
  | step inside goes _ ih => exact .step inside goes (ih right)

theorem not_isOutside_of_inside {scope : Scope} (inside : scope.place.isCode = false) :
    scope.isOutside = false := by
  obtain ⟨closers, place⟩ := scope
  cases place <;> first | exact Bool.and_false _ | cases inside

/-- In a literal, a reader goes on whatever the character. -/
theorem upTo?_crosses {first last : Scope} {chars : List Char} (crosses : first.Crosses chars last)
    (rest : List Char) :
    upTo? stops first (chars ++ rest) = inFront chars (upTo? stops last rest) := by
  induction crosses with
  | done => exact (inFront_nil _).symm
  | step inside goes _ ih =>
    rw [List.cons_append, upTo?_step (by rw [not_isOutside_of_inside inside, Bool.false_and]) goes,
      ih, inFront_inFront, List.singleton_append]

theorem crosses_plain {mark : Mark} {c : Char} (other : c ≠ mark.val) (no_escape : c ≠ '\\')
    (line : breaksLine c = false) :
    Scope.Crosses ⟨closers, .short mark false⟩ [c] ⟨closers, .short mark false⟩ := by
  refine .step rfl ?_ (.done _)
  change stepShort closers mark c = _
  rw [stepShort, line, if_neg Bool.false_ne_true, if_neg other, decide_eq_false no_escape]

theorem crosses_escape (mark : Mark) {d : Char} (line : breaksLine d = false) :
    Scope.Crosses ⟨closers, .short mark false⟩ ['\\', d] ⟨closers, .short mark false⟩ := by
  have backslash : Scope.step ⟨closers, .short mark false⟩ '\\' =
      some ⟨closers, .short mark true⟩ := if_neg (ne_of_kind mark.property rfl).symm
  have escaped : Scope.step ⟨closers, .short mark true⟩ d = some ⟨closers, .short mark false⟩ :=
    if_neg (Bool.eq_false_iff.mp line)
  exact .step rfl backslash (.step rfl escaped (.done _))

/-- What is written for a character leaves the reader in the literal. -/
theorem QuotedAs.crosses {mark : Mark} {c : Char} {chars : List Char}
    (quoted : QuotedAs mark.val c chars) :
    Scope.Crosses ⟨closers, .short mark false⟩ chars ⟨closers, .short mark false⟩ := by
  cases quoted with
  | plain other no_escape line => exact crosses_plain other no_escape line
  | short d line means => exact crosses_escape mark line
  | coded a b digits means =>
    obtain ⟨⟨a_other, a_no_escape, a_line⟩, ⟨b_other, b_no_escape, b_line⟩, -⟩ :=
      List.forall_mem_cons.mp digits |>.imp_right List.forall_mem_cons.mp
    exact (crosses_escape mark rfl).append
      ((crosses_plain a_other a_no_escape a_line).append (crosses_plain b_other b_no_escape b_line))

/-- The text of a literal and its closing quote. -/
theorem crosses_quoted (mark : Mark) (text : List Char) :
    Scope.Crosses ⟨closers, .short mark false⟩ (text.flatMap (quotedChar mark.val) ++ [mark.val])
      ⟨closers, .code⟩ := by
  induction text with
  | nil =>
    have line : breaksLine mark.val = false := by
      rcases quote_cases mark.property with same | same <;> rw [same] <;> rfl
    refine .step rfl ?_ (.done _)
    change stepShort closers mark mark.val = _
    rw [stepShort, line, if_neg Bool.false_ne_true, if_pos rfl]
  | cons c text ih =>
    rw [List.flatMap_cons, List.append_assoc]
    exact (quotedAs_quotedChar mark.property c).crosses.append ih

theorem Scope.Crosses.of_short {mark : Mark} {c : Char} {chars : List Char} {last : Scope}
    (other : c ≠ mark.val) (crosses : Crosses ⟨closers, .short mark false⟩ (c :: chars) last) :
    Crosses ⟨closers, .opened mark⟩ (c :: chars) last := by
  cases crosses with
  | step _ goes rest => exact .step rfl ((if_neg other).trans goes) rest

/-- Behind its first quote, a literal is crossed. The place after an empty one is not yet code. -/
theorem crosses_literal (mark : Mark) (text : List Char) :
    ∃ place, (place = .code ∨ place = .emptied mark) ∧
      ∀ closers, Scope.Crosses ⟨closers, .opened mark⟩
        (text.flatMap (quotedChar mark.val) ++ [mark.val]) ⟨closers, place⟩ := by
  cases text with
  | nil => exact ⟨.emptied mark, .inr rfl, fun closers => .step rfl (if_pos rfl) (.done _)⟩
  | cons c text =>
    have backslash : mark.val ≠ '\\' := ne_of_kind mark.property rfl
    obtain ⟨first, more, same, other⟩ :=
      (quotedAs_quotedChar mark.property c).head_ne backslash
    refine ⟨.code, .inl rfl, fun closers => ?_⟩
    have crosses : Scope.Crosses ⟨closers, .short mark false⟩ _ _ :=
      crosses_quoted mark (c :: text)
    rw [List.flatMap_cons, same, List.append_assoc, List.cons_append] at crosses ⊢
    exact crosses.of_short other.symm

/-- A quoted text is read over, wherever it stands. -/
theorem upTo?_quoteEscaped (preferDouble : Bool) (text : List Char) {rest : List Char}
    (goes_on : ∀ c, isQuote c = true → stops c = false) (apart : StartsWithout isQuote rest) :
    upTo? stops ⟨closers, .code⟩ (quoteEscaped preferDouble (escape text) ++ rest) =
      inFront (quoteEscaped preferDouble (escape text)) (upTo? stops ⟨closers, .code⟩ rest) := by
  have quote := isQuote_chooseQuote preferDouble (escape text)
  rw [quoteEscaped, enclose_escape]
  generalize chooseQuote preferDouble (escape text) = mark at quote
  have opens : Scope.step ⟨closers, .code⟩ mark = some ⟨closers, .opened ⟨mark, quote⟩⟩ :=
    dif_pos quote
  obtain ⟨place, outside, crosses⟩ := crosses_literal ⟨mark, quote⟩ text
  have behind : upTo? stops ⟨closers, place⟩ rest = upTo? stops ⟨closers, .code⟩ rest := by
    rcases outside with rfl | rfl
    · rfl
    · exact upTo?_emptied _ apart
  rw [List.cons_append, upTo?_step (by rw [goes_on mark quote, Bool.and_false]) opens,
    upTo?_crosses (crosses closers), behind, inFront_inFront, List.singleton_append]

end

theorem isQuote_of_isSpace {c : Char} (space : isSpace c = true) : isQuote c = false := by
  have apart : ∀ c, isQuote c = true → isSpace c = false := fun _ => isSpace_of_isQuote
  exact other_kind apart space

theorem Blank.no_quote {blanks : List Char} (blank : Blank blanks) {rest : List Char}
    (apart : StartsWithout isQuote rest) : StartsWithout isQuote (blanks ++ rest) := by
  cases blanks with
  | nil => exact apart
  | cons c blanks => exact startsWithout_cons (isQuote_of_isSpace (blank c List.mem_cons_self)) _

/-- Source of an operand: it goes on up to a comma behind it, and is no name with a value. -/
structure Expression (source : List Char) : Prop where
  trim : Trim source
  closed : upTo? endsOperand .start (source ++ [',']) = some (source, [','])
  unkeyed : keyed source = ⟨none, source⟩
  value : source.head? ≠ some '='

theorem goes_on_space : ∀ c, isSpace c = true → endsOperand c = false := by
  intro c space
  rcases space_cases space with rfl | rfl | rfl | rfl | rfl <;> rfl

theorem goes_on_quote : ∀ c, isQuote c = true → endsOperand c = false := by
  intro c quote
  rcases quote_cases quote with rfl | rfl <;> rfl

theorem goes_on_word : ∀ c, continuesIdentifier c = true → endsOperand c = false := by
  intro c word
  simp [endsOperand, ne_of_kind word (d := ',') rfl, ne_of_kind word (d := ')') rfl]

theorem upTo?_end {stop : Char} (ends : endsOperand stop = true) (rest : List Char) :
    upTo? endsOperand .start (stop :: rest) = some ([], stop :: rest) := by
  rw [upTo?, ends]
  rfl

theorem Expression.upTo?_append {source blanks : List Char} (expression : Expression source)
    (blank : Blank blanks) {stop : Char} (ends : endsOperand stop = true) (rest : List Char) :
    upTo? endsOperand .start (source ++ (blanks ++ stop :: rest)) =
      some (source ++ blanks, stop :: rest) := by
  have apart := blank.no_quote (startsWithout_cons (other_kind goes_on_quote ends) rest)
  rw [ResourceModels.Code.upTo?_append expression.closed apart, Scope.start,
    upTo?_inert (blank.inert goes_on_space), ← Scope.start, upTo?_end ends, inFront_inFront]
  simp [inFront]

theorem word_of_isIdentifier {key : String} (identifier : isIdentifier key = true) :
    key.toList ≠ [] ∧ ∀ c ∈ key.toList, continuesIdentifier c = true := by
  obtain ⟨⟨⟨first, rest, spelling, -⟩, word⟩, -⟩ := isIdentifier_iff.mp identifier
  refine ⟨spelling ▸ List.cons_ne_nil first rest, fun c inside => ?_⟩
  exact continuesIdentifier_iff.mpr (word c inside)

theorem keyed_keyword {key : String} (identifier : isIdentifier key = true)
    {left source : List Char} (blank : Blank left) (trim : Trim source)
    (value : source.head? ≠ some '=') :
    keyed (key.toList ++ '=' :: (left ++ source)) = ⟨some key, source⟩ := by
  have word := (word_of_isIdentifier identifier).2
  have equals : StartsWithout continuesIdentifier ('=' :: (left ++ source)) :=
    startsWithout_cons (by decide) _
  have no_comparison : (left ++ source).head? ≠ some '=' := by
    cases left with
    | nil => exact value
    | cons c left =>
      have space := blank c List.mem_cons_self
      rintro starts
      obtain rfl : c = '=' := Option.some.inj starts
      cases space
  have value_eq : skip (left ++ source) = source := by
    rw [skip_blank blank, ← List.append_nil source, trim.skip_append]
  have solid : skip ('=' :: (left ++ source)) = '=' :: (left ++ source) := rfl
  rw [keyed, takeWhile_apart word equals, dropWhile_apart word equals, solid, String.ofList_toList]
  dsimp only
  rw [if_pos ⟨rfl, identifier, no_comparison⟩, value_eq]

theorem readArgument?_positional {source blanks : List Char} (expression : Expression source)
    (blank : Blank blanks) {stop : Char} (ends : endsOperand stop = true) (rest : List Char) :
    readArgument? (source ++ (blanks ++ stop :: rest)) = some (⟨none, source⟩, stop :: rest) := by
  have stripped := strip_padded blank_nil expression.trim blank
  rw [readArgument?, expression.upTo?_append blank ends, Option.map_some]
  dsimp only
  rw [← List.nil_append (source ++ blanks), stripped, expression.unkeyed]

theorem readArgument?_keyword {key : String} (identifier : isIdentifier key = true)
    {left source blanks : List Char} (before : Blank left) (expression : Expression source)
    (blank : Blank blanks) {stop : Char} (ends : endsOperand stop = true) (rest : List Char) :
    readArgument? (key.toList ++ '=' :: (left ++ (source ++ (blanks ++ stop :: rest)))) =
      some (⟨some key, source⟩, stop :: rest) := by
  obtain ⟨nonempty, word⟩ := word_of_isIdentifier identifier
  have word_inert := inert_word word goes_on_word
  have equals_inert : Inert endsOperand ('=' :: left) :=
    List.forall_mem_cons.mpr ⟨⟨rfl, fun _ => rfl⟩, before.inert goes_on_space⟩
  have solid : StartsWithout isSpace key.toList :=
    fun c starts => isSpace_of_word (word c (List.mem_of_head? starts))
  have trim : Trim (key.toList ++ '=' :: (left ++ source)) := by
    have front := expression.trim.append (key.toList ++ '=' :: left)
      (solid.append nonempty _) (List.append_ne_nil_of_left_ne_nil nonempty _)
    rwa [List.append_assoc, List.cons_append] at front
  have read : upTo? endsOperand .start
      (key.toList ++ '=' :: (left ++ (source ++ (blanks ++ stop :: rest)))) =
        some ([] ++ (key.toList ++ '=' :: (left ++ source) ++ blanks), stop :: rest) := by
    rw [Scope.start, upTo?_inert word_inert, ← List.cons_append, upTo?_inert equals_inert,
      ← Scope.start, expression.upTo?_append blank ends]
    simp [inFront]
  rw [readArgument?, read, Option.map_some]
  dsimp only
  rw [strip_padded blank_nil trim blank,
    keyed_keyword identifier before expression.trim expression.value]

/-- The source of an argument, and what is read for it wherever the argument ends. -/
structure Stands (piece : List Char) (argument : ReadArgument) : Prop where
  opens : ∃ c more, skip piece = c :: more ∧ c ≠ ')'
  reads : ∀ blanks, Blank blanks → ∀ stop, endsOperand stop = true → ∀ rest,
    readArgument? (skip piece ++ (blanks ++ stop :: rest)) = some (argument, stop :: rest)

/-- The source of an argument with or without a keyword. -/
def pieceOf (key : Option String) (value : List Char) : List Char :=
  match key with
  | some key => key.toList ++ '=' :: value
  | none => value

theorem Expression.head_ne {source : List Char} (expression : Expression source) :
    ∃ c more, source = c :: more ∧ c ≠ ')' := by
  obtain ⟨c, more, rfl⟩ := List.exists_cons_of_ne_nil expression.trim.nonempty
  refine ⟨c, more, rfl, ?_⟩
  rintro rfl
  have closed := expression.closed
  rw [List.cons_append, upTo?_end rfl] at closed
  cases closed

theorem stands_pieceOf {key : Option String} (identifier : ∀ name ∈ key, isIdentifier name = true)
    (value : List Char) (expression : Expression (strip value)) :
    Stands (pieceOf key value) ⟨key, strip value⟩ := by
  obtain ⟨left, right, value_eq, before, behind⟩ := exists_strip value
  generalize strip value = source at expression value_eq
  subst value_eq
  cases key with
  | none =>
    have piece_eq : skip (pieceOf none (left ++ (source ++ right))) = source ++ right := by
      rw [pieceOf, skip_blank before, expression.trim.skip_append]
    refine ⟨?_, fun blanks blank stop ends rest => ?_⟩
    · obtain ⟨c, more, rfl, other⟩ := expression.head_ne
      exact ⟨c, more ++ right, piece_eq, other⟩
    · rw [piece_eq, List.append_assoc, ← List.append_assoc right]
      exact readArgument?_positional expression (behind.append blank) ends rest
  | some key =>
    have named := identifier key rfl
    obtain ⟨nonempty, word⟩ := word_of_isIdentifier named
    obtain ⟨c, more, spelling⟩ := List.exists_cons_of_ne_nil nonempty
    have first : continuesIdentifier c = true := word c (spelling ▸ List.mem_cons_self)
    have piece_eq : skip (pieceOf (some key) (left ++ (source ++ right))) =
        key.toList ++ '=' :: (left ++ (source ++ right)) := by
      rw [pieceOf, spelling]
      exact skip_of_startsWithout (startsWithout_cons (isSpace_of_word first) _)
    refine ⟨?_, fun blanks blank stop ends rest => ?_⟩
    · exact ⟨c, more ++ '=' :: (left ++ (source ++ right)), by rw [piece_eq, spelling]; rfl,
        ne_of_kind first rfl⟩
    · rw [piece_eq, List.append_assoc, List.cons_append, List.append_assoc, List.append_assoc,
        ← List.append_assoc right]
      exact readArgument?_keyword named before expression (behind.append blank) ends rest

theorem Stands.skip_append {piece : List Char} {argument : ReadArgument}
    (stands : Stands piece argument) (rest : List Char) :
    skip (piece ++ rest) = skip piece ++ rest := by
  obtain ⟨c, more, piece_eq, -⟩ := stands.opens
  have some_left : (piece.dropWhile isSpace).isEmpty = false := by
    change (skip piece).isEmpty = false
    rw [piece_eq]
    rfl
  rw [skip, List.dropWhile_append, some_left, if_neg Bool.false_ne_true]
  rfl

theorem Stands.readSeries?_append {piece blanks : List Char} {argument : ReadArgument}
    (stands : Stands piece argument) (blank : Blank blanks) {stop : Char}
    (ends : endsOperand stop = true) (after : List Char) (fuel : Nat) :
    readSeries? readArgument? ')' (fuel + 1) (skip (piece ++ (blanks ++ stop :: after))) =
      if stop = ',' then
        (readSeries? readArgument? ')' fuel (skip after)).map fun (arguments, after) =>
          (argument :: arguments, after)
      else if stop = ')' then some ([argument], after)
      else none := by
  have read := stands.reads blanks blank stop ends after
  obtain ⟨c, more, piece_eq, other⟩ := stands.opens
  have solid := other_kind goes_on_space ends
  rw [piece_eq, List.cons_append] at read
  rw [stands.skip_append, piece_eq, List.cons_append]
  exact readSeries?_step other read (skip_of_startsWithout (startsWithout_cons solid after)) fuel

theorem Stands.readSeries?_comma {piece : List Char} {argument : ReadArgument}
    (stands : Stands piece argument) (after : List Char) (fuel : Nat) :
    readSeries? readArgument? ')' (fuel + 1) (skip (piece ++ ',' :: after)) =
      (readSeries? readArgument? ')' fuel (skip after)).map fun (arguments, after) =>
        (argument :: arguments, after) :=
  (stands.readSeries?_append blank_nil rfl after fuel).trans (if_pos rfl)

/-- What stands between the parentheses of a call with these arguments. -/
def Row (text : List Char) (arguments : List ReadArgument) : Prop :=
  ∀ rest, readSeries? readArgument? ')' (text ++ ')' :: rest).length (skip (text ++ ')' :: rest)) =
    some (arguments, rest)

theorem readSeries?_close {behind : List Char} (blank : Blank behind) (rest : List Char)
    (fuel : Nat) : readSeries? readArgument? ')' (fuel + 1) (skip (behind ++ ')' :: rest)) =
      some ([], rest) := by
  rw [skip_blank blank]
  exact if_pos rfl

theorem readSeries?_lines {pieces : List (List Char)} {arguments : List ReadArgument}
    (each : List.Forall₂ Stands pieces arguments) {before behind : List Char} (lead : Blank before)
    (blank : Blank behind) (rest : List Char) {fuel : Nat} (enough : pieces.length < fuel) :
    readSeries? readArgument? ')' fuel (skip
        (pieces.flatMap (fun piece => before ++ (piece ++ [','])) ++ (behind ++ ')' :: rest))) =
      some (arguments, rest) := by
  obtain ⟨fuel, rfl⟩ := Nat.exists_eq_succ_of_ne_zero (Nat.ne_zero_of_lt enough)
  induction each generalizing fuel with
  | nil => exact readSeries?_close blank rest fuel
  | @cons piece argument pieces arguments first more ih =>
    obtain ⟨fuel, rfl⟩ := Nat.exists_eq_succ_of_ne_zero
      (Nat.ne_zero_of_lt (Nat.lt_of_succ_lt_succ enough))
    have later := ih fuel (Nat.lt_of_succ_lt_succ enough)
    rw [List.flatMap_cons, List.append_assoc, List.append_assoc, List.append_assoc,
      skip_blank lead, List.singleton_append, first.readSeries?_comma, later, Option.map_some]

theorem Stands.length_pos {piece : List Char} {argument : ReadArgument}
    (stands : Stands piece argument) : 0 < piece.length := by
  obtain ⟨c, more, piece_eq, -⟩ := stands.opens
  refine List.length_pos_iff.mpr ?_
  rintro rfl
  cases piece_eq

/-- Arguments on one line, with blanks around them. -/
theorem row_joined {pieces : List (List Char)} {arguments : List ReadArgument}
    (each : List.Forall₂ Stands pieces arguments) {before behind : List Char} (lead : Blank before)
    (blank : Blank behind) :
    Row (before ++ ([',', ' '].intercalate pieces ++ behind)) arguments := by
  intro rest
  have counted := count_le_intercalate (fun _ _ stands => Stands.length_pos stands) [',', ' '] each
  rw [List.append_assoc, List.append_assoc, skip_blank lead]
  refine readSeries?_intercalate ?_ ?_ (readSeries?_close blank rest) each ?_
  · exact fun _ _ stands => stands.readSeries?_comma
  · intro piece argument stands fuel
    rw [stands.readSeries?_append blank rfl, if_neg (by decide), if_pos rfl]
  · simp only [List.length_append, List.length_cons]
    omega

/-- Arguments with a comma behind each of them, on lines of their own. -/
theorem row_lines {pieces : List (List Char)} {arguments : List ReadArgument}
    (each : List.Forall₂ Stands pieces arguments) {before behind : List Char} (lead : Blank before)
    (blank : Blank behind) :
    Row (pieces.flatMap (fun piece => before ++ (piece ++ [','])) ++ behind) arguments := by
  intro rest
  have counted : pieces.length ≤
      (pieces.flatMap (fun piece => before ++ (piece ++ [',']))).length := by
    have each_one : ∀ n ∈ pieces.map (fun piece => (before ++ (piece ++ [','])).length), 1 ≤ n :=
      List.forall_mem_map.mpr fun piece _ => by
        simp only [List.length_append, List.length_singleton]
        omega
    have counted := List.length_le_sum_of_one_le _ each_one
    rwa [List.length_map, ← List.length_flatMap] at counted
  rw [List.append_assoc]
  refine readSeries?_lines each lead blank rest ?_
  simp only [List.length_append, List.length_cons]
  omega

theorem readCall?_row {name : String} (identifier : isIdentifier name = true) {text : List Char}
    {arguments : List ReadArgument} (row : Row text arguments) (rest : List Char) :
    readCall? (name.toList ++ '(' :: (text ++ ')' :: rest)) = some (⟨name, arguments⟩, rest) := by
  have word := (word_of_isIdentifier identifier).2
  have paren : StartsWithout continuesIdentifier ('(' :: (text ++ ')' :: rest)) :=
    startsWithout_cons (by decide) _
  rw [readCall?, takeWhile_apart word paren, dropWhile_apart word paren, String.ofList_toList]
  dsimp only
  rw [if_pos ⟨rfl, identifier⟩, row rest, Option.map_some]

theorem whole?_bare {α : Type} {reader : List Char → Option (α × List Char)} {c : Char}
    {rest : List Char} {value : α} (other : c ≠ '(')
    (read : reader (c :: rest) = some (value, [])) :
    whole? reader (c :: rest) = some value := by
  rw [whole?, if_neg other, read]

theorem whole?_enclosed {α : Type} {reader : List Char → Option (α × List Char)}
    {rest : List Char} (after : List Char) {value : α}
    (read : reader (skip rest) = some (value, after))
    (closed : skip after = [')']) : whole? reader ('(' :: rest) = some value := by
  rw [whole?, if_pos rfl, read]
  exact if_pos closed

theorem last_quoteEscaped (preferDouble : Bool) (text : List Char) :
    (quoteEscaped preferDouble (escape text)).rdropWhile isSpace =
      quoteEscaped preferDouble (escape text) := by
  have quote := isQuote_chooseQuote preferDouble (escape text)
  have solid := isSpace_of_isQuote quote
  rw [quoteEscaped, enclose, ← List.cons_append]
  exact List.rdropWhile_concat_neg _ _ _ (Bool.eq_false_iff.mp solid)

/-- An operand that starts with no letter has no keyword. -/
theorem keyed_of_startsWithout {source : List Char}
    (no_word : StartsWithout continuesIdentifier source) (solid : StartsWithout isSpace source)
    (no_equals : source.head? ≠ some '=') : keyed source = ⟨none, source⟩ := by
  rw [keyed, dropWhile_of_startsWithout no_word, skip_of_startsWithout solid]
  cases source with
  | nil => rfl
  | cons c rest => exact if_neg fun same => no_equals (congrArg some same.1)

theorem expression_quote (preferDouble : Bool) (text : List Char) :
    Expression (quoteEscaped preferDouble (escape text)) := by
  have quote := isQuote_chooseQuote preferDouble (escape text)
  have starts : ∃ mark more, quoteEscaped preferDouble (escape text) = mark :: more ∧
      isQuote mark = true := ⟨_, _, rfl, quote⟩
  have last := last_quoteEscaped preferDouble text
  have comma : StartsWithout isQuote [','] := startsWithout_cons rfl []
  have closed : upTo? endsOperand .start (quoteEscaped preferDouble (escape text) ++ [',']) =
      inFront (quoteEscaped preferDouble (escape text)) (upTo? endsOperand .start [',']) :=
    upTo?_quoteEscaped preferDouble text goes_on_quote comma
  generalize quoteEscaped preferDouble (escape text) = source at *
  obtain ⟨mark, more, rfl, is_quote⟩ := starts
  have solid := startsWithout_cons (isSpace_of_isQuote is_quote) more
  have no_word : continuesIdentifier mark = false := by
    rcases quote_cases is_quote with rfl | rfl <;> decide
  have no_equals : (mark :: more).head? ≠ some '=' :=
    fun same => ne_of_kind is_quote rfl (Option.some.inj same)
  refine ⟨⟨List.cons_ne_nil mark more, solid, last⟩, ?_, ?_, no_equals⟩
  · rw [closed, upTo?_end rfl]
    simp [inFront]
  · exact keyed_of_startsWithout (startsWithout_cons no_word more) solid no_equals

theorem textOf?_quote (preferDouble : Bool) (text : List Char) :
    textOf? (quoteEscaped preferDouble (escape text)) = some text := by
  have quote := isQuote_chooseQuote preferDouble (escape text)
  have no_paren : chooseQuote preferDouble (escape text) ≠ '(' := ne_of_kind quote rfl
  have nothing_behind : StartsWithout isQuote (skip []) := startsWithout_nil isQuote
  have read := Literal.readStrings?_quoteChars preferDouble text nothing_behind
  rw [List.append_nil] at read
  exact whole?_bare no_paren read

/-- Literals, with blanks in front of each of them. -/
def literalRow (preferDouble : Bool) (before : List Char) (parts : List (List Char)) : List Char :=
  parts.flatMap fun part => before ++ quoteEscaped preferDouble (escape part)

section

variable (preferDouble : Bool) {before behind : List Char} (lead : Blank before)
  (apart : before ≠ [])
include lead apart

theorem no_quote_literalRow (parts : List (List Char)) {rest : List Char}
    (no_quote : StartsWithout isQuote rest) :
    StartsWithout isQuote (literalRow preferDouble before parts ++ rest) := by
  cases parts with
  | nil => exact no_quote
  | cons part parts =>
    obtain ⟨c, more, rfl⟩ := List.exists_cons_of_ne_nil apart
    exact startsWithout_cons (isQuote_of_isSpace (lead c List.mem_cons_self)) _

theorem upTo?_literalRow {closers : List Char} (parts : List (List Char)) {rest : List Char}
    (no_quote : StartsWithout isQuote rest) :
    upTo? endsOperand ⟨closers, .code⟩ (literalRow preferDouble before parts ++ rest) =
      inFront (literalRow preferDouble before parts)
        (upTo? endsOperand ⟨closers, .code⟩ rest) := by
  induction parts with
  | nil => exact (inFront_nil _).symm
  | cons part parts ih =>
    have behind := no_quote_literalRow preferDouble lead apart parts no_quote
    have row_eq : literalRow preferDouble before (part :: parts) =
        before ++ (quoteEscaped preferDouble (escape part) ++
          literalRow preferDouble before parts) := by
      rw [literalRow, List.flatMap_cons, List.append_assoc]
      rfl
    rw [row_eq, List.append_assoc, List.append_assoc, upTo?_inert (lead.inert goes_on_space),
      upTo?_quoteEscaped preferDouble part goes_on_quote behind, ih, inFront_inFront,
      inFront_inFront, List.append_assoc]

theorem readStrings?_literalRow {parts : List (List Char)} (nonempty : parts ≠ [])
    {rest : List Char} (no_quote : StartsWithout isQuote (skip rest)) {fuel : Nat}
    (enough : parts.length ≤ fuel) :
    readStrings? fuel (skip (literalRow preferDouble before parts ++ rest)) =
      some (parts.flatten, rest) := by
  have row_eq : ∀ part parts, skip (literalRow preferDouble before (part :: parts) ++ rest) =
      quoteEscaped preferDouble (escape part) ++
        (literalRow preferDouble before parts ++ rest) := by
    intro part parts
    rw [literalRow, List.flatMap_cons, List.append_assoc, List.append_assoc, skip_blank lead,
      (expression_quote preferDouble part).trim.skip_append]
    rfl
  induction parts generalizing fuel with
  | nil => exact absurd rfl nonempty
  | cons part parts ih =>
    obtain ⟨fuel, rfl⟩ : ∃ less, fuel = less + 1 :=
      Nat.exists_eq_succ_of_ne_zero (Nat.ne_zero_of_lt enough)
    rw [row_eq]
    cases parts with
    | nil =>
      rw [List.flatten_singleton]
      exact readStrings?_quoteEscaped preferDouble part no_quote fuel
    | cons next parts =>
      have behind := no_quote_literalRow preferDouble lead apart (next :: parts)
        (startsWithout_of_skip (fun _ => isSpace_of_isQuote) no_quote)
      have quote := isQuote_chooseQuote preferDouble (escape next)
      have later := ih (List.cons_ne_nil next parts) (Nat.le_of_succ_le_succ enough)
      rw [readStrings?_cons preferDouble part behind (by rw [row_eq]; exact quote), later]
      rfl

end

/-- Literals in parentheses, with blanks around each of them. -/
def literalsInParentheses (preferDouble : Bool) (before behind : List Char)
    (parts : List (List Char)) : List Char :=
  '(' :: (literalRow preferDouble before parts ++ (behind ++ [')']))

theorem expression_literals (preferDouble : Bool) {before behind : List Char} (lead : Blank before)
    (apart : before ≠ []) (blank : Blank behind) (parts : List (List Char)) :
    Expression (literalsInParentheses preferDouble before behind parts) := by
  have no_word : StartsWithout continuesIdentifier
      (literalsInParentheses preferDouble before behind parts) := startsWithout_cons rfl _
  have solid : StartsWithout isSpace (literalsInParentheses preferDouble before behind parts) :=
    startsWithout_cons rfl _
  refine ⟨⟨List.cons_ne_nil _ _, solid, ?_⟩, ?_, keyed_of_startsWithout no_word solid ?_, ?_⟩
  · rw [literalsInParentheses, ← List.cons_append, ← List.append_assoc]
    exact List.rdropWhile_concat_neg _ _ _ Bool.false_ne_true
  · have opens : Scope.step .start '(' = some ⟨[')'], .code⟩ := rfl
    have closes : Scope.step ⟨[')'], .code⟩ ')' = some .start := rfl
    have no_quote : StartsWithout isQuote (behind ++ [')', ',']) :=
      blank.no_quote (startsWithout_cons rfl [','])
    rw [literalsInParentheses, List.cons_append, upTo?_step rfl opens, List.append_assoc,
      List.append_assoc, List.singleton_append,
      upTo?_literalRow preferDouble lead apart parts no_quote,
      upTo?_inert (blank.inert goes_on_space), upTo?_step rfl closes, upTo?_end rfl]
    simp [inFront]
  · simp [literalsInParentheses]
  · simp [literalsInParentheses]

theorem textOf?_literals (preferDouble : Bool) {before behind : List Char} (lead : Blank before)
    (apart : before ≠ []) (blank : Blank behind) {parts : List (List Char)}
    (nonempty : parts ≠ []) :
    textOf? (literalsInParentheses preferDouble before behind parts) = some parts.flatten := by
  have no_quote : StartsWithout isQuote (skip (behind ++ [')'])) := by
    rw [skip_blank blank]
    exact startsWithout_cons rfl []
  have enough : parts.length ≤ (literalsInParentheses preferDouble before behind parts).length := by
    have positive := List.length_pos_iff.mpr apart
    have each_one : ∀ n ∈ parts.map fun part =>
        (before ++ quoteEscaped preferDouble (escape part)).length, 1 ≤ n :=
      List.forall_mem_map.mpr fun part _ => by
        rw [List.length_append]
        omega
    have counted := List.length_le_sum_of_one_le _ each_one
    rw [List.length_map, ← List.length_flatMap] at counted
    rw [literalsInParentheses, List.length_cons, List.length_append, literalRow]
    omega
  refine whole?_enclosed (behind ++ [')']) ?_ (skip_blank blank _)
  exact readStrings?_literalRow preferDouble lead apart nonempty no_quote enough

end ResourceModels.Code

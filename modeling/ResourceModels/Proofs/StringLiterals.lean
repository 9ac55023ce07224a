import Mathlib
import ResourceModels.Code.Literal

/-!
# String literals read back

A string literal on one line is read in two steps: first it is found where it ends, and then the
escapes between its quotes are undone. Reading knows every escape but characters by their name; what
is no escape keeps its backslash. A quoted text reads back as the text whatever it holds and
whatever stands behind it (`readString?_quoteEscaped`), because the quote is chosen before it is
escaped, and no escape of a character has a quote in it.
-/

namespace ResourceModels.Code

/-- What ends a line, or may not stand in source at all. -/
def breaksLine (c : Char) : Bool := c = '\n' || c = '\r' || c = '\x00'

def isQuote (c : Char) : Bool := c = '"' || c = '\''

/-- The value of a digit in a base up to sixteen. -/
def digitValue? (base : Nat) (c : Char) : Option Nat :=
  let value :=
    if '0' ≤ c ∧ c ≤ '9' then c.toNat - 48
    else if 'a' ≤ c ∧ c ≤ 'f' then c.toNat - 87
    else if 'A' ≤ c ∧ c ≤ 'F' then c.toNat - 55
    else base
  if value < base then some value else none

/-- The character whose code is written in digits. -/
def codeChar? (base : Nat) (digits : List Char) : Option Char := do
  let values ← digits.mapM (digitValue? base)
  let code := values.foldl (fun code value => base * code + value) 0
  if code.isValidChar then some (Char.ofNat code) else none

/-- The characters that have a short escape. -/
def shortEscape? (c : Char) : Option Char :=
  match c with
  | '\\' => some '\\'
  | '\'' => some '\''
  | '"' => some '"'
  | 'a' => some '\x07'
  | 'b' => some '\x08'
  | 't' => some '\t'
  | 'n' => some '\n'
  | 'v' => some '\x0b'
  | 'f' => some '\x0c'
  | 'r' => some '\r'
  | _ => none

/-- An escape with so many digits of base sixteen after its letter. -/
def codedEscape? (count : Nat) (digits : List Char) : Option (List Char × Nat) :=
  if (digits.take count).length = count then
    (codeChar? 16 (digits.take count)).map fun c => ([c], count + 1)
  else none

/-- What stands for the text behind a backslash, and how much of it. Characters by their name are
not read, and a backslash before any other character stands for itself. -/
def escape? : List Char → Option (List Char × Nat)
  | [] => none
  | c :: rest =>
    if c = 'x' then codedEscape? 2 rest
    else if c = 'u' then codedEscape? 4 rest
    else if c = 'U' then codedEscape? 8 rest
    else if c = 'N' then none
    else if (digitValue? 8 c).isSome then
      let digits := ((c :: rest).take 3).takeWhile fun d => (digitValue? 8 d).isSome
      (codeChar? 8 digits).map fun d => ([d], digits.length)
    else
      match shortEscape? c with
      | some d => some ([d], 1)
      | none => some (['\\', c], 1)

/-- Undo the escapes in a text, after passing over so many characters. -/
def unescapeFrom? : Nat → List Char → Option (List Char)
  | _, [] => some []
  | passed + 1, _ :: rest => unescapeFrom? passed rest
  | 0, c :: rest =>
    if c = '\\' then
      match escape? rest with
      | none => none
      | some (chars, used) => (unescapeFrom? used rest).map (chars ++ ·)
    else (unescapeFrom? 0 rest).map (c :: ·)

def unescape? (raw : List Char) : Option (List Char) := unescapeFrom? 0 raw

/-- The text up to the closing quote, which is no escaped one, and what stands behind it on the
same line. -/
def rawBody? (mark : Char) : Bool → List Char → Option (List Char × List Char)
  | _, [] => none
  | escaped, c :: rest =>
    if breaksLine c then none
    else if !escaped && c = mark then some ([], rest)
    else (rawBody? mark (!escaped && c = '\\') rest).map fun (raw, after) => (c :: raw, after)

/-- A literal at the start of a text, and what stands behind it. Three quotes start a literal over
several lines, which is not read. -/
def readString? : List Char → Option (List Char × List Char)
  | [] => none
  | mark :: rest =>
    if isQuote mark then
      if [mark, mark].isPrefixOf rest then none
      else do
        let (raw, after) ← rawBody? mark false rest
        let content ← unescape? raw
        some (content, after)
    else none

/-- The text of a literal that stands alone. -/
def literalText? (literal : String) : Option String :=
  match readString? literal.toList with
  | some (content, []) => some (String.ofList content)
  | _ => none

/-- What means nothing between brackets. -/
def isSpace (c : Char) : Bool := c = ' ' || c = '\t' || c = '\n' || c = '\r' || c = '\x0c'

def skip (text : List Char) : List Char := text.dropWhile isSpace

/-- Literals that follow each other stand for one text. -/
def readStrings? : Nat → List Char → Option (List Char × List Char)
  | 0, _ => none
  | fuel + 1, text =>
    match readString? text with
    | none => none
    | some (content, rest) =>
      if (skip rest).head?.any isQuote then
        (readStrings? fuel (skip rest)).map fun (more, after) => (content ++ more, after)
      else some (content, rest)

/-- A character between quotes. -/
def quotedChar (mark c : Char) : List Char :=
  (escapeChar c).flatMap fun d => if d = mark then ['\\', d] else [d]

/-- How a character can stand between quotes. -/
inductive QuotedAs (mark c : Char) : List Char → Prop
  | plain (other : c ≠ mark) (no_escape : c ≠ '\\') (line : breaksLine c = false) :
    QuotedAs mark c [c]
  | short (d : Char) (line : breaksLine d = false)
    (means : ∀ rest, escape? (d :: rest) = some ([c], 1)) : QuotedAs mark c ['\\', d]
  | coded (a b : Char) (digits : ∀ d ∈ [a, b], d ≠ mark ∧ d ≠ '\\' ∧ breaksLine d = false)
    (means : codeChar? 16 [a, b] = some c) : QuotedAs mark c ['\\', 'x', a, b]

theorem digitValue?_digitChar :
    ∀ value < 16, digitValue? 16 (Nat.digitChar value) = some value := by
  decide

theorem digitChar_plain : ∀ value < 16, isQuote (Nat.digitChar value) = false ∧
    Nat.digitChar value ≠ '\\' ∧ breaksLine (Nat.digitChar value) = false := by
  decide

/-- The two digits that are written for a control character name it. -/
theorem codeChar?_control {c : Char} (small : c.toNat < 256) :
    codeChar? 16 [Nat.digitChar (c.toNat / 16), Nat.digitChar (c.toNat % 16)] = some c := by
  have high : c.toNat / 16 < 16 := by omega
  have low : c.toNat % 16 < 16 := by omega
  have code : 16 * (16 * 0 + c.toNat / 16) + c.toNat % 16 = c.toNat := by omega
  have valid : c.toNat.isValidChar := c.valid
  simp only [codeChar?, List.mapM_cons, List.mapM_nil, digitValue?_digitChar _ high,
    digitValue?_digitChar _ low, Option.pure_def, Option.bind_eq_bind, Option.bind_some,
    List.foldl_cons, List.foldl_nil, code, if_pos valid, Char.ofNat_toNat]

theorem isControl_of_breaksLine {c : Char} (breaks : breaksLine c = true) :
    Text.isControl c = true := by
  simp only [breaksLine, Bool.or_eq_true, decide_eq_true_eq] at breaks
  rcases breaks with (rfl | rfl) | rfl <;> decide

theorem toNat_lt_of_isControl {c : Char} (control : Text.isControl c = true) : c.toNat < 256 := by
  simp only [Text.isControl, Bool.or_eq_true, Bool.and_eq_true, decide_eq_true_eq] at control
  omega

/-- A kind of characters tells those inside from those outside. -/
theorem ne_of_kind {kind : Char → Bool} {c d : Char} (inside : kind c = true)
    (outside : kind d = false) : c ≠ d := by
  rintro rfl
  exact absurd inside (Bool.eq_false_iff.mp outside)

/-- Of two kinds with nothing in common, each leaves out the other. -/
theorem other_kind {kind other : Char → Bool} (apart : ∀ c, kind c = true → other c = false)
    {c : Char} (inside : other c = true) : kind c = false :=
  Bool.eq_false_iff.mpr fun same => Bool.eq_false_iff.mp (apart c same) inside

theorem quote_cases {mark : Char} (quote : isQuote mark = true) : mark = '"' ∨ mark = '\'' := by
  simpa [isQuote] using quote

/-- A character is put between quotes as it is escaped, with a backslash if it is the quote. -/
theorem quotedChar_of_not_mem {mark c : Char} (absent : mark ∉ escapeChar c) :
    quotedChar mark c = escapeChar c := by
  have each : ∀ d ∈ escapeChar c, (if d = mark then ['\\', d] else [d]) = [d] := by
    intro d inside
    exact if_neg (by rintro rfl; exact absent inside)
  rw [quotedChar, List.flatMap_congr each, List.flatMap_singleton']

/-- Every character is written in one of the three ways. -/
theorem quotedAs_quotedChar {mark : Char} (quote : isQuote mark = true) (c : Char) :
    QuotedAs mark c (quotedChar mark c) := by
  have other : ∀ d, isQuote d = false → mark ≠ d := fun _ => ne_of_kind quote
  have short_escape : ∀ d, isQuote d = false → breaksLine d = false →
      (∀ rest, escape? (d :: rest) = some ([c], 1)) → escapeChar c = ['\\', d] →
      QuotedAs mark c (quotedChar mark c) := by
    intro d no_quote line means same
    rw [quotedChar_of_not_mem (by simp [same, other d no_quote, other '\\' rfl]), same]
    exact .short d line means
  by_cases is_backslash : c = '\\'
  · subst is_backslash
    exact short_escape '\\' rfl rfl (fun _ => rfl) rfl
  by_cases is_newline : c = '\n'
  · subst is_newline
    exact short_escape 'n' rfl rfl (fun _ => rfl) rfl
  by_cases is_return : c = '\r'
  · subst is_return
    exact short_escape 'r' rfl rfl (fun _ => rfl) rfl
  by_cases is_tab : c = '\t'
  · subst is_tab
    exact short_escape 't' rfl rfl (fun _ => rfl) rfl
  have unnamed : escapeChar c = if Text.isControl c then
      ['\\', 'x', Nat.digitChar (c.toNat / 16), Nat.digitChar (c.toNat % 16)] else [c] := by
    unfold escapeChar
    split <;> first | contradiction | rfl
  by_cases control : Text.isControl c = true
  · rw [if_pos control] at unnamed
    have small := toNat_lt_of_isControl control
    obtain ⟨high_quote, high⟩ := digitChar_plain (c.toNat / 16) (by omega)
    obtain ⟨low_quote, low⟩ := digitChar_plain (c.toNat % 16) (by omega)
    have absent : mark ∉ escapeChar c := by
      simp [unnamed, other _ high_quote, other _ low_quote, other '\\' rfl, other 'x' rfl]
    rw [quotedChar_of_not_mem absent, unnamed]
    refine .coded _ _ ?_ (codeChar?_control small)
    simp only [List.forall_mem_cons, List.not_mem_nil, false_implies, implies_true, and_true]
    exact ⟨⟨(other _ high_quote).symm, high⟩, (other _ low_quote).symm, low⟩
  · rw [if_neg control] at unnamed
    by_cases is_mark : c = mark
    · subst is_mark
      rcases quote_cases quote with rfl | rfl
      · exact .short '"' rfl fun _ => rfl
      · exact .short '\'' rfl fun _ => rfl
    · rw [quotedChar_of_not_mem (by simpa [unnamed] using Ne.symm is_mark), unnamed]
      have line : breaksLine c = false :=
        Bool.eq_false_iff.mpr fun breaks => control (isControl_of_breaksLine breaks)
      exact .plain is_mark is_backslash line

section

variable {mark c d : Char} {chars : List Char}

theorem rawBody?_plain (other : c ≠ mark) (no_escape : c ≠ '\\') (line : breaksLine c = false)
    (rest : List Char) : rawBody? mark false (c :: rest) =
      (rawBody? mark false rest).map fun (raw, after) => (c :: raw, after) := by
  simp [rawBody?, line, other, no_escape]

theorem rawBody?_escape (backslash : mark ≠ '\\') (line : breaksLine d = false)
    (rest : List Char) : rawBody? mark false ('\\' :: d :: rest) =
      (rawBody? mark false rest).map fun (raw, after) => ('\\' :: d :: raw, after) := by
  have no_break : breaksLine '\\' = false := rfl
  simp [rawBody?, no_break, line, backslash.symm, Function.comp_def]

/-- What is written for a character does not end the literal. -/
theorem QuotedAs.rawBody?_append (quoted : QuotedAs mark c chars) (backslash : mark ≠ '\\')
    (rest : List Char) : rawBody? mark false (chars ++ rest) =
      (rawBody? mark false rest).map fun (raw, after) => (chars ++ raw, after) := by
  cases quoted with
  | plain other no_escape line => exact rawBody?_plain other no_escape line rest
  | short d line means => exact rawBody?_escape backslash line rest
  | coded a b digits means =>
    obtain ⟨⟨a_other, a_no_escape, a_line⟩, ⟨b_other, b_no_escape, b_line⟩, -⟩ :=
      List.forall_mem_cons.mp digits |>.imp_right List.forall_mem_cons.mp
    rw [List.cons_append, List.cons_append, rawBody?_escape backslash rfl, List.cons_append,
      rawBody?_plain a_other a_no_escape a_line, List.cons_append,
      rawBody?_plain b_other b_no_escape b_line, Option.map_map, Option.map_map]
    rfl

theorem unescapeFrom?_escape {rest content : List Char} {used : Nat}
    (means : escape? rest = some (content, used)) : unescapeFrom? 0 ('\\' :: rest) =
      (unescapeFrom? used rest).map (content ++ ·) := by
  rw [unescapeFrom?, if_pos rfl, means]

/-- What is written for a character stands for it. -/
theorem QuotedAs.unescape_append (quoted : QuotedAs mark c chars) (rest : List Char) :
    unescapeFrom? 0 (chars ++ rest) = (unescapeFrom? 0 rest).map (c :: ·) := by
  cases quoted with
  | plain other no_escape line => rw [List.singleton_append, unescapeFrom?, if_neg no_escape]
  | short d line means => exact unescapeFrom?_escape (means rest)
  | coded a b digits means =>
    have escape_eq : escape? ('x' :: a :: b :: rest) = some ([c], 3) := by
      simp [escape?, codedEscape?, means]
    exact unescapeFrom?_escape escape_eq

end

theorem rawBody?_quoted {mark : Char} (quote : isQuote mark = true) (text rest : List Char) :
    rawBody? mark false (text.flatMap (quotedChar mark) ++ mark :: rest) =
      some (text.flatMap (quotedChar mark), rest) := by
  have backslash : mark ≠ '\\' := ne_of_kind quote rfl
  have no_break : breaksLine mark = false := by
    rcases quote_cases quote with rfl | rfl <;> rfl
  induction text with
  | nil => simp [rawBody?, no_break]
  | cons c text ih =>
    rw [List.flatMap_cons, List.append_assoc,
      (quotedAs_quotedChar quote c).rawBody?_append backslash, ih, Option.map_some]

theorem unescape?_quoted {mark : Char} (quote : isQuote mark = true) (text : List Char) :
    unescape? (text.flatMap (quotedChar mark)) = some text := by
  unfold unescape?
  induction text with
  | nil => rfl
  | cons c text ih =>
    rw [List.flatMap_cons, (quotedAs_quotedChar quote c).unescape_append, ih, Option.map_some]

theorem enclose_escape (mark : Char) (text : List Char) :
    enclose mark (escape text) = mark :: (text.flatMap (quotedChar mark) ++ [mark]) := by
  rw [enclose, escape, List.flatMap_assoc]
  rfl

theorem isQuote_chooseQuote (preferDouble : Bool) (body : List Char) :
    isQuote (chooseQuote preferDouble body) = true := by
  unfold chooseQuote
  dsimp only
  split_ifs <;> rfl

/-- A text that does not start with a character of the kind. -/
def StartsWithout (kind : Char → Bool) (text : List Char) : Prop :=
  ∀ c, text.head? = some c → kind c = false

theorem startsWithout_nil (kind : Char → Bool) : StartsWithout kind [] :=
  fun _ absent => by cases absent

theorem startsWithout_cons {kind : Char → Bool} {c : Char} (other : kind c = false)
    (rest : List Char) : StartsWithout kind (c :: rest) :=
  fun _ same => Option.some.inj same ▸ other

theorem dropWhile_of_startsWithout {kind : Char → Bool} {text : List Char}
    (apart : StartsWithout kind text) : text.dropWhile kind = text := by
  cases text with
  | nil => rfl
  | cons c text => exact List.dropWhile_cons_of_neg (Bool.eq_false_iff.mp (apart c rfl))

theorem StartsWithout.append {kind : Char → Bool} {text : List Char}
    (apart : StartsWithout kind text) (nonempty : text ≠ []) (rest : List Char) :
    StartsWithout kind (text ++ rest) := by
  cases text with
  | nil => exact absurd rfl nonempty
  | cons c text => exact startsWithout_cons (apart c rfl) _

theorem QuotedAs.head_ne {mark c : Char} {chars : List Char} (quoted : QuotedAs mark c chars)
    (backslash : mark ≠ '\\') : ∃ first rest, chars = first :: rest ∧ mark ≠ first := by
  cases quoted with
  | plain other no_escape line => exact ⟨c, [], rfl, other.symm⟩
  | short d line means => exact ⟨_, _, rfl, backslash⟩
  | coded a b digits means => exact ⟨_, _, rfl, backslash⟩

/-- The quotes of the empty literal are followed by no third one, and no other literal starts with
two of them. -/
theorem not_three_quotes {mark : Char} (quote : isQuote mark = true) (text : List Char)
    {rest : List Char} (apart : StartsWithout isQuote rest) :
    [mark, mark].isPrefixOf (text.flatMap (quotedChar mark) ++ mark :: rest) = false := by
  have backslash : mark ≠ '\\' := ne_of_kind quote rfl
  cases text with
  | nil =>
    cases rest with
    | nil => simp [List.isPrefixOf]
    | cons first rest =>
      have other : mark ≠ first := ne_of_kind quote (apart first rfl)
      simp [List.isPrefixOf, other]
  | cons c text =>
    obtain ⟨first, more, same, other⟩ := (quotedAs_quotedChar quote c).head_ne backslash
    simp [same, List.isPrefixOf, other]

/-- A quoted text reads back, in front of anything but another quote. -/
theorem readString?_quoteEscaped (preferDouble : Bool) (text : List Char) {rest : List Char}
    (apart : StartsWithout isQuote rest) :
    readString? (quoteEscaped preferDouble (escape text) ++ rest) = some (text, rest) := by
  have quote := isQuote_chooseQuote preferDouble (escape text)
  rw [quoteEscaped, enclose_escape, List.cons_append, List.append_assoc, List.singleton_append,
    readString?, if_pos quote, not_three_quotes quote text apart, if_neg Bool.false_ne_true,
    rawBody?_quoted quote]
  simp [unescape?_quoted quote]

theorem literalText?_quote (preferDouble : Bool) (text : String) :
    literalText? (quote preferDouble text) = some text := by
  have read := readString?_quoteEscaped preferDouble text.toList (startsWithout_nil _)
  rw [List.append_nil] at read
  rw [literalText?, quote, String.toList_ofList, quoteChars, read]
  exact congrArg some (String.ofList_toList)

theorem startsWithout_of_skip {kind : Char → Bool} (solid : ∀ c, kind c = true → isSpace c = false)
    {rest : List Char} (apart : StartsWithout kind (skip rest)) : StartsWithout kind rest := by
  cases rest with
  | nil => exact startsWithout_nil kind
  | cons c rest =>
    by_cases same : kind c = true
    · have here : skip (c :: rest) = c :: rest := by simp [skip, solid c same]
      rwa [here] at apart
    · exact startsWithout_cons (Bool.eq_false_iff.mpr same) rest

theorem space_cases {c : Char} (space : isSpace c = true) :
    c = ' ' ∨ c = '\t' ∨ c = '\n' ∨ c = '\r' ∨ c = '\x0c' := by
  simpa only [isSpace, Bool.or_eq_true, decide_eq_true_eq, or_assoc] using space

theorem isSpace_of_isQuote {c : Char} (quote : isQuote c = true) : isSpace c = false := by
  rcases quote_cases quote with rfl | rfl <;> rfl

def Blank (text : List Char) : Prop := ∀ c ∈ text, isSpace c = true

theorem skip_space (rest : List Char) : skip (' ' :: rest) = skip rest := rfl

theorem blank_nil : Blank [] := fun _ absent => by cases absent

theorem skip_blank {blanks : List Char} (blank : Blank blanks) (rest : List Char) :
    skip (blanks ++ rest) = skip rest := List.dropWhile_append_of_pos blank

theorem Blank.append {first second : List Char} (left : Blank first) (right : Blank second) :
    Blank (first ++ second) := List.forall_mem_append.mpr ⟨left, right⟩

theorem blank_replicate (n : Nat) : Blank (List.replicate n ' ') :=
  fun _ inside => List.eq_of_mem_replicate inside ▸ rfl

/-- Behind a quoted text and blanks, another literal goes on with the text. -/
theorem readStrings?_cons (preferDouble : Bool) (text : List Char) {rest : List Char}
    (apart : StartsWithout isQuote rest) (more : (skip rest).head?.any isQuote = true)
    (fuel : Nat) :
    readStrings? (fuel + 1) (quoteEscaped preferDouble (escape text) ++ rest) =
      (readStrings? fuel (skip rest)).map fun (more, after) => (text ++ more, after) := by
  rw [readStrings?, readString?_quoteEscaped preferDouble text apart]
  exact if_pos more

theorem readStrings?_quoteEscaped (preferDouble : Bool) (text : List Char) {rest : List Char}
    (apart : StartsWithout isQuote (skip rest)) (fuel : Nat) :
    readStrings? (fuel + 1) (quoteEscaped preferDouble (escape text) ++ rest) =
      some (text, rest) := by
  have behind := startsWithout_of_skip (fun _ => isSpace_of_isQuote) apart
  have no_more : (skip rest).head?.any isQuote = false := by
    rw [Option.any_eq_false_iff_get]
    exact fun some => apart _ (Option.some_get some).symm
  rw [readStrings?, readString?_quoteEscaped preferDouble text behind]
  simp [no_more]

theorem QuotedAs.line {mark c : Char} {chars : List Char} (quoted : QuotedAs mark c chars) :
    ∀ d ∈ chars, breaksLine d = false := by
  cases quoted with
  | plain other no_escape line => simpa using line
  | short d line means => simpa using ⟨rfl, line⟩
  | coded a b digits means =>
    have plain : ∀ d ∈ [a, b], breaksLine d = false := fun d inside => (digits d inside).2.2
    exact List.forall_mem_cons.mpr ⟨rfl, List.forall_mem_cons.mpr ⟨rfl, plain⟩⟩

/-- A quoted text stands on one line. -/
theorem line_quoteEscaped (preferDouble : Bool) (text : List Char) :
    ∀ c ∈ quoteEscaped preferDouble (escape text), breaksLine c = false := by
  have quote := isQuote_chooseQuote preferDouble (escape text)
  have no_break : breaksLine (chooseQuote preferDouble (escape text)) = false := by
    rcases quote_cases quote with same | same <;> rw [same] <;> rfl
  rw [quoteEscaped, enclose_escape]
  refine List.forall_mem_cons.mpr ⟨no_break, List.forall_mem_append.mpr
    ⟨?_, List.forall_mem_singleton.mpr no_break⟩⟩
  intro d inside
  obtain ⟨c, -, inside⟩ := List.mem_flatMap.mp inside
  exact (quotedAs_quotedChar quote c).line d inside

end ResourceModels.Code

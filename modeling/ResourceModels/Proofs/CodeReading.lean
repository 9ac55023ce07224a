import Mathlib
import ResourceModels.Proofs.CallReading
import ResourceModels.Proofs.Sameness

/-!
# What source shows beside its literals

Names are read from code, and what stands in literals is none. A reader that keeps track of brackets
and literals leaves the literals out and joins the lines of a bracket (`codeFrom`). What it sees of
a text does not depend on where the text stands, as long as the brackets in it are closed, so the
code of a whole module is put together from the code of its parts (`Shows`).
-/

namespace ResourceModels.Code

/-- What is seen of a character: nothing of literals, and a line break in brackets as a blank. -/
def Scope.seen (scope : Scope) (c : Char) : List Char :=
  if !scope.place.isCode || isQuote c then []
  else if c = '\n' && !scope.closers.isEmpty then [' ']
  else [c]

/-- The code in a text, if the text ends outside all brackets and literals. -/
def codeFrom : Scope → List Char → Option (List Char)
  | scope, [] => if scope.isOutside then some [] else none
  | scope, c :: rest => (scope.step c).bind fun next => (codeFrom next rest).map (scope.seen c ++ ·)

/-- The lines of code in a text. What stands in brackets belongs to the line of the bracket. -/
def codeLines? (text : String) : Option (List (List Char)) :=
  (codeFrom .start text.toList).map (Text.pieces (· = '\n'))

/-- Literals are left out, and lines in brackets are joined. -/
example : codeLines? "a = (\n'b' [c,\nd])\ne" =
    some ["a = (  [c, d])".toList, "e".toList] := by
  decide

theorem codeFrom_cons {scope next : Scope} {c : Char} (goes : scope.step c = some next)
    (rest : List Char) :
    codeFrom scope (c :: rest) = (codeFrom next rest).map (scope.seen c ++ ·) := by
  rw [codeFrom, goes, Option.bind_some]

theorem map_append_nil (result : Option (List Char)) : result.map ([] ++ ·) = result := by
  cases result <;> rfl

theorem map_append_append (first second : List Char) (result : Option (List Char)) :
    (result.map (second ++ ·)).map (first ++ ·) = result.map ((first ++ second) ++ ·) := by
  cases result <;> simp

/-- Nothing is seen of the inside of a literal. -/
theorem codeFrom_crosses {first last : Scope} {chars : List Char}
    (crosses : first.Crosses chars last) (rest : List Char) :
    codeFrom first (chars ++ rest) = codeFrom last rest := by
  induction crosses with
  | done => rfl
  | step inside goes _ ih =>
    rw [List.cons_append, codeFrom_cons goes, ih, Scope.seen, inside]
    exact map_append_nil _

/-- Behind two quotes, nothing but a third one tells the place from code. -/
theorem codeFrom_emptied {closers : List Char} (mark : Mark) {rest : List Char}
    (apart : StartsWithout isQuote rest) :
    codeFrom ⟨closers, .emptied mark⟩ rest = codeFrom ⟨closers, .code⟩ rest := by
  cases rest with
  | nil => rfl
  | cons c rest =>
    have other : c ≠ mark.val := (ne_of_kind mark.property (apart c rfl)).symm
    have same : Scope.step ⟨closers, .emptied mark⟩ c = Scope.step ⟨closers, .code⟩ c :=
      if_neg other
    rw [codeFrom, codeFrom, same]
    rfl

/-- Wherever the text stands in code, or wherever it stands enclosed in brackets, `code` is seen of
it, no matter what comes behind it. -/
def Passes (enclosed : Bool) (text code : List Char) : Prop :=
  ∀ closers, (enclosed = true → closers ≠ []) → ∀ rest,
    codeFrom ⟨closers, .code⟩ (text ++ rest) = (codeFrom ⟨closers, .code⟩ rest).map (code ++ ·)

/-- As `Passes`, in front of anything but a quote. -/
def Shows (enclosed : Bool) (text code : List Char) : Prop :=
  ∀ closers, (enclosed = true → closers ≠ []) → ∀ rest, StartsWithout isQuote rest →
    codeFrom ⟨closers, .code⟩ (text ++ rest) = (codeFrom ⟨closers, .code⟩ rest).map (code ++ ·)

section

variable {enclosed : Bool} {first second text code more : List Char}

theorem Passes.shows (passes : Passes enclosed text code) : Shows enclosed text code :=
  fun closers inside rest _ => passes closers inside rest

/-- What may stand anywhere may stand in brackets. -/
theorem Shows.anywhere (shows : Shows false text code) : Shows enclosed text code :=
  fun closers _ => shows closers Bool.false_ne_true.elim

theorem Passes.anywhere (passes : Passes false text code) : Passes enclosed text code :=
  fun closers _ => passes closers Bool.false_ne_true.elim

theorem Passes.append (left : Passes enclosed first code) (right : Passes enclosed second more) :
    Passes enclosed (first ++ second) (code ++ more) := by
  intro closers inside rest
  rw [List.append_assoc, left closers inside, right closers inside, map_append_append]

theorem Passes.append_shows (left : Passes enclosed first code)
    (right : Shows enclosed second more) : Shows enclosed (first ++ second) (code ++ more) := by
  intro closers inside rest apart
  rw [List.append_assoc, left closers inside, right closers inside rest apart, map_append_append]

theorem Shows.append (left : Shows enclosed first code) (right : Shows enclosed second more)
    (no_quote : StartsWithout isQuote second) :
    Shows enclosed (first ++ second) (code ++ more) := by
  intro closers inside rest apart
  have behind : StartsWithout isQuote (second ++ rest) := by
    by_cases nothing : second = []
    · simpa [nothing] using apart
    · exact no_quote.append nothing rest
  rw [List.append_assoc, left closers inside _ behind, right closers inside rest apart,
    map_append_append]

theorem passes_nil : Passes enclosed [] [] := by
  intro closers _ rest
  exact (map_append_nil _).symm

/-- A text on one line with nothing special in it is seen as it stands. -/
theorem passes_inert (inert : Inert (· = '\n') text) : Passes enclosed text text := by
  intro closers _ rest
  induction text with
  | nil => exact (map_append_nil _).symm
  | cons c text ih =>
    obtain ⟨⟨no_break, stays⟩, later⟩ := List.forall_mem_cons.mp inert
    have no_quote : isQuote c = false := by
      by_contra quote
      rw [Bool.not_eq_false] at quote
      have opens : stepCode closers c = some ⟨closers, .opened ⟨c, quote⟩⟩ := dif_pos quote
      cases opens.symm.trans (stays closers)
    have whole : Scope.seen ⟨closers, .code⟩ c = [c] := by
      simp [Scope.seen, Place.isCode, no_quote, of_decide_eq_false no_break]
    have goes : Scope.step ⟨closers, .code⟩ c = some ⟨closers, .code⟩ := stays closers
    rw [List.cons_append, codeFrom_cons goes, ih later, whole, map_append_append]
    rfl

/-- In brackets, a line break is seen as a blank. -/
theorem passes_break : Passes true ['\n'] [' '] := by
  intro closers inside rest
  have seen : Scope.seen ⟨closers, .code⟩ '\n' = [' '] := by
    simp [Scope.seen, Place.isCode, isQuote, inside rfl]
  have goes : Scope.step ⟨closers, .code⟩ '\n' = some ⟨closers, .code⟩ := rfl
  rw [List.singleton_append, codeFrom_cons goes, seen]

/-- What stands in brackets is seen with them. -/
theorem Shows.brackets {opening close : Char} (pair : closer? opening = some close)
    (shows : Shows true text code) :
    Passes enclosed (opening :: (text ++ [close])) (opening :: (code ++ [close])) := by
  intro closers _ rest
  have cases : (opening = '(' ∧ close = ')') ∨ (opening = '[' ∧ close = ']') ∨
      (opening = '{' ∧ close = '}') := by
    unfold closer? at pair
    split_ifs at pair with round square curly
    · exact .inl ⟨round, (Option.some.inj pair).symm⟩
    · exact .inr (.inl ⟨square, (Option.some.inj pair).symm⟩)
    · exact .inr (.inr ⟨curly, (Option.some.inj pair).symm⟩)
  have opens : Scope.step ⟨closers, .code⟩ opening = some ⟨close :: closers, .code⟩ := by
    rcases cases with ⟨rfl, rfl⟩ | ⟨rfl, rfl⟩ | ⟨rfl, rfl⟩ <;> rfl
  have closes : Scope.step ⟨close :: closers, .code⟩ close = some ⟨closers, .code⟩ := by
    rcases cases with ⟨rfl, rfl⟩ | ⟨rfl, rfl⟩ | ⟨rfl, rfl⟩ <;> rfl
  have seen : Scope.seen ⟨closers, .code⟩ opening = [opening] ∧
      Scope.seen ⟨close :: closers, .code⟩ close = [close] := by
    rcases cases with ⟨rfl, rfl⟩ | ⟨rfl, rfl⟩ | ⟨rfl, rfl⟩ <;> exact ⟨rfl, rfl⟩
  have no_quote : StartsWithout isQuote (close :: rest) := by
    rcases cases with ⟨-, rfl⟩ | ⟨-, rfl⟩ | ⟨-, rfl⟩ <;> exact startsWithout_cons rfl rest
  rw [List.cons_append, List.append_assoc, List.singleton_append, codeFrom_cons opens,
    shows _ (fun _ => List.cons_ne_nil close closers) _ no_quote, codeFrom_cons closes, seen.1,
    seen.2, map_append_append, map_append_append]
  simp

/-- Nothing is seen of a literal. -/
theorem shows_literal (preferDouble : Bool) (content : List Char) :
    Shows enclosed (quoteEscaped preferDouble (escape content)) [] := by
  intro closers _ rest apart
  have quote := isQuote_chooseQuote preferDouble (escape content)
  rw [quoteEscaped, enclose_escape]
  generalize chooseQuote preferDouble (escape content) = mark at quote
  have opens : Scope.step ⟨closers, .code⟩ mark = some ⟨closers, .opened ⟨mark, quote⟩⟩ :=
    dif_pos quote
  have unseen : Scope.seen ⟨closers, .code⟩ mark = [] := by
    simp [Scope.seen, quote]
  obtain ⟨place, outside, crosses⟩ := crosses_literal ⟨mark, quote⟩ content
  have behind : codeFrom ⟨closers, place⟩ rest = codeFrom ⟨closers, .code⟩ rest := by
    rcases outside with rfl | rfl
    · rfl
    · exact codeFrom_emptied _ apart
  rw [List.cons_append, codeFrom_cons opens, codeFrom_crosses (crosses closers), behind, unseen]

end

/-- What holds of texts holds of all of them joined by commas. -/
theorem intercalate_induction (holds : List Char → Prop) (nothing : holds [])
    (joined : ∀ text rest, holds text → holds rest → holds (text ++ ([',', ' '] ++ rest)))
    {texts : List (List Char)} (each : ∀ text ∈ texts, holds text) :
    holds ([',', ' '].intercalate texts) := by
  induction texts with
  | nil => exact nothing
  | cons text texts ih =>
    obtain ⟨here, later⟩ := List.forall_mem_cons.mp each
    cases texts with
    | nil => simpa using here
    | cons next texts =>
      rw [List.intercalate_cons_cons, List.append_assoc]
      exact joined text _ here (ih later)

theorem kind_intercalate {kind : Char → Bool} (comma : kind ',' = true) (blank : kind ' ' = true)
    {texts : List (List Char)} (each : ∀ text ∈ texts, ∀ c ∈ text, kind c = true) :
    ∀ c ∈ [',', ' '].intercalate texts, kind c = true := by
  apply intercalate_induction (fun text => ∀ c ∈ text, kind c = true) _ _ each
  · simp
  · intro text rest here later
    simpa [or_imp, forall_and, comma, blank] using ⟨here, later⟩

/-- Code on one line, without a parenthesis that opens. -/
def Mute (code : List Char) : Prop := ∀ c ∈ code, c ≠ '(' ∧ c ≠ '\n'

theorem Mute.no_paren {code : List Char} (mute : Mute code) : '(' ∉ code :=
  fun inside => (mute _ inside).1 rfl

theorem Mute.no_break {code : List Char} (mute : Mute code) : '\n' ∉ code :=
  fun inside => (mute _ inside).2 rfl

theorem Mute.append {code more : List Char} (left : Mute code) (right : Mute more) :
    Mute (code ++ more) :=
  List.forall_mem_append.mpr ⟨left, right⟩

/-- Code of the text is mute, so nothing is called in it. -/
def Silent (enclosed : Bool) (text : List Char) : Prop :=
  ∃ code, Mute code ∧ Shows enclosed text code

theorem Inert.mute {text : List Char} (inert : Inert (· = '\n') text) : Mute text := by
  intro c inside
  obtain ⟨no_break, stays⟩ := inert c inside
  refine ⟨?_, of_decide_eq_false no_break⟩
  rintro rfl
  cases stays []

/-- A text of a kind of characters that are all ordinary ones within a line. -/
theorem inert_line (kind : Char → Bool) (ordinary : ('\n' :: special).any kind = false)
    {text : List Char} (each : ∀ c ∈ text, kind c = true) : Inert (· = '\n') text := by
  rw [List.any_cons, Bool.or_eq_false_iff] at ordinary
  apply inert_of_kind ordinary.2 _ each
  intro c inside
  exact decide_eq_false (ne_of_kind inside ordinary.1)

theorem inert_comma : Inert (· = '\n') [',', ' '] :=
  inert_line (fun c => c = ',' || c = ' ') rfl (by simp)

theorem inert_colon : Inert (· = '\n') [':', ' '] :=
  inert_line (fun c => c = ':' || c = ' ') rfl (by simp)

theorem inert_blanks (count : Nat) : Inert (· = '\n') (List.replicate count ' ') :=
  inert_line (· = ' ') rfl (by simp +contextual [List.mem_replicate])

namespace Silent

variable {enclosed : Bool} {first second text : List Char}

theorem of_inert (inert : Inert (· = '\n') text) : Silent enclosed text :=
  ⟨text, inert.mute, (passes_inert inert).shows⟩

theorem literal (preferDouble : Bool) (content : List Char) :
    Silent enclosed (quoteEscaped preferDouble (escape content)) :=
  ⟨[], by simp [Mute], shows_literal preferDouble content⟩

theorem anywhere (silent : Silent false text) : Silent enclosed text := by
  obtain ⟨code, mute, shows⟩ := silent
  exact ⟨code, mute, shows.anywhere⟩

theorem append (left : Silent enclosed first) (right : Silent enclosed second)
    (no_quote : StartsWithout isQuote second) : Silent enclosed (first ++ second) := by
  obtain ⟨code, code_mute, shows⟩ := left
  obtain ⟨more, more_mute, shows_more⟩ := right
  exact ⟨code ++ more, code_mute.append more_mute, shows.append shows_more no_quote⟩

theorem passes_append {code : List Char} (mute : Mute code) (left : Passes enclosed first code)
    (right : Silent enclosed second) : Silent enclosed (first ++ second) := by
  obtain ⟨more, more_mute, shows⟩ := right
  exact ⟨code ++ more, mute.append more_mute, left.append_shows shows⟩

theorem inert_append (inert : Inert (· = '\n') first) (right : Silent enclosed second) :
    Silent enclosed (first ++ second) :=
  passes_append inert.mute (passes_inert inert) right

theorem brackets {opening close : Char} (pair : closer? opening = some close)
    (square : opening ≠ '(') (inner : Silent true text) :
    Silent enclosed (opening :: (text ++ [close])) := by
  obtain ⟨code, mute, shows⟩ := inner
  refine ⟨opening :: (code ++ [close]), ?_, (shows.brackets pair).shows⟩
  unfold closer? at pair
  unfold Mute at *
  grind

theorem intercalate {texts : List (List Char)} (each : ∀ text ∈ texts, Silent enclosed text) :
    Silent enclosed ([',', ' '].intercalate texts) := by
  apply intercalate_induction (Silent enclosed) (of_inert (by simp [Inert])) _ each
  intro text rest here later
  exact here.append (inert_append inert_comma later) (startsWithout_cons rfl _)

end Silent

theorem silent_number (number : Number) : Silent false number.text := by
  have characters := fun c inside => isNumberChar_of_isNumber (isNumber_text number) c inside
  exact .of_inert (inert_line isNumberChar rfl characters)

/-- The source of a value is silent, whatever texts are in it. -/
theorem silent_valueChars (preferDouble : Bool) (json : Json) :
    Silent false (valueChars preferDouble json) := by
  have name : ∀ {text : List Char}, text.all continuesIdentifier = true → Silent false text :=
    fun word => .of_inert (inert_line continuesIdentifier rfl (List.all_eq_true.mp word))
  induction json with
  | null => exact name rfl
  | bool value => cases value <;> exact name rfl
  | number value => exact silent_number value
  | string text => exact .literal preferDouble text.toList
  | array items ih =>
    rw [valueChars, Literal.itemChars_eq]
    apply Silent.brackets rfl (by decide)
    apply Silent.intercalate
    intro source listed
    obtain ⟨item, inside, rfl⟩ := List.mem_map.mp listed
    exact (ih item inside).anywhere
  | object members ih =>
    rw [valueChars, Literal.memberChars_eq]
    apply Silent.brackets rfl (by decide)
    apply Silent.intercalate
    intro source listed
    obtain ⟨member, inside, rfl⟩ := List.mem_map.mp listed
    apply Silent.append (.literal preferDouble member.1.toList)
    · exact .inert_append inert_colon (ih member inside).anywhere
    · exact startsWithout_cons rfl _

end ResourceModels.Code

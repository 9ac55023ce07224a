import Mathlib
import ResourceModels.Proofs.SplitLiterals

/-!
# Widths of split literals

A text is escaped, cut to the width, and put in quotes. A cut is as far right as the width allows,
or else it comes as soon as possible (`splitBody_cut`). It leaves room for two quotes, but not for
the backslashes that the piece gets afterwards, one before every quote of the kind it has fewer of.
So a literal that could be cut once more is too wide exactly when these are more than the columns
that its piece leaves (`keepsWidth_iff`). It then has quotes of both kinds
(`keepsWidth_of_one_kind`).
-/

namespace ResourceModels.Code

variable {width place i : Nat} {body content : List Char}

/-- Whether the start of an escaped text could be cut once more, as far as the text goes. -/
def HasBreak (content rest : List Char) : Prop :=
  ∃ i, 1 ≤ i ∧ i < content.length ∧ Usable rest i

theorem Usable.lt_length (usable : Usable body i) : i < body.length :=
  (List.getElem?_eq_some_iff.mp usable.1).1

theorem mem_breaks : i ∈ breaks body ↔ 1 ≤ i ∧ Usable body i := by
  rw [breaks_eq, List.mem_filter, List.Ico.mem, decide_eq_true_eq, and_assoc]
  exact and_congr_right fun _ => and_iff_right_of_imp Usable.lt_length

theorem pairwise_breaks (body : List Char) : (breaks body).Pairwise (· < ·) := by
  rw [breaks_eq]
  exact (List.Ico.pairwise_lt 1 body.length).filter _

theorem breaks_eq_nil (absent : breakAt? width body = none) : breaks body = [] := by
  unfold breakAt? at absent
  dsimp only at absent
  split at absent
  next => cases absent
  next none_within =>
    simp only [List.getLast?_eq_none_iff, List.filter_eq_nil_iff, decide_eq_true_eq,
      Nat.not_le] at none_within
    rw [List.find?_eq_none] at absent
    refine List.eq_nil_iff_forall_not_mem.mpr fun i listed => ?_
    exact absent i listed (decide_eq_true (none_within i listed))

/-- A cut is at the last break within the width, or else at the first one of all. -/
theorem breakAt?_cases (found : breakAt? width body = some place) :
    (place ≤ width ∧ ∀ i ∈ breaks body, i ≤ width → i ≤ place) ∨
      (width < place ∧ ∀ i ∈ breaks body, place ≤ i) := by
  have sorted := pairwise_breaks body
  unfold breakAt? at found
  dsimp only at found
  split at found
  next last among =>
    cases found
    obtain ⟨before, among⟩ := List.getLast?_eq_some_iff.mp among
    replace sorted := sorted.filter (fun i => decide (i ≤ width))
    have listed_iff : ∀ i, i ∈ before ++ [place] ↔ i ∈ breaks body ∧ i ≤ width := by
      intro i
      rw [← among, List.mem_filter, decide_eq_true_eq]
    rw [among, List.pairwise_append] at sorted
    refine .inl ⟨((listed_iff place).mp (by simp)).2, fun i listed fits => ?_⟩
    rcases List.mem_append.mp ((listed_iff i).mpr ⟨listed, fits⟩) with earlier | same
    · exact Nat.le_of_lt (sorted.2.2 i earlier place (List.mem_singleton_self place))
    · exact Nat.le_of_eq (List.mem_singleton.mp same)
  next none_within =>
    simp only [List.getLast?_eq_none_iff, List.filter_eq_nil_iff, decide_eq_true_eq,
      Nat.not_le] at none_within
    obtain ⟨beyond, before, after, split, earlier_within⟩ :=
      List.find?_eq_some_iff_append.mp found
    rw [split, List.pairwise_append, List.pairwise_cons] at sorted
    refine .inr ⟨of_decide_eq_true beyond, fun i listed => ?_⟩
    have wide := none_within i listed
    rw [split, List.mem_append, List.mem_cons] at listed
    rcases listed with earlier | rfl | later
    · have narrow := earlier_within i earlier
      rw [decide_eq_true wide] at narrow
      cases narrow
    · exact le_rfl
    · exact Nat.le_of_lt (sorted.2.1.1 i later)

/-- How much of an escaped text is cut off for one literal. -/
structure Cut (width : Nat) (content rest : List Char) : Prop where
  starts : content <+: rest
  /-- What fits is not cut. -/
  whole : rest.length ≤ width → content = rest
  /-- A cut is before a space, and not close to the end. -/
  at_break : content = rest ∨ (1 ≤ content.length ∧ Usable rest content.length)
  /-- No later cut would keep within the width. -/
  last : ∀ i, content.length < i → i ≤ width → ¬ Usable rest i
  /-- Only what could not be cut earlier goes beyond the width. -/
  fits : HasBreak content rest → content.length ≤ width

/-- What could be cut once more fits between two quotes. -/
theorem Cut.add_two_le {maxWidth : Nat} {rest : List Char} (cut : Cut (maxWidth - 2) content rest)
    (has_break : HasBreak content rest) : content.length + 2 ≤ maxWidth := by
  have fits := cut.fits has_break
  obtain ⟨i, positive, inside, -⟩ := has_break
  omega

theorem Cut.uncut (fits : HasBreak body body → body.length ≤ width) : Cut width body body where
  starts := List.prefix_refl body
  whole _ := rfl
  at_break := .inl rfl
  last _ beyond _ usable := absurd usable.lt_length (Nat.lt_asymm beyond)
  fits := fits

theorem Cut.take (long : width < body.length) (found : breakAt? width body = some place) :
    Cut width (body.take place) body := by
  obtain ⟨positive, usable⟩ := breakAt?_spec found
  have length_eq : (body.take place).length = place :=
    List.length_take_of_le (Nat.le_of_lt usable.lt_length)
  refine ⟨List.take_prefix place body, ?_, ?_, ?_, ?_⟩
  · exact fun short => absurd short (Nat.not_le_of_lt long)
  · exact .inr (length_eq.symm ▸ ⟨positive, usable⟩)
  · intro i beyond within later
    rw [length_eq] at beyond
    have listed := mem_breaks.mpr ⟨positive.trans (Nat.le_of_lt beyond), later⟩
    rcases breakAt?_cases found with ⟨-, last⟩ | ⟨wide, -⟩
    · exact absurd (last i listed within) (Nat.not_le_of_lt beyond)
    · omega
  · rintro ⟨i, positive, inside, earlier⟩
    rw [length_eq] at inside ⊢
    rcases breakAt?_cases found with ⟨within, -⟩ | ⟨-, first⟩
    · exact within
    · exact absurd (first i (mem_breaks.mpr ⟨positive, earlier⟩)) (Nat.not_le_of_lt inside)

/-- A text is one piece, or a first piece and the pieces of the rest. -/
theorem splitBody_cases (width : Nat) (body : List Char) :
    (Cut width body body ∧ splitBody width body = [body]) ∨
      ∃ place, 1 ≤ place ∧ place < body.length ∧ Cut width (body.take place) body ∧
        splitBody width body = body.take place :: splitBody width (body.drop place) := by
  rw [splitBody]
  split_ifs with short
  · exact .inl ⟨.uncut fun _ => short, rfl⟩
  · have long := Nat.lt_of_not_le short
    cases found : breakAt? width body with
    | none =>
      refine .inl ⟨.uncut ?_, rfl⟩
      rintro ⟨i, positive, -, usable⟩
      exact absurd (mem_breaks.mpr ⟨positive, usable⟩) (breaks_eq_nil found ▸ List.not_mem_nil)
    | some place =>
      obtain ⟨positive, usable⟩ := breakAt?_spec found
      obtain ⟨before, rfl⟩ := Nat.exists_eq_add_of_le' positive
      exact .inr ⟨before + 1, positive, usable.lt_length, .take long found, rfl⟩

theorem flatten_splitBody (width : Nat) (body : List Char) :
    (splitBody width body).flatten = body := by
  obtain ⟨-, pieces_eq⟩ | ⟨place, positive, inside, -, pieces_eq⟩ := splitBody_cases width body
  · rw [pieces_eq, List.flatten_singleton]
  · rw [pieces_eq, List.flatten_cons, flatten_splitBody width (body.drop place),
      List.take_append_drop]
termination_by body.length
decreasing_by simp only [List.length_drop]; omega

/-- Every piece is cut off the text from its start on. -/
theorem splitBody_cut (width : Nat) (body : List Char) {later : List (List Char)}
    (listed : content :: later <:+ splitBody width body) :
    Cut width content (content :: later).flatten := by
  obtain ⟨cut, pieces_eq⟩ | ⟨place, positive, inside, cut, pieces_eq⟩ := splitBody_cases width body
  · rw [pieces_eq, List.suffix_cons_iff, List.suffix_nil] at listed
    obtain same | impossible := listed
    · obtain ⟨rfl, rfl⟩ := List.cons.inj same
      rwa [List.flatten_singleton]
    · cases impossible
  · rw [pieces_eq, List.suffix_cons_iff] at listed
    obtain same | further := listed
    · obtain ⟨rfl, rfl⟩ := List.cons.inj same
      rwa [List.flatten_cons, flatten_splitBody, List.take_append_drop]
    · exact splitBody_cut width (body.drop place) further
termination_by body.length
decreasing_by simp only [List.length_drop]; omega

/-- How many quotes a text has of the kind that it has fewer of. -/
def rarerQuotes (body : List Char) : Nat := min (body.count '"') (body.count '\'')

/-- Whichever kind is preferred, the quotes that are escaped are the rarer ones. -/
theorem count_chooseQuote (preferDouble : Bool) (body : List Char) :
    body.count (chooseQuote preferDouble body) = rarerQuotes body := by
  unfold chooseQuote rarerQuotes
  dsimp only
  split_ifs <;> omega

theorem length_enclose (mark : Char) (body : List Char) :
    (enclose mark body).length = body.length + 2 + body.count mark := by
  have inside : (body.flatMap fun c => if c = mark then ['\\', c] else [c]).length =
      body.length + body.count mark := by
    induction body with
    | nil => rfl
    | cons c body ih =>
      rw [List.flatMap_cons, List.length_append, ih, List.length_cons, List.count_cons]
      by_cases same : c = mark <;> simp [same] <;> omega
  rw [enclose, List.length_cons, List.length_append, inside, List.length_singleton]
  omega

theorem length_quoteEscaped (preferDouble : Bool) (body : List Char) :
    (quoteEscaped preferDouble body).length = body.length + 2 + rarerQuotes body := by
  rw [quoteEscaped, length_enclose, count_chooseQuote]

/-- Escaping brings no quotes with it. -/
theorem mem_of_mem_escape {mark : Char} (quote : isQuote mark = true) {text : List Char}
    (inside : mark ∈ escape text) : mark ∈ text := by
  obtain ⟨c, listed, written⟩ := List.mem_flatMap.mp inside
  have plain : isEscapeLetter mark = false := by
    rcases quote_cases quote with rfl | rfl <;> rfl
  exact eq_of_mem_escapeChar written plain ▸ listed

/-- The escaped text that literals hold together. -/
def held? (literals : List String) : Option (List Char) :=
  (literals.mapM literalText?).map fun texts => escape (String.join texts).toList

/-- A condition on every literal of a row, on what it holds, escaped, and on the escaped text from
there on. -/
def EachLiteral (meets : String → List Char → List Char → Prop) (literals : List String) : Prop :=
  ∀ literal later, literal :: later <:+ literals → ∃ content rest,
    held? [literal] = some content ∧ held? (literal :: later) = some rest ∧
      meets literal content rest

/-- Every literal is at most so wide, unless what it holds could not be cut. -/
def KeepsWidth (maxWidth : Nat) (literals : List String) : Prop :=
  EachLiteral (fun literal content rest => literal.length ≤ maxWidth ∨ ¬ HasBreak content rest)
    literals

theorem forall_suffix_map {α β : Type} {f : α → β} {items : List α}
    {holds : β → List β → Prop} :
    (∀ y later, y :: later <:+ items.map f → holds y later) ↔
      ∀ x later, x :: later <:+ items → holds (f x) (later.map f) := by
  constructor
  · exact fun each x later listed => each _ _ (listed.map f)
  · intro each y later listed
    obtain ⟨start, inside, same⟩ := List.suffix_map_iff.mp listed
    obtain ⟨x, more, rfl, rfl, rfl⟩ := List.map_eq_cons_iff.mp same.symm
    exact each x more inside

theorem held?_quoted (preferDouble : Bool) (parts : List (List Char)) :
    held? (parts.map fun part => quote preferDouble (String.ofList part)) =
      some (parts.map escape).flatten := by
  have read : (parts.map fun part => quote preferDouble (String.ofList part)).mapM literalText? =
      some (parts.map String.ofList) := by
    rw [List.mapM_map, Function.comp_def]
    simp only [literalText?_quote]
    exact List.mapM_pure
  have same_parts : String.toList ∘ String.ofList = id := funext fun _ => String.toList_ofList
  rw [held?, read, Option.map_some, String.join_eq, List.map_map, same_parts, List.map_id,
    String.toList_ofList, escape, ← List.flatMap_id', List.flatMap_assoc, List.flatMap_def]
  rfl

section

variable {preferDouble : Bool} {maxWidth : Nat} {text : String}

/-- The pieces of an escaped text are escaped texts, and the literals are these texts in quotes. -/
theorem splitLiteral_eq_map :
    ∃ parts : List (List Char), splitBody (maxWidth - 2) (escape text.toList) = parts.map escape ∧
      splitLiteral preferDouble maxWidth text =
        parts.map fun part => quote preferDouble (String.ofList part) := by
  obtain ⟨first, parts, pieces_eq, -⟩ := splitBody_escape (maxWidth - 2) text.toList
  refine ⟨first :: parts, pieces_eq, ?_⟩
  rw [splitLiteral, pieces_eq, List.map_map]
  refine List.map_congr_left fun part _ => ?_
  rw [quote, quoteChars, String.toList_ofList]
  rfl

theorem held?_splitLiteral :
    held? (splitLiteral preferDouble maxWidth text) = some (escape text.toList) := by
  obtain ⟨parts, pieces_eq, literals_eq⟩ := splitLiteral_eq_map
  rw [literals_eq, held?_quoted, ← pieces_eq, flatten_splitBody]

/-- Each literal holds a piece, and with those behind it the text from the piece on. -/
theorem eachLiteral_splitLiteral {meets : String → List Char → List Char → Prop} :
    EachLiteral meets (splitLiteral preferDouble maxWidth text) ↔
      ∀ content later, content :: later <:+ splitBody (maxWidth - 2) (escape text.toList) →
        meets (String.ofList (quoteEscaped preferDouble content)) content
          (content :: later).flatten := by
  obtain ⟨parts, pieces_eq, literals_eq⟩ := splitLiteral_eq_map
  rw [EachLiteral, literals_eq, pieces_eq, forall_suffix_map, forall_suffix_map]
  refine forall_congr' fun part => forall_congr' fun later => imp_congr_right fun _ => ?_
  have own := held?_quoted preferDouble [part]
  have onward := held?_quoted preferDouble (part :: later)
  rw [List.map_singleton, List.map_singleton, List.flatten_singleton] at own
  rw [List.map_cons, List.map_cons] at onward
  simp only [own, onward, Option.some.injEq, exists_and_left, exists_eq_left']
  rw [quote, quoteChars, String.toList_ofList]

theorem length_ofList_quoteEscaped (preferDouble : Bool) (body : List Char) :
    (String.ofList (quoteEscaped preferDouble body)).length =
      body.length + 2 + rarerQuotes body := by
  rw [String.length_ofList, length_quoteEscaped]

end

/-- Literals that hold a text, each cut where it fits between its two quotes. The quotes that are
escaped come on top. -/
structure CutUnquoted (maxWidth : Nat) (text : String) (literals : List String) : Prop where
  whole : held? literals = some (escape text.toList)
  each : EachLiteral (fun literal content rest => Cut (maxWidth - 2) content rest ∧
    literal.length = content.length + 2 + rarerQuotes content) literals

/-- How wide the literals of a text are, whatever the text, the width and the quotes that are
preferred. A literal that could be cut once more fits but for the quotes escaped in it, so the width
is kept exactly when these never are more than the columns that are left. -/
theorem keepsWidth_iff (preferDouble : Bool) (maxWidth : Nat) (text : String) :
    CutUnquoted maxWidth text (splitLiteral preferDouble maxWidth text) ∧
    (KeepsWidth maxWidth (splitLiteral preferDouble maxWidth text) ↔
      EachLiteral (fun _ content rest => HasBreak content rest →
          rarerQuotes content ≤ maxWidth - (content.length + 2))
        (splitLiteral preferDouble maxWidth text)) := by
  refine ⟨⟨held?_splitLiteral, eachLiteral_splitLiteral.mpr fun content later listed =>
    ⟨splitBody_cut _ _ listed, length_ofList_quoteEscaped preferDouble content⟩⟩, ?_⟩
  rw [KeepsWidth, eachLiteral_splitLiteral, eachLiteral_splitLiteral]
  refine forall_congr' fun content => forall_congr' fun later => imp_congr_right fun listed => ?_
  rw [length_ofList_quoteEscaped, or_comm, ← imp_iff_not_or]
  refine imp_congr_right fun has_break => ?_
  have room := (splitBody_cut _ _ listed).add_two_le has_break
  omega

/-- In a text without one kind of quotes there is none to escape, and the width is kept. -/
theorem keepsWidth_of_one_kind {mark : Char} (quote : isQuote mark = true) {text : String}
    (absent : mark ∉ text.toList) (preferDouble : Bool) (maxWidth : Nat) :
    KeepsWidth maxWidth (splitLiteral preferDouble maxWidth text) := by
  rw [KeepsWidth, eachLiteral_splitLiteral]
  intro content later listed
  have none_inside : content.count mark = 0 := by
    refine List.count_eq_zero.mpr fun inside => absent (mem_of_mem_escape quote ?_)
    rw [← flatten_splitBody (maxWidth - 2) (escape text.toList)]
    exact List.mem_flatten_of_mem (listed.subset List.mem_cons_self) inside
  have no_rarer : rarerQuotes content = 0 := by
    rcases quote_cases quote with rfl | rfl <;> simp [rarerQuotes, none_inside]
  rw [length_ofList_quoteEscaped, no_rarer]
  exact or_iff_not_imp_right.mpr fun has_break =>
    (splitBody_cut _ _ listed).add_two_le (not_not.mp has_break)

namespace EitherQuote

def text : String := "either \"a\" or 'b' is valid here"

def literals : List String := ["\"either \\\"a\\\" or 'b'\"", "\" is valid here\""]

/-- The first piece fits between two quotes. With two of its own escaped the literal is 21 columns
wide, although it could be cut before its last word. -/
theorem literal_too_wide : splitLiteral true 20 text = literals ∧
    ¬ KeepsWidth 20 (splitLiteral true 20 text) := by
  have split : splitLiteral true 20 text = literals := by decide +kernel
  refine ⟨split, fun keeps => ?_⟩
  rw [split] at keeps
  obtain ⟨content, rest, own, onward, narrow | no_break⟩ := keeps _ _ (List.suffix_refl literals)
  · exact absurd narrow (by decide +kernel)
  · have own_eq : held? [literals[0]] = some "either \"a\" or 'b'".toList := by decide +kernel
    have onward_eq : held? literals = some text.toList := by decide +kernel
    obtain rfl := Option.some.inj (own.symm.trans own_eq)
    obtain rfl := Option.some.inj (onward.symm.trans onward_eq)
    exact no_break ⟨13, by decide, by decide, by decide +kernel⟩

end EitherQuote

end ResourceModels.Code

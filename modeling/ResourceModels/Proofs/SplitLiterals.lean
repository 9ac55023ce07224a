import Mathlib
import ResourceModels.Proofs.StringLiterals

/-!
# Literals that are split

A text is cut after it is escaped. No escape has a space in it, so a cut before a space is a cut of
the text itself, and every piece is a piece of the text escaped. The literals of the pieces read
back as the pieces, which make up the text (`splitLiteral_joins`). The cuts are also found by their
positions, with every access and every difference checked: no access fails and every cut moves on,
so the search ends.
-/

namespace ResourceModels.Code

namespace Positions

/-- A difference that is not negative. -/
def sub? (a b : Nat) : Option Nat := if b ≤ a then some (a - b) else none

def from? (body : List Char) (start : Nat) : Option (List Char) :=
  if start ≤ body.length then some (body.drop start) else none

def upTo? (body : List Char) (stop : Nat) : Option (List Char) :=
  if stop ≤ body.length then some (body.take stop) else none

/-- Whether there is a space with enough text from there on. -/
def usable? (rest : List Char) (i : Nat) : Option Bool := do
  let c ← rest[i]?
  if c = ' ' then
    let left ← sub? rest.length i
    some (decide (leastTail ≤ left))
  else some false

def firstUsable? (rest : List Char) : List Nat → Option (Option Nat)
  | [] => some none
  | i :: more => do
    let here ← usable? rest i
    if here then some (some i) else firstUsable? rest more

/-- Where the rest is cut: as far right as the width allows, or else as soon as possible. -/
def cut? (width : Nat) (rest : List Char) : Option (Option Nat) := do
  let last ← sub? rest.length 1
  match ← firstUsable? rest (List.Ico 1 (min width last + 1)).reverse with
  | some place => some (some place)
  | none => firstUsable? rest (List.Ico (width + 1) rest.length)

/-- The pieces from a position on. There are none if an access is out of range, or if a cut
does not move on. -/
def pieces? (width : Nat) (body : List Char) (start : Nat) : Option (List (List Char)) := do
  let left ← sub? body.length start
  let rest ← from? body start
  if left ≤ width then some [rest]
  else
    match ← cut? width rest with
    | none => some [rest]
    | some place =>
      let piece ← upTo? rest place
      if start < start + place ∧ start + place ≤ body.length then
        let more ← pieces? width body (start + place)
        some (piece :: more)
      else none
termination_by body.length - start

end Positions

/-- A place before which a text may be cut, as far as the text from there on goes. -/
def Usable (body : List Char) (i : Nat) : Prop := body[i]? = some ' ' ∧ i + leastTail ≤ body.length

instance (body : List Char) : DecidablePred (Usable body) := fun i =>
  inferInstanceAs (Decidable (body[i]? = some ' ' ∧ i + leastTail ≤ body.length))

/-- The numbers of the characters that meet a condition. -/
theorem filterMap_zipIdx (bound : Nat) (chars : List Char) (start : Nat) :
    ((chars.zipIdx start).filterMap fun (c, i) =>
        if c = ' ' ∧ 1 ≤ i ∧ i + leastTail ≤ bound then some i else none) =
      (List.range' start chars.length).filter fun i =>
        decide (chars[i - start]? = some ' ' ∧ 1 ≤ i ∧ i + leastTail ≤ bound) := by
  induction chars generalizing start with
  | nil => rfl
  | cons c chars ih =>
    have later : ∀ i ∈ List.range' (start + 1) chars.length,
        decide (chars[i - (start + 1)]? = some ' ' ∧ 1 ≤ i ∧ i + leastTail ≤ bound) =
          decide ((c :: chars)[i - start]? = some ' ' ∧ 1 ≤ i ∧ i + leastTail ≤ bound) := by
      intro i inside
      have after : start + 1 ≤ i := (List.mem_range'_1.mp inside).1
      rw [show i - start = (i - (start + 1)) + 1 by omega, List.getElem?_cons_succ]
    rw [List.zipIdx_cons, List.filterMap_cons, ih, List.length_cons, List.range'_succ,
      List.filter_cons, List.filter_congr later, Nat.sub_self, List.getElem?_cons_zero]
    simp only [Option.some.injEq, decide_eq_true_eq]
    split_ifs <;> rfl

theorem breaks_eq (body : List Char) :
    breaks body = (List.Ico 1 body.length).filter (Usable body) := by
  have from_one : List.Ico 1 body.length =
      (List.range' 0 body.length).filter fun i => decide (1 ≤ i) := by
    have bounded := List.Ico.filter_le 0 body.length 1
    rw [List.Ico.zero_bot, Nat.zero_max] at bounded
    rw [← bounded, List.range_eq_range']
  rw [breaks, filterMap_zipIdx, from_one, List.filter_filter]
  refine List.filter_congr fun i _ => ?_
  rw [← Bool.decide_and, decide_eq_decide, Nat.sub_zero, Usable]
  tauto

theorem breakAt?_spec {width place : Nat} {body : List Char}
    (found : breakAt? width body = some place) : 1 ≤ place ∧ Usable body place := by
  have listed : place ∈ breaks body := by
    unfold breakAt? at found
    dsimp only at found
    split at found
    next last among =>
      cases found
      exact List.mem_of_mem_filter (List.mem_of_getLast? among)
    next => exact List.mem_of_find?_eq_some found
  rw [breaks_eq, List.mem_filter, List.Ico.mem, decide_eq_true_eq] at listed
  exact ⟨listed.1.1, listed.2⟩

theorem breakAt?_eq (width : Nat) (body : List Char) : breakAt? width body =
    ((List.Ico 1 (min width (body.length - 1) + 1)).reverse.find? (Usable body)).or
      ((List.Ico (width + 1) body.length).find? (Usable body)) := by
  have within : List.Ico 1 (min width (body.length - 1) + 1) =
      (List.Ico 1 body.length).filter (fun i => decide (i ≤ width)) := by
    have bounded := List.Ico.filter_lt 1 body.length (width + 1)
    simp only [Nat.lt_succ_iff] at bounded
    rw [bounded]
    cases body with
    | nil => simp
    | cons c rest => rw [List.length_cons, Nat.add_sub_cancel, Nat.succ_min_succ, Nat.min_comm]
  have beyond : List.Ico (width + 1) body.length =
      (List.Ico 1 body.length).filter (fun i => decide (width < i)) := by
    have bounded := List.Ico.filter_le 1 body.length (width + 1)
    rw [Nat.max_eq_right (Nat.le_add_left 1 width)] at bounded
    exact bounded.symm
  have last_within : ((breaks body).filter (fun i => decide (i ≤ width))).getLast? =
      (List.Ico 1 (min width (body.length - 1) + 1)).reverse.find? (Usable body) := by
    rw [breaks_eq, List.filter_comm, ← within, List.getLast?_filter]
  have first_beyond : (breaks body).find? (fun i => decide (width < i)) =
      (List.Ico (width + 1) body.length).find? (Usable body) := by
    rw [breaks_eq, beyond, ← List.head?_filter, List.filter_comm, List.head?_filter]
  rw [breakAt?, ← last_within, ← first_beyond]
  cases ((breaks body).filter fun i => decide (i ≤ width)).getLast? <;> rfl

namespace Positions

variable {width : Nat} {rest : List Char}

theorem usable?_eq {i : Nat} (inside : i < rest.length) :
    usable? rest i = some (decide (Usable rest i)) := by
  have left : sub? rest.length i = some (rest.length - i) := if_pos (Nat.le_of_lt inside)
  have enough : leastTail ≤ rest.length - i ↔ i + leastTail ≤ rest.length := by omega
  have usable_iff : Usable rest i ↔ rest[i] = ' ' ∧ i + leastTail ≤ rest.length := by
    unfold Usable
    rw [List.getElem?_eq_getElem inside, Option.some_inj]
  rw [usable?, List.getElem?_eq_getElem inside, left]
  by_cases space : rest[i] = ' ' <;> simp [usable_iff, space, enough]

theorem firstUsable?_eq {places : List Nat} (inside : ∀ i ∈ places, i < rest.length) :
    firstUsable? rest places = some (places.find? (Usable rest)) := by
  induction places with
  | nil => rfl
  | cons i places ih =>
    obtain ⟨here, later⟩ := List.forall_mem_cons.mp inside
    rw [firstUsable?, usable?_eq here, List.find?_cons, ih later]
    by_cases usable : Usable rest i <;> simp [usable]

/-- The place of a cut is looked for within the rest. -/
theorem cut?_eq (long : width < rest.length) : cut? width rest = some (breakAt? width rest) := by
  have last : sub? rest.length 1 = some (rest.length - 1) := if_pos (by omega)
  have left_inside : ∀ i ∈ (List.Ico 1 (min width (rest.length - 1) + 1)).reverse,
      i < rest.length := by
    intro i listed
    have bounds := List.Ico.mem.mp (List.mem_reverse.mp listed)
    omega
  have right_inside : ∀ i ∈ List.Ico (width + 1) rest.length, i < rest.length :=
    fun i listed => (List.Ico.mem.mp listed).2
  rw [cut?, last, breakAt?_eq]
  simp only [Option.bind_eq_bind, Option.bind_some, firstUsable?_eq left_inside,
    firstUsable?_eq right_inside]
  cases (List.Ico 1 (min width (rest.length - 1) + 1)).reverse.find? (Usable rest) <;> rfl

/-- From a position inside the text, every access is in range and every cut moves on. -/
theorem pieces?_eq (body : List Char) {start : Nat} (inside : start ≤ body.length) :
    pieces? width body start = some (splitBody width (body.drop start)) := by
  have left : sub? body.length start = some (body.length - start) := if_pos inside
  have rest_eq : from? body start = some (body.drop start) := if_pos inside
  rw [pieces?, splitBody, left, rest_eq, List.length_drop]
  simp only [Option.bind_eq_bind, Option.bind_some]
  split_ifs with short
  · rfl
  · have long : width < (body.drop start).length := by
      rw [List.length_drop]
      omega
    rw [cut?_eq long, Option.bind_some]
    cases found : breakAt? width (body.drop start) with
    | none => rfl
    | some place =>
      obtain ⟨positive, -, room⟩ := breakAt?_spec found
      rw [List.length_drop] at room
      obtain ⟨before, rfl⟩ := Nat.exists_eq_add_of_le' positive
      have piece : upTo? (body.drop start) (before + 1) =
          some ((body.drop start).take (before + 1)) := if_pos (by rw [List.length_drop]; omega)
      have moves_on : start < start + (before + 1) ∧ start + (before + 1) ≤ body.length := by omega
      dsimp only
      rw [piece, Option.bind_some, if_pos moves_on, pieces?_eq body moves_on.2, List.drop_drop]
      rfl
termination_by body.length - start

end Positions

/-- What escapes are written with. -/
def isEscapeLetter (c : Char) : Bool :=
  c = '\\' || c = 'n' || c = 'r' || c = 't' || c = 'x' || (digitValue? 16 c).isSome

theorem isEscapeLetter_digitChar {value : Nat} (small : value < 16) :
    isEscapeLetter (Nat.digitChar value) = true := by
  simp [isEscapeLetter, digitValue?_digitChar value small]

/-- A character is written as it is, or else with the letters of escapes. -/
theorem escapeChar_cases (c : Char) :
    escapeChar c = [c] ∨ ∀ d ∈ escapeChar c, isEscapeLetter d = true := by
  unfold escapeChar
  split
  iterate 4 exact .inr (by simp [isEscapeLetter])
  split_ifs with control
  · have small := toNat_lt_of_isControl control
    have high : isEscapeLetter (Nat.digitChar (c.toNat / 16)) = true :=
      isEscapeLetter_digitChar (by omega)
    have low : isEscapeLetter (Nat.digitChar (c.toNat % 16)) = true :=
      isEscapeLetter_digitChar (by omega)
    refine .inr ?_
    simp only [List.forall_mem_cons, List.not_mem_nil, false_implies, implies_true, and_true]
    exact ⟨rfl, rfl, high, low⟩
  · exact .inl rfl

/-- What is no part of an escape stands for itself. -/
theorem eq_of_mem_escapeChar {c d : Char} (inside : d ∈ escapeChar c)
    (plain : isEscapeLetter d = false) : c = d := by
  rcases escapeChar_cases c with same | escaped
  · rw [same] at inside
    exact (List.mem_singleton.mp inside).symm
  · exact absurd (escaped d inside) (Bool.eq_false_iff.mp plain)

theorem escape_space (text : List Char) : escape (' ' :: text) = ' ' :: escape text := rfl

/-- Before a space, an escaped text can be cut like the text itself. -/
theorem exists_of_escape_eq {text first rest : List Char}
    (same : escape text = first ++ ' ' :: rest) :
    ∃ start more, text = start ++ ' ' :: more ∧ escape start = first ∧ escape more = rest := by
  induction text generalizing first with
  | nil => simp [escape] at same
  | cons c text ih =>
    have split : escapeChar c ++ escape text = first ++ ' ' :: rest := same
    obtain ⟨further, rfl, later⟩ | ⟨further, here, later⟩ := List.append_eq_append_iff.mp split
    · obtain ⟨start, more, rfl, start_eq, rest_eq⟩ := ih later
      exact ⟨c :: start, more, rfl, by rw [← start_eq]; rfl, rest_eq⟩
    · cases further with
      | nil =>
        have whole : escape text = [] ++ ' ' :: rest := later.symm
        obtain ⟨start, more, rfl, start_eq, rest_eq⟩ := ih whole
        refine ⟨c :: start, more, rfl, ?_, rest_eq⟩
        rw [List.append_nil] at here
        rw [← here, ← List.append_nil (escapeChar c), ← start_eq]
        rfl
      | cons d further =>
        obtain ⟨rfl, rest_eq⟩ := List.cons.inj later
        -- The space is within what is written for the character, so it is the character.
        have written : ' ' ∈ escapeChar c := here ▸ List.mem_append_right _ List.mem_cons_self
        obtain rfl := eq_of_mem_escapeChar written rfl
        obtain ⟨rfl, rfl⟩ : first = [] ∧ further = [] := by
          have lengths := congrArg List.length here
          rw [show escapeChar ' ' = [' '] from rfl, List.length_append, List.length_cons,
            List.length_nil, List.length_cons] at lengths
          exact ⟨List.length_eq_zero_iff.mp (by omega), List.length_eq_zero_iff.mp (by omega)⟩
        exact ⟨[], text, rfl, rfl, rest_eq.symm⟩

/-- The pieces of an escaped text are the pieces of the text, escaped. The first one is empty only
if the text is, and every other one starts with a space. -/
theorem splitBody_escape (width : Nat) (text : List Char) :
    ∃ first parts, splitBody width (escape text) = (first :: parts).map escape ∧
      (first :: parts).flatten = text ∧ (first = [] → text = []) ∧
      ∀ part ∈ parts, ∃ more, part = ' ' :: more := by
  have whole : ∃ first parts, [escape text] = (first :: parts).map escape ∧
      (first :: parts).flatten = text ∧ (first = [] → text = []) ∧
      ∀ part ∈ parts, ∃ more, part = ' ' :: more :=
    ⟨text, [], rfl, List.flatten_singleton, id, fun _ absent => by cases absent⟩
  rw [splitBody]
  split_ifs with short
  · exact whole
  · cases found : breakAt? width (escape text) with
    | none => exact whole
    | some place =>
      obtain ⟨positive, space, room⟩ := breakAt?_spec found
      obtain ⟨before, rfl⟩ := Nat.exists_eq_add_of_le' positive
      obtain ⟨inside, space⟩ := List.getElem?_eq_some_iff.mp space
      have drop_eq : (escape text).drop (before + 1) =
          ' ' :: (escape text).drop (before + 1 + 1) := by
        rw [List.drop_eq_getElem_cons inside, space]
      have cut : escape text = (escape text).take (before + 1) ++
          ' ' :: (escape text).drop (before + 1 + 1) := by
        rw [← drop_eq, List.take_append_drop]
      obtain ⟨start, more, text_eq, start_eq, more_eq⟩ := exists_of_escape_eq cut
      have rest_eq : (escape text).drop (before + 1) = escape (' ' :: more) := by
        rw [drop_eq, escape_space, more_eq]
      have start_nonempty : start ≠ [] := by
        rintro rfl
        have lengths := congrArg List.length start_eq
        rw [List.length_take, Nat.min_eq_left (Nat.le_of_lt inside)] at lengths
        cases lengths
      dsimp only
      obtain ⟨first, parts, pieces_eq, joined, first_nonempty, spaced⟩ :=
        splitBody_escape width (' ' :: more)
      refine ⟨start, first :: parts, ?_, ?_, ?_, ?_⟩
      · rw [rest_eq, pieces_eq, ← start_eq]
        rfl
      · rw [List.flatten_cons, joined, text_eq]
      · exact fun empty => absurd empty start_nonempty
      · refine List.forall_mem_cons.mpr ⟨?_, spaced⟩
        cases first with
        | nil => cases first_nonempty rfl
        | cons c rest =>
          obtain ⟨rfl, -⟩ := List.cons.inj joined
          exact ⟨rest, rfl⟩
termination_by (escape text).length
decreasing_by
  have lengths := congrArg List.length rest_eq
  rw [List.length_drop] at lengths
  omega

/-- The literals, one after the other, are the text. -/
structure Joins (text : String) (literals : List String) : Prop where
  nonempty : literals ≠ []
  /-- Each is a literal that stands on one line. -/
  wellFormed : ∀ literal ∈ literals, (literalText? literal).isSome ∧
    ∀ c ∈ literal.toList, breaksLine c = false
  /-- Behind the first one, a space follows the opening quote. -/
  spaced : ∀ literal ∈ literals.tail, ∃ mark rest, isQuote mark = true ∧
    literal.toList = mark :: ' ' :: rest
  joined : (literals.mapM literalText?).map String.join = some text

/-- A text that is split is found back in the literals, whatever the width. Looking for the places
of the cuts never leaves the text, and comes to an end. -/
theorem splitLiteral_joins (preferDouble : Bool) (maxWidth : Nat) (text : String) :
    (Positions.pieces? (maxWidth - 2) (escape text.toList) 0).map
        (List.map fun piece => String.ofList (quoteEscaped preferDouble piece)) =
      some (splitLiteral preferDouble maxWidth text) ∧
    Joins text (splitLiteral preferDouble maxWidth text) := by
  obtain ⟨first, parts, pieces_eq, joined, -, spaced⟩ :=
    splitBody_escape (maxWidth - 2) text.toList
  have literals_eq : splitLiteral preferDouble maxWidth text = (first :: parts).map fun part =>
      String.ofList (quoteEscaped preferDouble (escape part)) := by
    rw [splitLiteral, pieces_eq, List.map_map]
    rfl
  have read : ∀ part, literalText? (String.ofList (quoteEscaped preferDouble (escape part))) =
      some (String.ofList part) := by
    intro part
    have literal := literalText?_quote preferDouble (String.ofList part)
    rwa [quote, quoteChars, String.toList_ofList] at literal
  refine ⟨?_, ⟨?_, ?_, ?_, ?_⟩⟩
  · rw [Positions.pieces?_eq _ (Nat.zero_le _), List.drop_zero]
    rfl
  · rw [literals_eq]
    exact List.cons_ne_nil _ _
  · rw [literals_eq]
    refine List.forall_mem_map.mpr fun part _ => ⟨by rw [read]; rfl, ?_⟩
    rw [String.toList_ofList]
    exact line_quoteEscaped preferDouble part
  · rw [literals_eq, List.map_cons, List.tail_cons]
    refine List.forall_mem_map.mpr fun part listed => ?_
    obtain ⟨more, rfl⟩ := spaced part listed
    have quote := isQuote_chooseQuote preferDouble (escape (' ' :: more))
    rw [String.toList_ofList, quoteEscaped, enclose_escape]
    generalize chooseQuote preferDouble (escape (' ' :: more)) = mark at quote ⊢
    have plain : quotedChar mark ' ' = [' '] := by
      rcases quote_cases quote with rfl | rfl <;> rfl
    exact ⟨mark, _, quote, by rw [List.flatMap_cons, plain]; rfl⟩
  · have all_read : (splitLiteral preferDouble maxWidth text).mapM literalText? =
        some ((first :: parts).map String.ofList) := by
      rw [literals_eq, List.mapM_map, Function.comp_def, funext read]
      exact List.mapM_pure
    rw [all_read, Option.map_some, String.join_eq, List.map_map]
    have same_parts : String.toList ∘ String.ofList = id := funext fun _ => String.toList_ofList
    rw [same_parts, List.map_id, joined, String.ofList_toList]

end ResourceModels.Code

import Mathlib
import ResourceModels.Proofs.Scopes
import ResourceModels.Proofs.SchemaNames

/-!
# Which class names are legal

A class name is the last segment of a schema name or what a property suggests, and then whatever is
put behind it for the lists around the place and where a name is taken. What is put behind is always
legal there, and keeps the name off the keywords; the rest of the name is nowhere cleaned or held
against the keywords. So a class name is legal exactly when the name it starts with is spelt like an
identifier and, where nothing is put behind it, is no keyword (`legal_class_iff`). A property in
ASCII suggests a name that is spelt like an identifier, but three of them are keywords.
-/

namespace ResourceModels

namespace Text

def isAsciiAlphanumeric (c : Char) : Bool := isAsciiUpper c || isAsciiLower c || isAsciiDigit c

theorem isAsciiUpper_iff {c : Char} : isAsciiUpper c = true ↔ 65 ≤ c.toNat ∧ c.toNat ≤ 90 := by
  rw [isAsciiUpper, Bool.and_eq_true, decide_eq_true_eq, decide_eq_true_eq]
  exact Iff.rfl

theorem isAsciiLower_iff {c : Char} : isAsciiLower c = true ↔ 97 ≤ c.toNat ∧ c.toNat ≤ 122 := by
  rw [isAsciiLower, Bool.and_eq_true, decide_eq_true_eq, decide_eq_true_eq]
  exact Iff.rfl

theorem isAsciiDigit_iff {c : Char} : isAsciiDigit c = true ↔ 48 ≤ c.toNat ∧ c.toNat ≤ 57 := by
  rw [isAsciiDigit, Bool.and_eq_true, decide_eq_true_eq, decide_eq_true_eq]
  exact Iff.rfl

theorem isAsciiAlphanumeric_iff_code {c : Char} : isAsciiAlphanumeric c = true ↔
    (65 ≤ c.toNat ∧ c.toNat ≤ 90) ∨ (97 ≤ c.toNat ∧ c.toNat ≤ 122) ∨
      (48 ≤ c.toNat ∧ c.toNat ≤ 57) := by
  rw [isAsciiAlphanumeric, Bool.or_eq_true, Bool.or_eq_true, isAsciiUpper_iff, isAsciiLower_iff,
    isAsciiDigit_iff, or_assoc]

theorem isAsciiAlphanumeric_iff {c : Char} :
    isAsciiAlphanumeric c = true ↔ isAscii c = true ∧ isAlphanumeric c = true := by
  have same_class : isAscii c = true → isAlphanumeric c = isAsciiAlphanumeric c := by
    intro ascii
    rw [isAlphanumeric, isAlphabetic, isNumeric, if_pos ascii, if_pos ascii, isAsciiAlphanumeric]
  constructor
  · intro plain
    have code := isAsciiAlphanumeric_iff_code.mp plain
    have ascii : isAscii c = true := decide_eq_true (show c.toNat < 128 by omega)
    exact ⟨ascii, (same_class ascii).trans plain⟩
  · rintro ⟨ascii, alphanumeric⟩
    exact (same_class ascii).symm.trans alphanumeric

theorem toNat_ofNat_of_ascii {code : Nat} (small : code < 128) :
    (Char.ofNat code).toNat = code := by
  have valid : code.isValidChar := .inl (by omega)
  rw [Char.toNat_ofNat, if_pos valid]

theorem toUpper_eq {c : Char} (plain : isAsciiAlphanumeric c = true) :
    ∃ d, toUpper c = [d] ∧ isAsciiAlphanumeric d = true ∧ isAsciiLower d = false := by
  have ascii := (isAsciiAlphanumeric_iff.mp plain).1
  rw [toUpper, if_pos ascii]
  by_cases lower : isAsciiLower c = true
  · have code := isAsciiLower_iff.mp lower
    have moved : (Char.ofNat (c.toNat - 32)).toNat = c.toNat - 32 :=
      toNat_ofNat_of_ascii (by omega)
    refine ⟨_, congrArg (fun d => [d]) (if_pos lower), ?_, ?_⟩
    · rw [isAsciiAlphanumeric_iff_code, moved]
      omega
    · rw [← Bool.not_eq_true, isAsciiLower_iff, moved]
      omega
  · exact ⟨c, congrArg (fun d => [d]) (if_neg lower), plain, Bool.not_eq_true _ ▸ lower⟩

theorem toLower_eq {c : Char} (plain : isAsciiAlphanumeric c = true) :
    ∃ d, toLower c = [d] ∧ isAsciiAlphanumeric d = true := by
  have ascii := (isAsciiAlphanumeric_iff.mp plain).1
  rw [toLower, if_pos ascii]
  by_cases upper : isAsciiUpper c = true
  · have code := isAsciiUpper_iff.mp upper
    have moved : (Char.ofNat (c.toNat + 32)).toNat = c.toNat + 32 :=
      toNat_ofNat_of_ascii (by omega)
    refine ⟨_, congrArg (fun d => [d]) (if_pos upper), ?_⟩
    rw [isAsciiAlphanumeric_iff_code, moved]
    omega
  · exact ⟨c, congrArg (fun d => [d]) (if_neg upper), plain⟩

theorem mem_of_mem_wordsOfPiece {run : Run} {word piece found : List Char}
    (listed : found ∈ wordsOfPiece run word piece) {c : Char} (inside : c ∈ found) :
    c ∈ word ∨ c ∈ piece := by
  induction run, word, piece using wordsOfPiece.induct with
  | case1 run word => cases listed
  | case2 run word d =>
    obtain rfl := List.mem_singleton.mp listed
    simpa [or_comm] using inside
  | case3 run word d next rest after ends ih =>
    rw [wordsOfPiece, if_pos ends] at listed
    rcases List.mem_cons.mp listed with rfl | listed
    · simp only [List.mem_reverse, List.mem_cons] at inside ⊢
      tauto
    · have later := ih listed
      simp only [List.mem_cons, List.not_mem_nil, false_or] at later ⊢
      tauto
  | case4 run word d next rest after goes_on ends ih =>
    rw [wordsOfPiece, if_neg goes_on, if_pos ends] at listed
    rcases List.mem_cons.mp listed with rfl | listed
    · exact .inl (List.mem_reverse.mp inside)
    · have later := ih listed
      simp only [List.mem_cons, List.not_mem_nil, or_false] at later ⊢
      tauto
  | case5 run word d next rest after goes_on goes_on_too ih =>
    rw [wordsOfPiece, if_neg goes_on, if_neg goes_on_too] at listed
    have later := ih listed
    simp only [List.mem_cons] at later ⊢
    tauto

theorem plain_of_mem_words {text word : List Char} (ascii : ∀ c ∈ text, isAscii c = true)
    (listed : word ∈ words text) {c : Char} (inside : c ∈ word) :
    isAsciiAlphanumeric c = true := by
  obtain ⟨piece, among, listed⟩ := List.mem_flatMap.mp listed
  have of_piece := (mem_of_mem_wordsOfPiece listed inside).resolve_left List.not_mem_nil
  obtain ⟨of_text, kept⟩ := mem_of_mem_pieces among of_piece
  exact isAsciiAlphanumeric_iff.mpr ⟨ascii c of_text, by simpa using kept⟩

theorem plain_of_mem_lowercase {word : List Char}
    (plain : ∀ c ∈ word, isAsciiAlphanumeric c = true) {d : Char} (inside : d ∈ lowercase word) :
    isAsciiAlphanumeric d = true := by
  induction word using lowercase.induct with
  | case1 => cases inside
  | case2 =>
    -- A final sigma has a small letter of its own, but it is no ASCII character.
    have sigma := plain 'Σ' List.mem_cons_self
    exact absurd sigma (by decide)
  | case3 c rest not_last ih =>
    obtain ⟨first, later⟩ := List.forall_mem_cons.mp plain
    rw [lowercase] at inside
    · rcases List.mem_append.mp inside with inside | inside
      · obtain ⟨lower, only, lower_plain⟩ := toLower_eq first
        rw [only] at inside
        exact List.mem_singleton.mp inside ▸ lower_plain
      · exact ih later inside
    · exact not_last

/-- A capitalised word is empty or starts with a letter that is no small one, or a digit. -/
theorem capitalize_eq {word : List Char} (plain : ∀ c ∈ word, isAsciiAlphanumeric c = true) :
    capitalize word = [] ∨ ∃ first rest, capitalize word = first :: rest ∧
      isAsciiLower first = false ∧ ∀ c ∈ first :: rest, isAsciiAlphanumeric c = true := by
  cases word with
  | nil => exact .inl rfl
  | cons c rest =>
    obtain ⟨here, later⟩ := List.forall_mem_cons.mp plain
    obtain ⟨first, only, first_plain, not_lower⟩ := toUpper_eq here
    refine .inr ⟨first, lowercase rest, by rw [capitalize, only]; rfl, not_lower, ?_⟩
    exact List.forall_mem_cons.mpr
      ⟨first_plain, fun d inside => plain_of_mem_lowercase later inside⟩

theorem pascalCase_eq {text : List Char} (ascii : ∀ c ∈ text, isAscii c = true) :
    pascalCase text = [] ∨ ∃ first rest, pascalCase text = first :: rest ∧
      isAsciiLower first = false ∧ ∀ c ∈ first :: rest, isAsciiAlphanumeric c = true := by
  have each : ∀ word ∈ words text, ∀ c ∈ word, isAsciiAlphanumeric c = true :=
    fun word listed c inside => plain_of_mem_words ascii listed inside
  unfold pascalCase
  revert each
  induction words text with
  | nil => exact fun _ => .inl rfl
  | cons word more ih =>
    intro each
    obtain ⟨here, later⟩ := List.forall_mem_cons.mp each
    have others := ih later
    rw [List.flatMap_cons]
    obtain empty | ⟨first, rest, same, not_lower, plain⟩ := capitalize_eq here
    · rwa [empty]
    · refine .inr ⟨first, rest ++ more.flatMap capitalize, by rw [same]; rfl, not_lower, ?_⟩
      have more_plain : ∀ c ∈ more.flatMap capitalize, isAsciiAlphanumeric c = true := by
        obtain empty | ⟨_, _, same', -, plain'⟩ := others
        · rw [empty]
          exact fun _ absent => absurd absent List.not_mem_nil
        · rwa [same']
      exact List.forall_mem_append.mpr ⟨plain, more_plain⟩

end Text

theorem ascii_sanitizeFrom {separated started : Bool} {text : List Char}
    (ascii : ∀ c ∈ text, Text.isAscii c = true) :
    ∀ c ∈ sanitizeFrom separated started text, Text.isAscii c = true := by
  induction text generalizing separated started with
  | nil => exact fun _ absent => absurd absent List.not_mem_nil
  | cons d rest ih =>
    obtain ⟨first, later⟩ := List.forall_mem_cons.mp ascii
    have underscore : Text.isAscii '_' = true := by decide
    rw [sanitizeFrom]
    split
    · split
      · exact List.forall_mem_cons.mpr ⟨underscore, List.forall_mem_cons.mpr ⟨first, ih later⟩⟩
      · exact List.forall_mem_cons.mpr ⟨first, ih later⟩
    · exact ih later

theorem ascii_sanitize {name : List Char} (ascii : ∀ c ∈ name, Text.isAscii c = true) :
    ∀ c ∈ sanitize name, Text.isAscii c = true := by
  have lead_ascii : ∀ c ∈ if (name.take 1).any Text.isAsciiDigit then ['_'] else [],
      Text.isAscii c = true := by
    split <;> exact List.all_eq_true.mp (by decide)
  have rest_ascii : ∀ c ∈ sanitizeFrom false false name, Text.isAscii c = true :=
    ascii_sanitizeFrom ascii
  have safe_ascii := List.forall_mem_append.mpr ⟨lead_ascii, rest_ascii⟩
  unfold sanitize
  dsimp only
  generalize (if (name.take 1).any Text.isAsciiDigit then ['_'] else []) ++
    sanitizeFrom false false name = safe at safe_ascii ⊢
  cases safe with
  | nil => exact List.all_eq_true.mp (by decide)
  | cons first rest => exact safe_ascii

namespace Code

/-- What an identifier looks like. Keywords look the same. -/
structure SpeltAsIdentifier (name : String) : Prop where
  start : ∃ first rest, name.toList = first :: rest ∧ startsIdentifier first = true
  word : IsWord name

theorem isIdentifier_iff {name : String} :
    isIdentifier name = true ↔ SpeltAsIdentifier name ∧ name ∉ keywords := by
  have start_word : ∀ c, startsIdentifier c = true → c = '_' ∨ Text.isAlphanumeric c = true := by
    intro c starts
    simp only [startsIdentifier, Bool.or_eq_true, decide_eq_true_eq] at starts
    exact starts.imp_right fun alphabetic => by rw [Text.isAlphanumeric, alphabetic, Bool.true_or]
  unfold isIdentifier
  split
  next empty =>
    constructor
    · intro starts
      cases starts
    · rintro ⟨⟨⟨first, rest, same, -⟩, -⟩, -⟩
      rw [empty] at same
      cases same
  next first rest spelling =>
    simp only [Bool.and_eq_true, List.all_eq_true, Bool.not_eq_true', isKeyword,
      List.contains_eq_mem, decide_eq_false_iff_not]
    constructor
    · rintro ⟨⟨starts, goes_on⟩, no_keyword⟩
      refine ⟨⟨⟨first, rest, spelling, starts⟩, fun c inside => ?_⟩, no_keyword⟩
      rw [spelling] at inside
      rcases List.mem_cons.mp inside with rfl | inside
      · exact start_word c starts
      · exact continuesIdentifier_iff.mp (goes_on c inside)
    · rintro ⟨⟨⟨first', rest', same, starts⟩, word⟩, no_keyword⟩
      cases spelling.symm.trans same
      refine ⟨⟨starts, fun c inside => ?_⟩, no_keyword⟩
      exact continuesIdentifier_iff.mpr (word c (spelling ▸ List.mem_cons_of_mem _ inside))

/-- Something that stands behind a name changes nothing about its start. -/
theorem speltAsIdentifier_append {start ending : String} (nonempty : start ≠ "")
    (word : IsWord ending) :
    SpeltAsIdentifier (start ++ ending) ↔ SpeltAsIdentifier start := by
  have spelling : (start ++ ending).toList = start.toList ++ ending.toList := String.toList_append
  obtain ⟨first, rest, same⟩ : ∃ first rest, start.toList = first :: rest :=
    List.exists_cons_of_ne_nil fun empty => nonempty (String.toList_eq_nil_iff.mp empty)
  constructor
  · rintro ⟨⟨first', rest', whole, starts⟩, whole_word⟩
    rw [spelling, same, List.cons_append] at whole
    cases whole
    exact ⟨⟨first, rest, same, starts⟩,
      fun c inside => whole_word c (spelling ▸ List.mem_append_left _ inside)⟩
  · rintro ⟨⟨first', rest', same', starts⟩, start_word⟩
    cases same.symm.trans same'
    exact ⟨⟨first, rest ++ ending.toList, by rw [spelling, same]; rfl, starts⟩,
      start_word.append word⟩

/-- What can stand behind the name that a class name starts with: a word for each list around the
place, and then what is tried where the name is taken. -/
def classEndings (lists numbered : Nat) : List String :=
  Promotion.candidates (String.join (List.replicate lists "Item")) numbered

theorem candidates_append (start more : String) (numbered : Nat) :
    Promotion.candidates (start ++ more) numbered =
      (Promotion.candidates more numbered).map (start ++ ·) := by
  simp [Promotion.candidates, String.append_assoc]

theorem lists_spec (lists : Nat) :
    IsWord (String.join (List.replicate lists "Item")) ∧
      (lists = 0 ∨ 'I' ∈ (String.join (List.replicate lists "Item")).toList) := by
  induction lists with
  | zero => exact ⟨isWord_of_all (by decide), .inl rfl⟩
  | succ lists ih =>
    rw [List.replicate_succ, String.join_cons]
    refine ⟨(isWord_of_all (by decide)).append ih.1, .inr ?_⟩
    rw [String.toList_append]
    exact List.mem_append_left _ (by decide)

/-- An ending is empty, or it has a capital letter that no keyword has. -/
theorem ending_spec {lists numbered : Nat} {ending : String}
    (listed : ending ∈ classEndings lists numbered) :
    IsWord ending ∧ (ending = "" ∨ 'I' ∈ ending.toList ∨ 'M' ∈ ending.toList) := by
  obtain ⟨items_word, items⟩ := lists_spec lists
  have model_word : IsWord "Model" := isWord_of_all (by decide)
  have model_letter : 'M' ∈ "Model".toList := by decide
  simp only [classEndings, Promotion.candidates, List.mem_cons, List.mem_map] at listed
  obtain rfl | rfl | ⟨number, -, rfl⟩ := listed
  · refine ⟨items_word, ?_⟩
    obtain rfl | letter := items
    · exact .inl rfl
    · exact .inr (.inl letter)
  · refine ⟨items_word.append model_word, .inr (.inr ?_)⟩
    rw [String.toList_append]
    exact List.mem_append_right _ model_letter
  · refine ⟨(items_word.append model_word).append (Imports.isWord_toString _), .inr (.inr ?_)⟩
    rw [String.toList_append, String.toList_append]
    exact List.mem_append_left _ (List.mem_append_right _ model_letter)

/-- Behind a name, every ending is legal and rules the keywords out. -/
theorem isIdentifier_append_iff {start ending : String} (nonempty : start ≠ "")
    {lists numbered : Nat} (listed : ending ∈ classEndings lists numbered) :
    isIdentifier (start ++ ending) = true ↔
      SpeltAsIdentifier start ∧ (ending = "" → start ∉ keywords) := by
  have small_letters : ∀ keyword ∈ keywords,
      'I' ∉ keyword.toList ∧ 'M' ∉ keyword.toList := by decide
  obtain ⟨word, letters⟩ := ending_spec listed
  rw [isIdentifier_iff, speltAsIdentifier_append nonempty word]
  refine and_congr_right fun _ => ?_
  obtain rfl | letters := letters
  · simp
  · have inside : 'I' ∈ (start ++ ending).toList ∨ 'M' ∈ (start ++ ending).toList := by
      rw [String.toList_append]
      exact letters.imp (List.mem_append_right _) (List.mem_append_right _)
    have no_keyword : start ++ ending ∉ keywords := by
      intro keyword
      obtain ⟨no_i, no_m⟩ := small_letters _ keyword
      exact inside.elim no_i no_m
    have not_empty : ending ≠ "" := by
      rintro rfl
      exact letters.elim (absurd · List.not_mem_nil) (absurd · List.not_mem_nil)
    exact iff_of_true no_keyword fun empty => absurd empty not_empty

/-- A suggested name starts with the word put in front or is the name in upper camel case. -/
theorem suggestedClassName_cases (property : String) :
    suggestedClassName property = "Model" ++ (NameForms.of property).pascal ∨
      ∃ first rest, (NameForms.of property).pascal.toList = first :: rest ∧
        Text.isAsciiDigit first = false ∧
        suggestedClassName property = (NameForms.of property).pascal := by
  unfold suggestedClassName
  dsimp only
  split
  next => exact .inl rfl
  next first rest spelling =>
    split
    next => exact .inl rfl
    next no_digit => exact .inr ⟨first, rest, spelling, by simpa using no_digit, rfl⟩

theorem suggestedClassName_ne_empty (property : String) : suggestedClassName property ≠ "" := by
  intro empty
  have spelling := congrArg String.toList empty
  obtain same | ⟨first, rest, pascal, -, same⟩ := suggestedClassName_cases property
  · rw [same, String.toList_append] at spelling
    cases spelling
  · rw [same, pascal] at spelling
    cases spelling

/-- A property in ASCII suggests a name that is spelt like an identifier and starts with a capital
letter. -/
theorem suggestedClassName_spelling {property : String}
    (ascii : ∀ c ∈ property.toList, Text.isAscii c = true) :
    ∃ first rest, (suggestedClassName property).toList = first :: rest ∧
      Text.isAsciiUpper first = true ∧ ∀ c ∈ first :: rest, Text.isAsciiAlphanumeric c = true := by
  have pascal : (NameForms.of property).pascal.toList =
      Text.pascalCase (sanitize property.toList) := String.toList_ofList
  have pascal_cases := Text.pascalCase_eq (ascii_sanitize ascii)
  rw [← pascal] at pascal_cases
  obtain same | ⟨first, rest, spelling, no_digit, same⟩ := suggestedClassName_cases property
  · have pascal_plain : ∀ c ∈ (NameForms.of property).pascal.toList,
        Text.isAsciiAlphanumeric c = true := by
      obtain empty | ⟨first, rest, spelling, -, plain⟩ := pascal_cases
      · rw [empty]
        exact fun _ absent => absurd absent List.not_mem_nil
      · rwa [spelling]
    have model_plain : ∀ c ∈ "Model".toList, Text.isAsciiAlphanumeric c = true :=
      List.all_eq_true.mp (by decide)
    have all_plain := List.forall_mem_append.mpr ⟨model_plain, pascal_plain⟩
    rw [same, String.toList_append]
    exact ⟨'M', _, rfl, by decide, all_plain⟩
  · obtain empty | ⟨first', rest', spelling', not_lower, plain⟩ := pascal_cases
    · cases spelling.symm.trans empty
    · cases spelling.symm.trans spelling'
      have first_plain := plain first List.mem_cons_self
      rw [Text.isAsciiAlphanumeric, no_digit, not_lower, Bool.or_false, Bool.or_false]
        at first_plain
      exact ⟨first, rest, same ▸ spelling, first_plain, plain⟩

theorem speltAsIdentifier_suggestedClassName {property : String}
    (ascii : ∀ c ∈ property.toList, Text.isAscii c = true) :
    SpeltAsIdentifier (suggestedClassName property) ∧
      (suggestedClassName property ∈ keywords →
        suggestedClassName property ∈ ["False", "None", "True"]) := by
  obtain ⟨first, rest, spelling, upper, plain⟩ := suggestedClassName_spelling ascii
  have first_ascii := (Text.isAsciiAlphanumeric_iff.mp (plain first List.mem_cons_self)).1
  refine ⟨⟨⟨first, rest, spelling, ?_⟩, fun c inside => ?_⟩, fun keyword => ?_⟩
  · rw [startsIdentifier, Text.isAlphabetic, if_pos first_ascii, upper, Bool.true_or, Bool.or_true]
  · exact .inr (Text.isAsciiAlphanumeric_iff.mp (plain c (spelling ▸ inside))).2
  · have capital_ones : ∀ name ∈ keywords, name.toList.head?.any Text.isAsciiUpper = true →
        name ∈ ["False", "None", "True"] := by decide
    refine capital_ones _ keyword ?_
    rw [spelling, List.head?_cons, Option.any_some, upper]

end Code

namespace Resolver

/-- The names that class names start with: classes of declared schemas, and what the properties of
visited objects suggest. -/
inductive StartsClass (resolver : Resolver) : String → Prop
  | schema (name : String) (node : Node) (known : Entries.get? resolver.nodes name = some node)
      (kept : resolver.isCollapsed node = false) :
      StartsClass resolver (resolver.classRef name).name
  | property (context : String) (node : Node) (name : String)
      (visited : resolver.Visits context node) (inside : name ∈ node.propertyNames) :
      StartsClass resolver (suggestedClassName name)

variable {resolver : Resolver}

theorem StartsClass.ne_empty {start : String} (starts : resolver.StartsClass start) :
    start ≠ "" := by
  cases starts with
  | schema name node known kept =>
    have listed : (splitSchemaName name).2 ∈ fullSegments name := by
      rw [← splitSchemaName_append]
      exact List.mem_append_right _ List.mem_cons_self
    exact (proper_of_mem_fullSegments listed).1
  | property context node name visited inside => exact Code.suggestedClassName_ne_empty name

/-- At a visited node the suggested name is a start with a word for each list around it. -/
theorem Visits.context_eq {context : String} {node : Node}
    (visited : resolver.Visits context node) :
    ∃ start lists, resolver.StartsClass start ∧
      context = start ++ String.join (List.replicate lists "Item") := by
  induction visited with
  | schema name node known kept =>
    exact ⟨_, 0, .schema name node known kept, String.append_empty.symm⟩
  | property context shape notes property above inside =>
    exact ⟨_, 0, .property context _ property.1 above (List.mem_map_of_mem inside),
      String.append_empty.symm⟩
  | items context items notes above ih =>
    obtain ⟨start, lists, starts, rfl⟩ := ih
    refine ⟨start, lists + 1, starts, ?_⟩
    rw [List.replicate_succ', String.append_assoc, String.join_append]
    rfl
  | additional context shape notes node above no_properties given ih => exact ih
  | variant context variants notes variant above inside ih => exact ih
  | replaced context path notes target node above valid known collapsed ih => exact ih

/-- Every class name is a start with an ending. -/
theorem GivesClass.eq_append {name : String} (given : resolver.GivesClass name) :
    ∃ start lists numbered, resolver.StartsClass start ∧
      ∃ ending ∈ Code.classEndings lists numbered, name = start ++ ending := by
  cases given with
  | schema key node known kept =>
    exact ⟨_, 0, 0, .schema key node known kept, "", List.mem_cons_self, String.append_empty.symm⟩
  | inline context node numbered name visited needed tried =>
    obtain ⟨start, lists, starts, rfl⟩ := visited.context_eq
    rw [Code.candidates_append] at tried
    obtain ⟨ending, listed, rfl⟩ := List.mem_map.mp tried
    exact ⟨start, lists, numbered, starts, ending, listed, rfl⟩

end Resolver

namespace Code

/-- A class starts with its name as it is. -/
theorem ClassText.head?_ofModel (style : Style) (current : ModulePath) (imports : Imports)
    (model : Model) : ∃ base, (ClassText.ofModel style current imports model).lines.head? =
      some ("class " ++ model.name ++ "(" ++ base ++ "):") := by
  have bases : "(BaseModel):" = "(" ++ "BaseModel" ++ "):" ∧ "(Enum):" = "(" ++ "Enum" ++ "):" ∧
      "(RootModel[" = "(" ++ "RootModel[" ∧ "]):" = "]" ++ "):" := by decide
  cases model with
  | object model =>
    refine ⟨"BaseModel", congrArg some ?_⟩
    rw [bases.1]
    simp only [String.append_assoc]
    rfl
  | enum model =>
    refine ⟨"Enum", congrArg some ?_⟩
    rw [bases.2.1]
    simp only [String.append_assoc]
    rfl
  | «alias» model =>
    refine ⟨"RootModel[" ++ (Hint.ofType current imports model.target).text ++ "]", ?_⟩
    rw [ofModel, ofAlias, bases.2.2.1, bases.2.2.2]
    simp only [String.append_assoc]
    split <;> rfl

end Code

namespace Derivation

/-- Each class starts with its name as it is. The name is legal exactly when the name it starts with
is spelt like an identifier and, where nothing is put behind it, is no keyword; so all are legal
where nothing else starts a name. A schema names its class alone; a property in ASCII suggests one
of three keywords, or an identifier. -/
theorem legal_class_iff {bucket : String} {conventions : Conventions} {collapse : Bool}
    {schemas : Entries String Json} {modules : List Module}
    (success : ofSchemas bucket conventions collapse schemas = .ok modules) :
    ∃ decoded, nodes conventions schemas = .ok decoded ∧
      (∀ home ∈ modules, ∀ model ∈ home.models,
        (∀ style current imports, ∃ base,
          (Code.ClassText.ofModel style current imports model).lines.head? =
            some ("class " ++ model.name ++ "(" ++ base ++ "):")) ∧
        ∃ start lists numbered, ∃ ending ∈ Code.classEndings lists numbered,
          Resolver.StartsClass ⟨bucket, decoded, conventions, collapse⟩ start ∧
          model.name = start ++ ending ∧
          (Code.isIdentifier model.name = true ↔
            Code.SpeltAsIdentifier start ∧ (ending = "" → start ∉ Code.keywords))) ∧
      ((∀ start, Resolver.StartsClass ⟨bucket, decoded, conventions, collapse⟩ start →
          Code.isIdentifier start = true) →
        ∀ home ∈ modules, ∀ model ∈ home.models, Code.isIdentifier model.name = true) ∧
      (∀ name ∈ declaredNames collapse decoded, ∃ home ∈ modules, ∃ model ∈ home.models,
        model.name = (ClassRef.ofSchemaName bucket name).name) ∧
      ∀ property : String, (∀ c ∈ property.toList, Text.isAscii c = true) →
        (Code.isIdentifier (suggestedClassName property) = true ↔
          suggestedClassName property ∉ ["False", "None", "True"]) := by
  obtain ⟨decoded, declared, known, related, rfl⟩ := ofSchemas_eq_ok success
  let resolver : Resolver := ⟨bucket, decoded, conventions, collapse⟩
  rw [← keys_nodes known] at related
  have named : ∀ home ∈ (Module.group declared).map Module.promoteInline, ∀ model ∈ home.models,
      ∃ start lists numbered, ∃ ending ∈ Code.classEndings lists numbered,
        resolver.StartsClass start ∧ model.name = start ++ ending ∧
        (Code.isIdentifier model.name = true ↔
          Code.SpeltAsIdentifier start ∧ (ending = "" → start ∉ Code.keywords)) := by
    intro promoted present model inside
    obtain ⟨home, grouped, rfl⟩ := List.mem_map.mp present
    obtain ⟨start, lists, numbered, starts, ending, listed, same⟩ :=
      (given_of_mem_group related grouped inside).1.eq_append
    refine ⟨start, lists, numbered, ending, listed, starts, same, ?_⟩
    rw [same]
    exact Code.isIdentifier_append_iff starts.ne_empty listed
  refine ⟨decoded, known, fun home present model inside => ⟨fun style current imports =>
    Code.ClassText.head?_ofModel style current imports model, named home present model inside⟩,
    fun starts_legal home present model inside => ?_, fun name listed => ?_,
    fun property ascii => ?_⟩
  · obtain ⟨start, lists, numbered, ending, listed, starts, -, legal_iff⟩ :=
      named home present model inside
    obtain ⟨spelt, no_keyword⟩ := Code.isIdentifier_iff.mp (starts_legal start starts)
    exact legal_iff.mpr ⟨spelt, fun _ => no_keyword⟩
  · rw [← filter_isDeclared resolver] at listed
    obtain ⟨node, found, kept⟩ := resolver.exists_of_isDeclared (List.mem_filter.mp listed).2
    obtain ⟨-, -, home, grouped, own, promoted, same_class, -⟩ :=
      exists_promoted_declaration related found kept
    exact ⟨home.promoteInline, List.mem_map_of_mem grouped, own, promoted,
      (congrArg ClassRef.name same_class).symm⟩
  · obtain ⟨spelt, capital⟩ := Code.speltAsIdentifier_suggestedClassName ascii
    have are_keywords : ∀ name ∈ ["False", "None", "True"], name ∈ Code.keywords := by decide
    rw [Code.isIdentifier_iff, and_iff_right spelt]
    exact not_congr ⟨capital, are_keywords _⟩

namespace InlineProperty

theorem starts_legal {start : String} (starts : resolver.StartsClass start) :
    Code.isIdentifier start = true := by
  cases starts with
  | schema key node known kept =>
    obtain ⟨rfl, rfl⟩ := eq_widget known
    decide
  | property context node name visited inside =>
    obtain ⟨rfl, rfl⟩ | ⟨rfl, rfl⟩ | ⟨rfl, rfl⟩ := visited_eq visited
    · obtain rfl := List.mem_singleton.mp inside
      decide
    · obtain rfl := List.mem_singleton.mp inside
      decide
    · cases inside

theorem size_legal : ofSchemas "k8s" .kubernetes true (schemas "size") = .ok (set "size" "Size") ∧
    ∀ home ∈ set "size" "Size", ∀ model ∈ home.models, Code.isIdentifier model.name = true := by
  have success : ofSchemas "k8s" .kubernetes true (schemas "size") = .ok (set "size" "Size") :=
    rfl
  have decoded_eq : nodes .kubernetes (schemas "size") = .ok [("Widget", widget)] := rfl
  obtain ⟨decoded, known, -, legal, -⟩ := legal_class_iff success
  cases decoded_eq.symm.trans known
  exact ⟨success, legal fun start starts => starts_legal starts⟩

/-- The class of the object has the name of a constant. -/
theorem none_is_keyword : ∃ home model,
    ofSchemas "k8s" .kubernetes true (schemas "none") = .ok (set "none" "None") ∧
      home ∈ set "none" "None" ∧ model ∈ home.models ∧
      (Code.ClassText.ofModel {} home.path [] model).lines.head? = some "class None(BaseModel):" ∧
      Code.isIdentifier model.name = false :=
  ⟨_, _, rfl, List.mem_singleton.mpr rfl, List.mem_cons_self, rfl, by decide⟩

end InlineProperty

end Derivation

end ResourceModels

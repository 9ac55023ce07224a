import Mathlib
import ResourceModels.Proofs.LegalNames
import ResourceModels.Proofs.UnitPaths

/-!
# Which sanitised names are legal

An attribute is the importable form of its property, with a word put in front where that starts with
an underscore. Cleaning keeps every letter and number, and only a digit of ASCII is kept from the
start of a name; so a text that starts with another number, such as a digit of another script, gives
a name that is no identifier, and every other text gives one (`sanitised_legal_iff`).
-/

namespace ResourceModels.Code

/-- A number that is no letter, ASCII apart. -/
def isNumeral (c : Char) : Bool :=
  Text.isNumeric c && !Text.isAlphabetic c && !Text.isAsciiDigit c

def StartsWithNumeral (text : String) : Prop := text.toList.head?.any isNumeral = true

instance (text : String) : Decidable (StartsWithNumeral text) :=
  inferInstanceAs (Decidable (_ = true))

theorem isAlphabetic_of_isAsciiDigit {c : Char} (digit : Text.isAsciiDigit c = true) :
    Text.isAlphabetic c = false := by
  have code := Text.isAsciiDigit_iff.mp digit
  have ascii : Text.isAscii c = true := decide_eq_true (show c.toNat < 128 by omega)
  rw [Text.isAlphabetic, if_pos ascii, Bool.or_eq_false_iff, ← Bool.not_eq_true,
    ← Bool.not_eq_true, Text.isAsciiUpper_iff, Text.isAsciiLower_iff]
  omega

/-- What can stand in an identifier can start it, digits and numerals apart. -/
theorem startsIdentifier_iff {c : Char} (continues : c = '_' ∨ Text.isAlphanumeric c = true) :
    startsIdentifier c = true ↔ isNumeral c = false ∧ Text.isAsciiDigit c = false := by
  rcases continues with rfl | alphanumeric
  · decide
  · have not_underscore : c ≠ '_' := by
      rintro rfl
      exact absurd alphanumeric (by decide)
    by_cases digit : Text.isAsciiDigit c = true
    · simp [startsIdentifier, not_underscore, digit, isAlphabetic_of_isAsciiDigit digit]
    · simp only [Text.isAlphanumeric, Bool.or_eq_true] at alphanumeric
      simp only [startsIdentifier, isNumeral, not_underscore, digit]
      cases alphabetic : Text.isAlphabetic c <;> simp_all

/-- Cleaning takes no numeral away and puts none in. -/
theorem head?_clean (text : List Char) :
    (clean text).head?.any isNumeral = text.head?.any isNumeral := by
  cases text with
  | nil => rfl
  | cons c rest =>
    have underscore : isNumeral '_' = false := by decide
    by_cases alphanumeric : Text.isAlphanumeric c = true
    · simp [clean, alphanumeric]
    · have no_numeral : isNumeral c = false := by
        simp only [Text.isAlphanumeric, Bool.or_eq_true, not_or, Bool.not_eq_true] at alphanumeric
        simp [isNumeral, alphanumeric.2]
      simp [clean, alphanumeric, underscore, no_numeral]

theorem no_numeral_of_keyword : ∀ name ∈ keywords, ¬ StartsWithNumeral name := by decide

/-- A word with an underscore is no keyword. -/
theorem not_keyword_of_underscore {name : String} (inside : '_' ∈ name.toList) :
    name ∉ keywords := fun listed => no_underscore_of_keyword name listed inside

theorem isIdentifier_of_word {name : String} (word : IsWord name) {first : Char} {rest : List Char}
    (spelling : name.toList = first :: rest) :
    isIdentifier name = true ↔
      (isNumeral first = false ∧ Text.isAsciiDigit first = false) ∧ name ∉ keywords := by
  have first_word := word first (spelling ▸ List.mem_cons_self)
  rw [isIdentifier_iff, ← startsIdentifier_iff first_word]
  refine and_congr_left fun _ => ⟨?_, fun starts => ⟨⟨first, rest, spelling, starts⟩, word⟩⟩
  rintro ⟨⟨first', rest', spelling', starts⟩, -⟩
  cases spelling.symm.trans spelling'
  exact starts

theorem not_startsWithNumeral_of_isIdentifier {name : String} (legal : isIdentifier name = true) :
    ¬ StartsWithNumeral name := by
  obtain ⟨⟨⟨first, rest, spelling, -⟩, word⟩, -⟩ := isIdentifier_iff.mp legal
  obtain ⟨⟨no_numeral, -⟩, -⟩ := (isIdentifier_of_word word spelling).mp legal
  rw [StartsWithNumeral, spelling, List.head?_cons, Option.any_some, no_numeral]
  exact Bool.false_ne_true

theorem clean_of_isWord {name : String} (word : IsWord name) : clean name.toList = name.toList := by
  refine (List.map_congr_left fun c inside => ?_).trans (List.map_id _)
  rcases word c inside with rfl | alphanumeric
  · rfl
  · exact if_pos alphanumeric

theorem isIdentifier_moduleSegment_iff (text : String) :
    isIdentifier (moduleSegment text) = true ↔ ¬ StartsWithNumeral text := by
  have word := isWord_moduleSegment text
  rw [StartsWithNumeral, ← head?_clean]
  obtain repair | ⟨kept, unrepaired⟩ := moduleSegment_spec text
  · have no_keyword : moduleSegment text ∉ keywords := by
      obtain ⟨same, -⟩ | ⟨same, -⟩ := repair.ends <;>
        exact not_keyword_of_underscore (by simp [same])
    generalize spelling : (moduleSegment text).toList = spelled at repair
    generalize clean text.toList = cleaned at repair
    cases repair with
    | empty =>
      rw [isIdentifier_of_word word spelling]
      exact iff_of_true ⟨by decide, no_keyword⟩ (by decide)
    | digit c rest digit =>
      rw [isIdentifier_of_word word spelling]
      exact iff_of_true ⟨by decide, no_keyword⟩ (by simp [isNumeral, digit])
    | keyword name keyword =>
      obtain ⟨-, first, rest, rfl, no_digit⟩ := keyword_spec keyword
      have no_numeral : isNumeral first = false := by
        simpa [StartsWithNumeral] using no_numeral_of_keyword _ (isKeyword_iff.mp keyword)
      rw [isIdentifier_of_word word spelling]
      exact iff_of_true ⟨⟨no_numeral, no_digit⟩, no_keyword⟩ (by simp [no_numeral])
  · cases cleaned : clean text.toList with
    | nil => exact absurd (cleaned ▸ .empty) (unrepaired ['_'])
    | cons first rest =>
      rw [cleaned] at kept unrepaired
      have no_digit : Text.isAsciiDigit first = false :=
        Bool.eq_false_iff.mpr fun digit => unrepaired _ (.digit first rest digit)
      have no_keyword : moduleSegment text ∉ keywords := by
        intro listed
        refine unrepaired _ (.keyword (first :: rest) ?_)
        rw [← kept, String.ofList_toList]
        exact isKeyword_iff.mpr listed
      rw [isIdentifier_of_word word kept, List.head?_cons, Option.any_some, and_iff_left no_keyword,
        and_iff_left no_digit, Bool.not_eq_true]

theorem moduleSegment_of_isIdentifier {name : String} (legal : isIdentifier name = true) :
    moduleSegment name = name := by
  obtain ⟨⟨⟨first, rest, spelling, starts⟩, word⟩, no_keyword⟩ := isIdentifier_iff.mp legal
  have no_digit := ((isIdentifier_of_word word spelling).mp legal).1.2
  rw [← String.toList_inj]
  obtain repair | ⟨kept, -⟩ := moduleSegment_spec name
  · rw [clean_of_isWord word] at repair
    generalize (moduleSegment name).toList = spelled at repair ⊢
    rw [spelling] at repair
    cases repair with
    | digit _ _ digit => exact absurd digit (by simp [no_digit])
    | keyword _ keyword =>
      rw [← spelling, String.ofList_toList] at keyword
      exact absurd (isKeyword_iff.mp keyword) no_keyword
  · rw [kept, clean_of_isWord word]

theorem startsWithUnderscore_iff {name : String} :
    startsWithUnderscore name = true ↔ ∃ rest, name.toList = '_' :: rest := by
  rw [startsWithUnderscore, decide_eq_true_eq, List.head?_eq_some_iff]

/-- An underscore at the start would make an attribute private. -/
def publicName (name : String) : String :=
  if startsWithUnderscore name then "field" ++ name else name

theorem avoidKeyword_of_underscore {name : String} (inside : '_' ∈ name.toList) :
    avoidKeyword name = name := by
  rw [avoidKeyword, if_neg (mt isKeyword_iff.mp (not_keyword_of_underscore inside))]

theorem cleanAttribute_eq (property : String) :
    cleanAttribute property = publicName (moduleSegment property) := by
  by_cases init : property = initModule
  · subst init
    decide +kernel
  rw [cleanAttribute, moduleSegment, if_neg init]
  dsimp only
  cases clean property.toList with
  | nil => decide
  | cons first rest =>
    dsimp only
    by_cases digit : Text.isAsciiDigit first = true
    · rw [if_pos digit, if_pos digit, avoidKeyword_of_underscore (by simp)]
      simp [publicName, startsWithUnderscore, ← String.toList_inj]
    · rw [if_neg digit, if_neg digit]
      by_cases underscore : first = '_'
      · subst underscore
        rw [if_pos rfl, avoidKeyword_of_underscore (by simp), avoidKeyword_of_underscore (by simp)]
        simp [publicName, startsWithUnderscore, ← String.toList_inj]
      · have no_underscore : startsWithUnderscore (avoidKeyword (String.ofList (first :: rest))) =
            false := by
          unfold avoidKeyword
          split <;> simp [startsWithUnderscore, underscore]
        rw [if_neg underscore, publicName, no_underscore]
        rfl

theorem fieldName_eq (property : String) :
    (fieldName property).1 = publicName (moduleSegment property) := by
  rw [fieldName]
  split
  next kept =>
    rw [Bool.and_eq_true, Bool.not_eq_true'] at kept
    rw [moduleSegment_of_isIdentifier kept.1, publicName, kept.2]
    rfl
  next => exact cleanAttribute_eq property

theorem startsWithUnderscore_publicName (name : String) :
    startsWithUnderscore (publicName name) = false := by
  rw [publicName]
  split
  next => simp [startsWithUnderscore]
  next shown => simpa using shown

theorem isWord_publicName {name : String} (word : IsWord name) : IsWord (publicName name) := by
  have field_word : IsWord "field" := isWord_of_all (by decide)
  rw [publicName]
  split
  · exact field_word.append word
  · exact word

/-- With an underscore at its start a word is legal, with and without the word in front. -/
theorem isIdentifier_publicName {name : String} (word : IsWord name) :
    isIdentifier (publicName name) = isIdentifier name := by
  rw [publicName]
  split
  next hidden =>
    obtain ⟨rest, spelling⟩ := startsWithUnderscore_iff.mp hidden
    have whole : ("field" ++ name).toList = 'f' :: ("ield".toList ++ '_' :: rest) := by
      rw [String.toList_append, spelling]
      rfl
    have field_word : IsWord "field" := isWord_of_all (by decide)
    have legal : isIdentifier name = true :=
      (isIdentifier_of_word word spelling).mpr
        ⟨by decide, not_keyword_of_underscore (by simp [spelling])⟩
    rw [legal, isIdentifier_of_word (field_word.append word) whole]
    exact ⟨by decide, not_keyword_of_underscore (by simp [whole])⟩
  next => rfl

/-- Every sanitised name is an identifier exactly where the text starts with no numeral. An
attribute is never private, and a property that is not its own attribute is its alias. -/
theorem sanitised_legal_iff (text : String) :
    (isIdentifier (fieldName text).1 = true ↔ ¬ StartsWithNumeral text) ∧
    (isIdentifier (memberName text) = true ↔ ¬ StartsWithNumeral text) ∧
    (isIdentifier (moduleSegment text) = true ↔ ¬ StartsWithNumeral text) ∧
    startsWithUnderscore (fieldName text).1 = false ∧
    (fieldName text = (text, none) ∨ (fieldName text).2 = some text) := by
  have segment := isIdentifier_moduleSegment_iff text
  have attribute_legal : isIdentifier (fieldName text).1 = true ↔ ¬ StartsWithNumeral text := by
    rw [fieldName_eq, isIdentifier_publicName (isWord_moduleSegment text), segment]
  refine ⟨attribute_legal, ?_, segment, ?_, ?_⟩
  · rw [memberName]
    split
    next legal => exact iff_of_true legal (not_startsWithNumeral_of_isIdentifier legal)
    next => exact attribute_legal
  · rw [fieldName_eq, startsWithUnderscore_publicName]
  · rw [fieldName]
    split
    · exact .inl rfl
    · exact .inr rfl

/-- A digit of another script is kept at the start. -/
theorem numeral_kept : (fieldName "\u0663").1 = "\u0663" ∧
    isIdentifier (fieldName "\u0663").1 = false ∧ isIdentifier (memberName "\u0663") = false ∧
    isIdentifier (moduleSegment "\u0663") = false := by
  decide +kernel

end ResourceModels.Code

import Mathlib
import ResourceModels.Proofs.SanitisedNames

/-!
# Which fields share an attribute

Every field of a class has lines of its own, and they start with its attribute. The attribute is
made from the property alone, and no two fields are compared. So the attributes of a class are
pairwise different exactly when no two of its properties are given one name: when no two are
spelled alike, and none is spelled as another is with the word in front
(`nodup_attributes_iff`).
-/

namespace ResourceModels.Code

/-- The attribute of cleaned text that starts with no letter. -/
inductive FieldInFront : List Char → List Char → Prop
  | underscore (rest : List Char) : FieldInFront ('_' :: rest) ("field".toList ++ '_' :: rest)
  | digit (name : List Char) (start : ∀ c ∈ name.head?, Text.isAsciiDigit c = true) :
      FieldInFront name ("field_".toList ++ name)

/-- Properties with one attribute. -/
inductive SharesAttribute (first second : String) : Prop
  | alike (alike : SpeltAlike first second)
  | left (put : FieldInFront (clean first.toList) (clean second.toList))
  | right (put : FieldInFront (clean second.toList) (clean first.toList))

/-- With an underscore in it, a segment needs no repair unless it starts with a digit. -/
theorem moduleSegment_of_underscore {segment : String} {first : Char} {rest : List Char}
    (cleaned : clean segment.toList = first :: rest) (no_digit : Text.isAsciiDigit first = false)
    (inside : '_' ∈ first :: rest) : (moduleSegment segment).toList = first :: rest := by
  rw [← cleaned] at inside ⊢
  obtain repair | ⟨kept, -⟩ := moduleSegment_spec segment
  · obtain ⟨-, digit⟩ | ⟨-, no_underscore, -⟩ := repair.ends
    · rw [cleaned] at digit
      cases no_digit.symm.trans (digit first rfl)
    · exact absurd inside no_underscore
  · exact kept

/-- The word is put in front of what starts with an underscore, be it cleaned or repaired. -/
theorem fieldInFront_iff {property : String} {text : List Char} :
    FieldInFront (clean property.toList) text ↔
      startsWithUnderscore (moduleSegment property) = true ∧
        text = "field".toList ++ (moduleSegment property).toList := by
  rw [startsWithUnderscore_iff]
  constructor
  · intro put
    generalize cleaned : clean property.toList = name at put
    cases put with
    | underscore rest =>
      rw [moduleSegment_of_underscore cleaned (by decide) List.mem_cons_self]
      exact ⟨⟨rest, rfl⟩, rfl⟩
    | digit _ start =>
      have repair : Repair name ('_' :: name) := by
        cases name with
        | nil => exact .empty
        | cons c rest => exact .digit c rest (start c rfl)
      rw [← cleaned] at repair ⊢
      rw [moduleSegment_of_repair repair]
      exact ⟨⟨_, rfl⟩, rfl⟩
  · rintro ⟨⟨rest, hidden⟩, rfl⟩
    obtain repair | ⟨kept, -⟩ := moduleSegment_spec property
    · obtain ⟨same, digit⟩ | ⟨same, no_underscore, c, more, cleaned, -⟩ := repair.ends
      · rw [same]
        exact .digit _ digit
      · rw [hidden, cleaned] at same
        rw [cleaned, (List.cons.inj same).1] at no_underscore
        exact absurd List.mem_cons_self no_underscore
    · rw [← kept, hidden]
      exact .underscore rest

/-- A segment that starts with the word is what cleaning made of it. -/
theorem moduleSegment_eq_field_iff {segment : String} {rest : List Char} :
    (moduleSegment segment).toList = "field".toList ++ '_' :: rest ↔
      clean segment.toList = "field".toList ++ '_' :: rest := by
  constructor
  · intro made
    obtain repair | ⟨kept, -⟩ := moduleSegment_spec segment
    · rw [made] at repair
      generalize clean segment.toList = name at repair ⊢
      generalize spelling : "field".toList ++ '_' :: rest = whole at repair
      cases repair with
      | empty => cases spelling
      | digit c more digit => cases spelling
      | keyword _ keyword =>
        obtain ⟨rfl, -⟩ := (List.append_cons_inj_of_notMem (keyword_spec keyword).1
          List.not_mem_nil).mp spelling.symm
        exact absurd keyword (by decide)
    · rw [← kept, made]
  · intro cleaned
    exact moduleSegment_of_underscore cleaned (by decide) (by simp)

theorem publicName_eq_iff {first second : String} :
    publicName first = publicName second ↔ first = second ∨
      (startsWithUnderscore first = true ∧ second = "field" ++ first) ∨
        startsWithUnderscore second = true ∧ first = "field" ++ second := by
  have shown : ∀ name, startsWithUnderscore ("field" ++ name) = false := fun name => by
    simp [startsWithUnderscore]
  unfold publicName
  cases hidden : startsWithUnderscore first <;> cases hidden' : startsWithUnderscore second
  · simp
  · have different : first ≠ second := fun same => by simp [same, hidden'] at hidden
    simp [different]
  · have different : first ≠ second := fun same => by simp [same, hidden'] at hidden
    simp [different, eq_comm]
  · have apart : second ≠ "field" ++ first := fun same => by simp [same, shown] at hidden'
    have apart' : first ≠ "field" ++ second := fun same => by simp [same, shown] at hidden
    simp [apart, apart', String.append_right_inj]

theorem moduleSegment_eq_field_append_iff {first second : String}
    (hidden : startsWithUnderscore (moduleSegment first) = true) :
    moduleSegment second = "field" ++ moduleSegment first ↔
      clean second.toList = "field".toList ++ (moduleSegment first).toList := by
  obtain ⟨rest, spelling⟩ := startsWithUnderscore_iff.mp hidden
  rw [← String.toList_inj, String.toList_append, spelling, moduleSegment_eq_field_iff]

/-- Two properties have one attribute where they share it, and only there. -/
theorem fieldName_eq_iff {first second : String} :
    (fieldName first).1 = (fieldName second).1 ↔ SharesAttribute first second := by
  rw [fieldName_eq, fieldName_eq, publicName_eq_iff, moduleSegment_eq_iff]
  constructor
  · rintro (alike | ⟨hidden, same⟩ | ⟨hidden, same⟩)
    · exact .alike alike
    · have cleaned := (moduleSegment_eq_field_append_iff hidden).mp same
      exact .left (fieldInFront_iff.mpr ⟨hidden, cleaned⟩)
    · have cleaned := (moduleSegment_eq_field_append_iff hidden).mp same
      exact .right (fieldInFront_iff.mpr ⟨hidden, cleaned⟩)
  · rintro (alike | put | put)
    · exact .inl alike
    · obtain ⟨hidden, cleaned⟩ := fieldInFront_iff.mp put
      exact .inr (.inl ⟨hidden, (moduleSegment_eq_field_append_iff hidden).mpr cleaned⟩)
    · obtain ⟨hidden, cleaned⟩ := fieldInFront_iff.mp put
      exact .inr (.inr ⟨hidden, (moduleSegment_eq_field_append_iff hidden).mpr cleaned⟩)

instance (first second : String) : Decidable (SharesAttribute first second) :=
  decidable_of_iff _ fieldName_eq_iff

/-- The name that an indented line declares, up to the colon behind it. -/
def declaredName (line : String) : String :=
  String.ofList ((line.toList.drop Layout.level).takeWhile (· ≠ ':'))

theorem declaredName_pad {name : String} (word : IsWord name) (rest : String) :
    declaredName (Layout.pad Layout.level (name ++ ": " ++ rest)) = name := by
  have no_colon : ∀ c ∈ name.toList, (decide (c ≠ ':')) = true := by
    intro c inside
    refine decide_eq_true ?_
    rintro rfl
    exact word.not_mem (by decide) (by decide) inside
  have indented : (Layout.pad Layout.level (name ++ ": " ++ rest)).toList.drop Layout.level =
      name.toList ++ ':' :: ' ' :: rest.toList := by
    simp [Layout.pad]
  rw [declaredName, indented, List.takeWhile_append_of_pos no_colon]
  simp

theorem isWord_fieldName (property : String) : IsWord (fieldName property).1 := by
  rw [fieldName_eq]
  exact isWord_publicName (isWord_moduleSegment property)

theorem Layout.exists_fieldCall_head (layout : Layout) (indent : Nat) (target : String)
    (arguments : List Argument) : ∃ rest more,
      layout.fieldCall indent target arguments = Layout.pad indent (target ++ rest) :: more := by
  simp only [Layout.fieldCall, String.append_assoc]
  split
  · exact ⟨_, _, rfl⟩
  · split
    · exact ⟨_, _, rfl⟩
    · exact ⟨_, _, rfl⟩

theorem Layout.exists_assignment_head (indent : Nat) (target : String) (value : Option String) :
    ∃ rest more, Layout.assignment indent target value =
      Layout.pad indent (target ++ rest) :: more := by
  cases value with
  | none => exact ⟨"", [], by rw [Layout.assignment, String.append_empty]⟩
  | some value => exact ⟨" = " ++ value, [], by rw [Layout.assignment, String.append_assoc]⟩

namespace ClassText

/-- The lines of a field start with its attribute. -/
theorem exists_declaration (style : Style) (current : ModulePath) (imports : Imports)
    (field : Field ModelType) : ∃ line more, (ofField style current imports field).lines =
      line :: more ∧ declaredName line = (fieldName field.name).1 := by
  have declared := declaredName_pad (isWord_fieldName field.name)
  rw [ofField_eq]
  dsimp only
  split
  · obtain ⟨rest, more, same⟩ := Layout.exists_assignment_head Layout.level
      ((fieldName field.name).1 ++ ": " ++ (fieldHint current imports field).text)
      (defaultSource? style field)
    rw [same, String.append_assoc]
    exact ⟨_, _, rfl, declared _⟩
  · obtain ⟨rest, more, same⟩ := style.layout.exists_fieldCall_head Layout.level
      ((fieldName field.name).1 ++ ": " ++ (fieldHint current imports field).text) _
    rw [same, String.append_assoc]
    exact ⟨_, _, rfl, declared _⟩

/-- The body of a class has lines for every field in turn, with its attribute in front. The
attributes are pairwise different exactly when no two properties share one. -/
theorem nodup_attributes_iff (style : Style) (current : ModulePath) (imports : Imports)
    (model : ObjectModel ModelType) :
    (∃ pieces, (ofObject style current imports model).lines =
        ("class " ++ model.name ++ "(BaseModel):") ::
          (if model.fields = [] then [emptyBody] else pieces.flatten) ∧
      List.Forall₂ (fun field piece => ∃ line more, piece = line :: more ∧
        declaredName line = (fieldName field.name).1) model.fields pieces) ∧
    ((model.fields.map fun field => (fieldName field.name).1).Nodup ↔
      (model.fields.map Field.name).Pairwise fun first second =>
        ¬ SharesAttribute first second) := by
  refine ⟨⟨model.fields.map fun field => (ofField style current imports field).lines, ?_, ?_⟩, ?_⟩
  · simp [ofObject, List.flatMap, Function.comp_def]
  · rw [List.forall₂_map_right_iff, List.forall₂_same]
    exact fun field _ => exists_declaration style current imports field
  · rw [List.Nodup, List.pairwise_map, List.pairwise_map]
    simp only [ne_eq, fieldName_eq_iff]

end ClassText

namespace TwoLabels

def text : Json := .object [("type", .string "string")]

/-- A dash and a dot are no part of an identifier. -/
def schemas : Entries String Json :=
  [("Labels", .object [("type", .string "object"),
    ("properties", .object [("app-name", text), ("app.name", text)])])]

def model : ObjectModel ModelType :=
  ⟨"Labels", none, [⟨"app-name", .string, false, false, none, none, false⟩,
    ⟨"app.name", .string, false, false, none, none, false⟩]⟩

/-- The second declaration takes the place of the first. -/
theorem second_label_hides_first :
    Derivation.ofSchemas "k8s" .kubernetes true schemas =
      .ok [⟨["k8s", "models"], [.object model]⟩] ∧
    (model.fields.map Field.name).Nodup ∧
    (ClassText.ofObject {} ["k8s", "models"] [] model).lines =
      ["class Labels(BaseModel):",
        "    app_name: Optional[str] = Field(default=None, alias=\"app-name\")",
        "    app_name: Optional[str] = Field(default=None, alias=\"app.name\")"] ∧
    ¬ (model.fields.map fun field => (fieldName field.name).1).Nodup :=
  ⟨rfl, by decide, by decide +kernel, by decide⟩

end TwoLabels

end ResourceModels.Code

import Mathlib
import ResourceModels.Schema.Reference
import ResourceModels.Derivation.Resolver
import ResourceModels.Proofs.Lists
import ResourceModels.Proofs.Types

/-!
# Values of schemas and of types

When a value satisfies a schema node, and when a derived type admits a value. Both follow
references finitely often: a value that could only be judged by following references forever is
neither satisfying nor admitted. A property that may be null and a field that may be null are
relations between the two sides, so neither looks below a null that it lets pass.
-/

namespace ResourceModels

/-- The value has the type that a scalar schema names. -/
inductive ScalarType.Holds : ScalarType → Json → Prop
  | string (text : String) : Holds .string (.string text)
  | integer (value : Int) : Holds .integer (.number (.integer value))
  | number (value : Number) : Holds .number (.number value)
  | boolean (value : Bool) : Holds .boolean (.bool value)
  | null : Holds .null .null

/-- The value satisfies the node, where `schemas` are the schemas that references name. A property
that is null satisfies a nullable node whatever the node asks for. -/
inductive Satisfies (schemas : Entries String Node) : Node → Json → Prop
  | object (shape : ObjectShape Node) (notes : Notes) (members : List (String × Json))
      (required : ∀ key ∈ shape.required, (Entries.get? members key).isSome)
      (declared : ∀ property ∈ shape.properties, ∀ value,
        Entries.get? members property.1 = some value →
        (value ≠ .null ∨ property.2.notes.nullable = false) → Satisfies schemas property.2 value)
      (open_keys : ∀ node, shape.additional = some node → ∀ key value,
        Entries.get? members key = some value → key ∉ Entries.keys shape.properties →
        Satisfies schemas node value) :
      Satisfies schemas ⟨.object shape, notes⟩ (.object members)
  | array (node : Node) (notes : Notes) (items : List Json)
      (each : ∀ item ∈ items, Satisfies schemas node item) :
      Satisfies schemas ⟨.array node, notes⟩ (.array items)
  | scalar (shape : ScalarShape) (notes : Notes) (value : Json) (typed : shape.type.Holds value)
      (listed : shape.type = .string → shape.values ≠ [] → value ∈ shape.values) :
      Satisfies schemas ⟨.scalar shape, notes⟩ value
  | reference (path : String) (notes : Notes) (target : String) (node : Node) (value : Json)
      (valid : Reference.target path = .ok target) (found : Entries.get? schemas target = some node)
      (below : Satisfies schemas node value) : Satisfies schemas ⟨.reference path, notes⟩ value
  | union (variants : List Node) (notes : Notes) (variant : Node) (value : Json)
      (present : variant ∈ variants) (below : Satisfies schemas variant value) :
      Satisfies schemas ⟨.union variants, notes⟩ value
  | any (notes : Notes) (value : Json) : Satisfies schemas ⟨.any, notes⟩ value

/-- What a node asks for does not depend on its notes. -/
theorem Satisfies.of_kind {schemas : Entries String Node} {node other : Node} {value : Json}
    (holds : Satisfies schemas node value) (same : other.kind = node.kind) :
    Satisfies schemas other value := by
  obtain ⟨kind, notes⟩ := other
  cases holds with
  | object shape _ members required declared open_keys =>
    cases same
    exact .object shape notes members required declared open_keys
  | array node _ items each =>
    cases same
    exact .array node notes items each
  | scalar shape _ _ typed listed =>
    cases same
    exact .scalar shape notes value typed listed
  | reference path _ target node _ valid found below =>
    cases same
    exact .reference path notes target node value valid found below
  | union variants _ variant _ present below =>
    cases same
    exact .union variants notes variant value present below
  | any =>
    cases same
    exact .any notes value

/-- The declaration that a reference leads to. -/
def ModelSet.lookup? (set : ModelSet) (target : ClassRef) : Option Model :=
  (set.module? target.path).bind fun home => home.find? target.name

/-- What a declaration stands for. -/
def Model.asType : Model → ModelType
  | .object model => .object model
  | .enum model => .enum model
  | .alias model => model.target

/-- The type admits the value, where `set` holds the declarations that references lead to. -/
inductive Admits (set : ModelSet) : ModelType → Json → Prop
  | string (text : String) : Admits set .string (.string text)
  | dateTime (text : String) : Admits set .dateTime (.string text)
  | date (text : String) : Admits set .date (.string text)
  | binary (text : String) : Admits set .binary (.string text)
  | integer (value : Int) : Admits set .integer (.number (.integer value))
  | number (value : Number) : Admits set .number (.number value)
  | boolean (value : Bool) : Admits set .boolean (.bool value)
  | null : Admits set .null .null
  | any (value : Json) : Admits set .any value
  | array (type : ModelType) (items : List Json) (each : ∀ item ∈ items, Admits set type item) :
      Admits set (.array type) (.array items)
  | map (type : ModelType) (members : List (String × Json))
      (each : ∀ key value, Entries.get? members key = some value → Admits set type value) :
      Admits set (.map type) (.object members)
  | ref (target : ClassRef) (model : Model) (value : Json)
      (found : set.lookup? target = some model) (below : Admits set model.asType value) :
      Admits set (.ref target) value
  | union (members : List ModelType) (member : ModelType) (value : Json)
      (present : member ∈ members) (below : Admits set member value) :
      Admits set (.union members) value
  | object (model : ObjectModel ModelType) (members : List (String × Json))
      (absent : ∀ field ∈ model.fields, Entries.get? members field.name = none →
        field.required = false ∨ field.default.isSome)
      (given : ∀ field ∈ model.fields, ∀ value, Entries.get? members field.name = some value →
        (value ≠ .null ∨ field.isOptional = false) → Admits set field.type value) :
      Admits set (.object model) (.object members)
  | enum (model : EnumModel) (text : String) (listed : text ∈ model.variants) :
      Admits set (.enum model) (.string text)

namespace ModelType

theorem admits_ofScalar {set : ModelSet} {shape : ScalarShape} {value : Json}
    (typed : shape.type.Holds value) : Admits set (ofScalar shape) value := by
  obtain ⟨type, format, values⟩ := shape
  cases typed with
  | string text =>
    unfold ofScalar
    dsimp only
    split
    · exact .dateTime text
    · exact .date text
    · exact .binary text
    · exact .string text
  | integer value => exact .integer value
  | number value => exact .number value
  | boolean value => exact .boolean value
  | null => exact .null

theorem sameMembers_iff {first second : List ModelType} :
    sameMembers first second = true ↔ List.Forall₂ (fun a b => same a b = true) first second := by
  induction first generalizing second with
  | nil => cases second <;> simp [sameMembers]
  | cons member rest ih => cases second <;> simp [sameMembers, ih]

theorem same_isNull {first second : ModelType} (equal : same first second = true) :
    first.isNull = second.isNull := by
  cases first <;> cases second <;> simp [same, isNull] at equal ⊢

theorem same_isNullable {first second : ModelType} (equal : same first second = true) :
    first.isNullable = second.isNullable := by
  cases first <;> cases second <;> simp only [same, Bool.false_eq_true, isNullable] at equal ⊢
  next members others =>
    rw [sameMembers_iff] at equal
    induction equal with
    | nil => rfl
    | cons head _ ih => rw [List.any_cons, List.any_cons, same_isNull head, ih]

/-- Two fields with the same type and default that agree in everything else. -/
structure SameField (first second : Field ModelType) : Prop where
  name : first.name = second.name
  type : same first.type second.type = true
  required : first.required = second.required
  nullable : first.nullable = second.nullable
  description : first.description = second.description
  default : sameDefault first.default second.default = true
  readOnly : first.readOnly = second.readOnly

theorem SameField.isOptional {first second : Field ModelType} (equal : SameField first second) :
    first.isOptional = second.isOptional := by
  unfold Field.isOptional
  rw [equal.required, equal.nullable, same_isNullable equal.type]

theorem sameDefault_isSome {first second : Option Json} (equal : sameDefault first second = true) :
    first.isSome = second.isSome := by
  cases first <;> cases second <;> simp [sameDefault] at equal ⊢

theorem sameFields_iff {first second : List (Field ModelType)} :
    sameFields first second = true ↔ List.Forall₂ SameField first second := by
  induction first generalizing second with
  | nil => cases second <;> simp [sameFields]
  | cons field rest ih =>
    cases second with
    | nil => simp [sameFields]
    | cons other others =>
      simp only [sameFields, Bool.and_eq_true, decide_eq_true_eq, List.forall₂_cons, ih]
      refine and_congr_left fun _ => ⟨?_, fun equal => ?_⟩
      · rintro ⟨⟨⟨⟨⟨⟨name, type⟩, required⟩, nullable⟩, description⟩, default⟩, readOnly⟩
        exact ⟨name, type, required, nullable, description, default, readOnly⟩
      · exact ⟨⟨⟨⟨⟨⟨equal.name, equal.type⟩, equal.required⟩, equal.nullable⟩,
          equal.description⟩, equal.default⟩, equal.readOnly⟩

theorem spread_cases (type : ModelType) :
    (∃ members, type = .union members) ∨ type.spread = [type] := by
  cases type with
  | union members => exact .inl ⟨members, rfl⟩
  | _ => exact .inr rfl

/-- Types that are the same have the same parts. -/
theorem forall₂_spread {first second : ModelType} (equal : same first second = true) :
    List.Forall₂ (fun a b => same a b = true) first.spread second.spread := by
  cases first <;> cases second <;> simp only [same, Bool.false_eq_true] at equal <;>
    first
    | exact sameMembers_iff.mp equal
    | exact .cons equal .nil
    | exact .cons rfl .nil

theorem subset_pushNew (types : List ModelType) (type : ModelType) :
    types ⊆ pushNew types type := by
  unfold pushNew
  split
  · exact List.Subset.refl types
  · exact List.subset_append_left types [type]

theorem subset_foldl_pushNew (types start : List ModelType) :
    start ⊆ types.foldl pushNew start := by
  induction types generalizing start with
  | nil => exact List.Subset.refl start
  | cons first rest ih => exact List.Subset.trans (subset_pushNew start first) (ih _)

/-- A type that is dropped is the same as one that stays. -/
theorem exists_kept {types start : List ModelType} {type : ModelType}
    (present : type ∈ start ++ types) :
    ∃ kept ∈ types.foldl pushNew start, kept = type ∨ same kept type = true := by
  induction types generalizing start with
  | nil => exact ⟨type, by simpa using present, .inl rfl⟩
  | cons first rest ih =>
    have known : type ∈ pushNew start first ++ rest ∨ ∃ other ∈ start, same other type = true := by
      rcases List.mem_append.mp present with old | new
      · exact .inl (List.mem_append_left rest (subset_pushNew start first old))
      · rcases List.mem_cons.mp new with rfl | later
        · unfold pushNew
          split
          next dropped => exact .inr (List.any_eq_true.mp dropped)
          next => exact .inl (by simp)
        · exact .inl (List.mem_append_right _ later)
    rcases known with stays | ⟨other, early, alike⟩
    · exact ih stays
    · exact ⟨other, subset_foldl_pushNew (first :: rest) start early, .inr alike⟩

end ModelType

namespace Admits

open ModelType

/-- Types that are the same admit the same values. -/
theorem of_same {set : ModelSet} {first second : ModelType} {value : Json}
    (holds : Admits set second value) (equal : same first second = true) :
    Admits set first value := by
  induction holds generalizing first with
  | string text => cases first <;> simp [same] at equal; exact .string text
  | dateTime text => cases first <;> simp [same] at equal; exact .dateTime text
  | date text => cases first <;> simp [same] at equal; exact .date text
  | binary text => cases first <;> simp [same] at equal; exact .binary text
  | integer value => cases first <;> simp [same] at equal; exact .integer value
  | number value => cases first <;> simp [same] at equal; exact .number value
  | boolean value => cases first <;> simp [same] at equal; exact .boolean value
  | null => cases first <;> simp [same] at equal; exact .null
  | any value => cases first <;> simp [same] at equal; exact .any value
  | array type items _ ih =>
    cases first <;> simp only [same, Bool.false_eq_true] at equal
    exact .array _ items fun item present => ih item present equal
  | map type members _ ih =>
    cases first <;> simp only [same, Bool.false_eq_true] at equal
    exact .map _ members fun key value given => ih key value given equal
  | ref target model value found below _ =>
    cases first <;> simp only [same, Bool.false_eq_true, decide_eq_true_eq] at equal
    subst equal
    exact .ref _ model value found below
  | union members member value present _ ih =>
    cases first <;> simp only [same, Bool.false_eq_true] at equal
    obtain ⟨other, inside, alike⟩ := exists_left_of_forall₂ (sameMembers_iff.mp equal) present
    exact .union _ other value inside (ih alike)
  | object model members absent _ ih =>
    cases first <;> simp only [same, Bool.false_eq_true, Bool.and_eq_true] at equal
    have fields := sameFields_iff.mp equal.2
    refine .object _ members ?_ ?_
    · intro field present left_out
      obtain ⟨other, inside, alike⟩ := exists_right_of_forall₂ fields present
      rw [alike.name] at left_out
      rw [alike.required, sameDefault_isSome alike.default]
      exact absent other inside left_out
    · intro field present value given not_passed
      obtain ⟨other, inside, alike⟩ := exists_right_of_forall₂ fields present
      rw [alike.name] at given
      rw [alike.isOptional] at not_passed
      exact ih other inside value given not_passed alike.type
  | enum model text listed =>
    cases first <;> simp only [same, Bool.false_eq_true, decide_eq_true_eq] at equal
    subst equal
    exact .enum _ text listed

theorem exists_spread {set : ModelSet} {type : ModelType} {value : Json}
    (holds : Admits set type value) : ∃ member ∈ type.spread, Admits set member value := by
  unfold spread
  split
  next members =>
    cases holds with
    | union _ member _ present below => exact ⟨member, present, below⟩
  next => exact ⟨type, List.mem_singleton.mpr rfl, holds⟩

/-- Joining alternatives loses none of them: a member that is dropped is the same as one that
stays. -/
theorem unite {set : ModelSet} {types : List ModelType} {type : ModelType} {value : Json}
    (present : type ∈ types) (holds : Admits set type value) :
    Admits set (ModelType.unite types) value := by
  obtain ⟨member, part, admitted⟩ := holds.exists_spread
  have spread_out : member ∈ types.flatMap spread := List.mem_flatMap.mpr ⟨type, present, part⟩
  obtain ⟨kept, among, alike⟩ := exists_kept (List.mem_append_right [] spread_out)
  have kept_admits : Admits set kept value := by
    rcases alike with rfl | alike
    · exact admitted
    · exact admitted.of_same alike
  unfold ModelType.unite
  split
  next single only =>
    rw [only] at among
    exact List.mem_singleton.mp among ▸ kept_admits
  next => exact .union _ kept value among kept_admits

end Admits

end ResourceModels

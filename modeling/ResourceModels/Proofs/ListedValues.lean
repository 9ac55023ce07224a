import Mathlib
import ResourceModels.Proofs.Acceptance
import ResourceModels.Proofs.KeywordReading

/-!
# Listed values

A schema may list the values it allows, with a type or without one. With a type, the derived type
admits each listed value of that type. Without one, the list counts as a list of texts whatever is
in it, so it is exactly the listed texts that the derived type admits (`listed_values_admitted`).
-/

namespace ResourceModels

/-- The name of a scalar type in a schema. -/
def ScalarType.typeName : ScalarType → TypeName
  | .string => .string
  | .integer => .integer
  | .number => .number
  | .boolean => .boolean
  | .null => .null

theorem Keywords.kindOfType_typeName (keywords : Keywords) (type : ScalarType) :
    keywords.kindOfType type.typeName = keywords.scalar type := by
  cases type <;> rfl

/-- A type that is derived for a scalar admits no value of another type. -/
theorem ModelType.holds_of_admits_ofScalar {set : ModelSet} {shape : ScalarShape} {value : Json}
    (admits : Admits set (ofScalar shape) value) : shape.type.Holds value := by
  obtain ⟨type, format, values⟩ := shape
  unfold ofScalar at admits
  cases type with
  | string =>
    dsimp only at admits
    split at admits <;> cases admits <;> exact .string _
  | integer =>
    cases admits
    exact .integer _
  | number =>
    cases admits
    exact .number _
  | boolean =>
    cases admits
    exact .boolean _
  | null =>
    cases admits
    exact .null

namespace Resolver

/-- Of the values that a scalar lists, its type admits those that have the scalar's type. -/
theorem typeOf_scalar_admits (conventions : Conventions) (follow : Follow) (context : String)
    (shape : ScalarShape) (notes : Notes) :
    ∃ type, typeOf conventions follow context ⟨.scalar shape, notes⟩ = .ok type ∧
      ∀ set, ∀ entry ∈ shape.values, Admits set type entry ↔ shape.type.Holds entry := by
  rw [typeOf]
  split
  next no_variants =>
    refine ⟨_, rfl, fun set entry _ => ?_⟩
    exact ⟨ModelType.holds_of_admits_ofScalar, ModelType.admits_ofScalar⟩
  next some_variants =>
    rw [List.isEmpty_iff] at some_variants
    refine ⟨_, rfl, fun set entry listed => ⟨fun admits => ?_, fun typed => ?_⟩⟩
    · cases admits
      rw [type_of_variants some_variants]
      exact .string _
    · exact admits_enum typed (fun _ _ => listed) some_variants context notes

end Resolver

namespace Node

/-- The keywords that decide on a shape besides a type and listed values. -/
def shapeKeys : List String :=
  ["$ref", "properties", "additionalProperties", "items", "allOf", "oneOf", "anyOf"]

/-- A schema that lists values, and whose shape nothing else decides but perhaps a scalar type. -/
structure Enumerates (members : List (String × Json)) (values : List Json)
    (declared : Option ScalarType) : Prop where
  listed : Entries.get? members "enum" = some (.array values)
  type : TypeGiven members (declared.map ScalarType.typeName)
  alone : ∀ key ∈ shapeKeys, Entries.get? members key = none
  no_flag : (Extensions.ofMembers members).intOrString = false

variable {members : List (String × Json)} {values : List Json} {declared : Option ScalarType}

/-- The node is a scalar of the declared type, or else a text. Without a type and without values
it is open. -/
theorem Enumerates.kind_eq (enumerates : Enumerates members values declared) {node : Node}
    (decoded : ofJson? (.object members) = some node) :
    (∃ format, node.kind = .scalar ⟨declared.getD .string, format, values⟩) ∨
      (values = [] ∧ node.kind = .any) := by
  obtain ⟨keywords, read, rfl⟩ := ofJson?_object_eq_some decoded
  have alone := enumerates.alone
  simp only [shapeKeys, List.forall_mem_cons] at alone
  obtain ⟨no_reference, no_properties, no_additional, no_items, no_allOf, no_oneOf, no_anyOf, -⟩ :=
    alone
  replace no_reference := read.reference.of_missing no_reference
  replace no_properties := read.properties.of_missing no_properties
  replace no_additional := read.additional.of_missing no_additional
  replace no_items := read.items.of_missing no_items
  replace no_allOf := read.allOf.of_missing no_allOf
  replace no_oneOf := read.oneOf.of_missing no_oneOf
  replace no_anyOf := read.anyOf.of_missing no_anyOf
  have listed : keywords.values = values :=
    (Option.some.inj (read.values.of_get? enumerates.listed)).symm
  have no_flag := enumerates.no_flag
  rw [← read.ofMembers] at no_flag
  have not_single : keywords.allOf.length ≠ 1 := by simp [no_allOf]
  rw [Keywords.kind_toNode not_single,
    read.kind_eq enumerates.type no_reference no_flag no_oneOf no_anyOf no_allOf]
  cases declared with
  | some type =>
    refine .inl ⟨keywords.format, ?_⟩
    rw [Option.map_some, Keywords.kindOf, Keywords.kindOfType_typeName, Keywords.scalar, listed]
    rfl
  | none =>
    rw [Option.map_none, Keywords.kindOf, Keywords.kindWithoutType, no_properties, no_additional,
      no_items, listed]
    -- The guess looks at whether there are values, never at a value.
    cases values with
    | nil => exact .inr ⟨rfl, rfl⟩
    | cons value rest =>
      have as_texts : keywords.kindOfType .string =
          .scalar ⟨.string, keywords.format, value :: rest⟩ := by
        rw [Keywords.kindOfType, Keywords.scalar, listed]
      exact .inl ⟨keywords.format, as_texts⟩

/-- Which of its listed values a schema's derived type admits. A declared type admits all that have
it; where no type is declared, every value may be listed but only texts are admitted. So a listed
value of the declared type can be given where the schema is used, unless there is no declared
type and the value is neither a text nor a null that the node lets pass. -/
theorem listed_values_admitted (enumerates : Enumerates members values declared) {node : Node}
    (decoded : ofJson? (.object members) = some node) (resolver : Resolver)
    (current context : String) :
    ∃ type, resolver.type current context node = .ok type ∧ ∀ set, ∀ entry ∈ values,
      (Admits set type entry ↔ (declared.getD .string).Holds entry) ∧
      ((∀ scalar, declared = some scalar → scalar.Holds entry) →
        (Admits set type entry ∨ (entry = .null ∧ node.notes.nullable = true) ↔
          declared.isSome ∨ (∃ text, entry = .string text) ∨
            (entry = .null ∧ node.notes.nullable = true))) := by
  obtain ⟨kind, notes⟩ := node
  rw [Resolver.type, Resolver.typeWithin_eq]
  obtain ⟨format, shaped⟩ | ⟨rfl, shaped⟩ := enumerates.kind_eq decoded
  · cases shaped
    obtain ⟨type, resolved, admits⟩ := Resolver.typeOf_scalar_admits resolver.conventions _ context
      ⟨declared.getD .string, format, values⟩ notes
    refine ⟨type, resolved, fun set entry listed => ⟨admits set entry listed, fun typed => ?_⟩⟩
    rw [admits set entry listed]
    cases declared with
    | some scalar => exact iff_of_true (.inl (typed scalar rfl)) (.inl rfl)
    | none =>
      have text_iff : ScalarType.string.Holds entry ↔ ∃ text, entry = .string text := by
        constructor
        · rintro ⟨text⟩
          exact ⟨text, rfl⟩
        · rintro ⟨text, rfl⟩
          exact .string text
      rw [Option.getD_none, text_iff]
      simp
  · cases shaped
    exact ⟨.any, by rw [Resolver.typeOf], fun _ _ listed => absurd listed List.not_mem_nil⟩

namespace Levels

def levels : List Json := [.number (.integer 1), .number (.integer 2)]

def resolver : Resolver := ⟨"k8s", [], .asWritten, true⟩

/-- With the type of its values declared, a list allows what it lists. -/
theorem integers_admitted : Enumerates [("type", .string "integer"), ("enum", .array levels)] levels
      (some .integer) ∧
    ∃ node, ofJson? (.object [("type", .string "integer"), ("enum", .array levels)]) = some node ∧
      ∃ type, resolver.type "" "Level" node = .ok type ∧ ∀ set, ∀ entry ∈ levels,
        (Admits set type entry ↔ ScalarType.integer.Holds entry) ∧
        ((∀ scalar, some ScalarType.integer = some scalar → scalar.Holds entry) →
          (Admits set type entry ∨ (entry = .null ∧ node.notes.nullable = true) ↔
            (some ScalarType.integer).isSome ∨ (∃ text, entry = .string text) ∨
              (entry = .null ∧ node.notes.nullable = true))) := by
  have enumerates : Enumerates [("type", .string "integer"), ("enum", .array levels)] levels
      (some .integer) :=
    ⟨rfl, .named (.string "integer") (.single .integer) .integer rfl rfl rfl, by decide, rfl⟩
  exact ⟨enumerates, _, rfl, listed_values_admitted enumerates rfl resolver "" "Level"⟩

/-- Without it, the same list allows only texts, and none is listed. -/
theorem integers_refused : Enumerates [("enum", .array levels)] levels none ∧
    ∃ node, ofJson? (.object [("enum", .array levels)]) = some node ∧
      node.notes.nullable = false ∧
      ∃ type, resolver.type "" "Level" node = .ok type ∧
        ∀ set, ∀ entry ∈ levels, ¬ Admits set type entry := by
  refine ⟨⟨rfl, .absent nofun, by decide, rfl⟩, _, rfl, rfl, .string, rfl, fun set => ?_⟩
  simp only [levels, List.forall_mem_cons, List.not_mem_nil, false_implies, implies_true, and_true]
  exact ⟨nofun, nofun⟩

end Levels

end Node

end ResourceModels

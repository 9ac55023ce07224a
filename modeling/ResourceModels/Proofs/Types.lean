import Mathlib
import ResourceModels.Model.Basic
import ResourceModels.Proofs.Entries

/-!
# Types as trees

Types stand inside types in four places: as items, as values of a map, as members of a union and
as fields of an inline object. The induction below has the constructors for its cases, and gives
the hypothesis for every member and every field. What a mutual recursion over lists collects is
restated as a fact about members.
-/

namespace ResourceModels

namespace ModelType

@[induction_eliminator]
theorem tree_induction {P : ModelType → Prop} (string : P .string) (number : P .number)
    (integer : P .integer) (boolean : P .boolean) (null : P .null) (dateTime : P .dateTime)
    (date : P .date) (binary : P .binary) (any : P .any) (array : ∀ item, P item → P (.array item))
    (map : ∀ value, P value → P (.map value)) (ref : ∀ target, P (.ref target))
    (union : ∀ members : List ModelType, (∀ member ∈ members, P member) → P (.union members))
    (object : ∀ model : ObjectModel ModelType, (∀ field ∈ model.fields, P field.type) →
      P (.object model))
    (enum : ∀ model, P (.enum model)) (type : ModelType) : P type := by
  refine @ModelType.rec P (fun members => ∀ member ∈ members, P member)
    (fun model => ∀ field ∈ model.fields, P field.type)
    (fun fields => ∀ field ∈ fields, P field.type) (fun field => P field.type)
    string number integer boolean null dateTime date binary any array map ref union object enum
    ?_ ?_ ?_ ?_ ?_ ?_ type
  · exact fun _ absent => absurd absent List.not_mem_nil
  · intro head tail head_holds tail_holds member present
    rcases List.mem_cons.mp present with rfl | present
    · exact head_holds
    · exact tail_holds member present
  · exact fun _ _ _ fields_hold => fields_hold
  · exact fun _ absent => absurd absent List.not_mem_nil
  · intro head tail head_holds tail_holds field present
    rcases List.mem_cons.mp present with rfl | present
    · exact head_holds
    · exact tail_holds field present
  · exact fun _ _ _ _ _ _ _ holds => holds

theorem mem_refsOfMembers {members : List ModelType} {target : ClassRef} :
    target ∈ refsOfMembers members ↔ ∃ member ∈ members, target ∈ member.refs := by
  induction members with
  | nil => simp [refsOfMembers]
  | cons member rest ih => simp [refsOfMembers, ih]

theorem mem_refsOfFields {fields : List (Field ModelType)} {target : ClassRef} :
    target ∈ refsOfFields fields ↔ ∃ field ∈ fields, target ∈ field.type.refs := by
  induction fields with
  | nil => simp [refsOfFields]
  | cons field rest ih => simp [refsOfFields, ih]

mutual

/-- Whether an object or an enumeration without a declaration stands somewhere in a type. -/
def hasInline : ModelType → Bool
  | .object _ | .enum _ => true
  | .array item => item.hasInline
  | .map value => value.hasInline
  | .union members => anyHasInline members
  | _ => false

def anyHasInline : List ModelType → Bool
  | [] => false
  | member :: rest => member.hasInline || anyHasInline rest

end

theorem anyHasInline_eq_false {members : List ModelType} :
    anyHasInline members = false ↔ ∀ member ∈ members, member.hasInline = false := by
  induction members with
  | nil => simp [anyHasInline]
  | cons member rest ih => simp [anyHasInline, ih]

mutual

/-- The objects and enumerations that stand inside a type, each before what stands inside it. -/
def inlineModels : ModelType → List Model
  | .object model => .object model :: inlineModelsOfFields model.fields
  | .enum model => [.enum model]
  | .array item => item.inlineModels
  | .map value => value.inlineModels
  | .union members => inlineModelsOfMembers members
  | _ => []

def inlineModelsOfMembers : List ModelType → List Model
  | [] => []
  | member :: rest => member.inlineModels ++ inlineModelsOfMembers rest

def inlineModelsOfFields : List (Field ModelType) → List Model
  | [] => []
  | field :: rest => field.type.inlineModels ++ inlineModelsOfFields rest

end

theorem mem_inlineModelsOfMembers {members : List ModelType} {model : Model} :
    model ∈ inlineModelsOfMembers members ↔ ∃ member ∈ members, model ∈ member.inlineModels := by
  induction members with
  | nil => simp [inlineModelsOfMembers]
  | cons member rest ih => simp [inlineModelsOfMembers, ih]

theorem mem_inlineModelsOfFields {fields : List (Field ModelType)} {model : Model} :
    model ∈ inlineModelsOfFields fields ↔ ∃ field ∈ fields, model ∈ field.type.inlineModels := by
  induction fields with
  | nil => simp [inlineModelsOfFields]
  | cons field rest ih => simp [inlineModelsOfFields, ih]

end ModelType

namespace Model

/-- The types that a declaration is made of. -/
def types : Model → List ModelType
  | .object model => model.fields.map Field.type
  | .enum _ => []
  | .alias model => [model.target]

theorem mem_refs {model : Model} {target : ClassRef} :
    target ∈ model.refs ↔ ∃ type ∈ model.types, target ∈ type.refs := by
  cases model <;> simp [refs, types, ModelType.mem_refsOfFields]

/-- What stands inline in a declaration. -/
def inlineModels (model : Model) : List Model := model.types.flatMap ModelType.inlineModels

theorem mem_inlineModels {model inner : Model} :
    inner ∈ model.inlineModels ↔ ∃ type ∈ model.types, inner ∈ type.inlineModels :=
  List.mem_flatMap

end Model

/-- What stands inside a type refers to no more than the type does. -/
theorem ModelType.refs_subset_of_mem_inlineModels {type : ModelType} {inner : Model}
    (inside : inner ∈ type.inlineModels) : inner.refs ⊆ type.refs := by
  induction type with
  | array item ih => exact ih inside
  | map value ih => exact ih inside
  | union members ih =>
    intro target referred
    obtain ⟨member, listed, inside⟩ := mem_inlineModelsOfMembers.mp inside
    exact mem_refsOfMembers.mpr ⟨member, listed, ih member listed inside referred⟩
  | object model ih =>
    rcases List.mem_cons.mp inside with rfl | inside
    · exact fun _ referred => referred
    · intro target referred
      obtain ⟨field, listed, inside⟩ := mem_inlineModelsOfFields.mp inside
      exact mem_refsOfFields.mpr ⟨field, listed, ih field listed inside referred⟩
  | enum model =>
    obtain rfl := List.mem_singleton.mp inside
    exact fun _ referred => referred
  | _ => cases inside

theorem Model.refs_subset_of_mem_inlineModels {model inner : Model}
    (inside : inner ∈ model.inlineModels) : inner.refs ⊆ model.refs := by
  intro target referred
  obtain ⟨type, listed, inside⟩ := mem_inlineModels.mp inside
  exact mem_refs.mpr ⟨type, listed, ModelType.refs_subset_of_mem_inlineModels inside referred⟩

end ResourceModels

import Mathlib
import ResourceModels.Proofs.Failures
import ResourceModels.Proofs.GivenNames

/-!
# Where the defaults of fields come from

The kind and the API version of a resource become defaults before the derivation starts, and an
empty mapping is dropped once the type of its field is known. `FieldRule` says what default the
field of a property has in the end. The fields made from the properties of an object follow it,
promotion keeps it, and so does exchanging a field for the same one, as far as defaults can be told
apart. Every object of a derived module is made from an object node (`exists_object_node`), and
every object node with properties that is reached has its object in a module
(`exists_derived_object`).
-/

namespace ResourceModels

def isEmptyMapping (default : Option Json) : Bool := (default.map Json.isEmptyObject).getD false

/-- The default of a field made from a property that stands in an object beside the noted resource:
its kind, its API version, or else the default of the property itself, unless that is the empty
mapping and the field is no mapping. -/
structure FieldRule (alike : Option Json → Option Json → Prop) (resource : ResourceKind)
    (property : String × Node) (field : Field ModelType) : Prop where
  name : field.name = property.1
  kind : property.1 = "kind" → resource.kind ≠ "" → field.default = some (.string resource.kind)
  version : property.1 = "apiVersion" → resource.group ≠ "" → resource.version ≠ "" →
    field.default = some (.string (resource.group ++ "/" ++ resource.version))
  other : ¬ (property.1 = "kind" ∧ resource.kind ≠ "") →
    ¬ (property.1 = "apiVersion" ∧ resource.group ≠ "" ∧ resource.version ≠ "") →
    alike field.default (if isEmptyMapping property.2.notes.default && !field.type.isMap then none
      else property.2.notes.default)

/-- Defaults that are the same, or cannot be told apart. -/
def Interchangeable (first second : Option Json) : Prop :=
  first = second ∨ ModelType.sameDefault first second = true

/-- A text can be told apart from everything else. -/
theorem eq_of_sameDefault_text {default : Option Json} {text : String}
    (equal : ModelType.sameDefault default (some (.string text)) = true) :
    default = some (.string text) := by
  cases default with
  | none => cases equal
  | some value =>
    cases value <;> simp only [ModelType.sameDefault, Json.same, Bool.false_eq_true,
      decide_eq_true_eq] at equal
    rw [equal]

theorem ModelType.same_isMap {first second : ModelType} (equal : same first second = true) :
    first.isMap = second.isMap := by
  cases first <;> cases second <;> simp [same, isMap] at equal ⊢

namespace Conventions

theorem adjustField_default (field : Field ModelType) :
    (adjustField .kubernetes field).default =
      if isEmptyMapping field.default && !field.type.isMap then none else field.default := by
  unfold adjustField isEmptyMapping
  dsimp only
  split <;> rfl

variable {extensions : Extensions} {property : String × Node}

theorem defaultOf_kind (is_kind : property.1 = "kind") (known : extensions.resourceKind.kind ≠ "") :
    defaultOf .kubernetes extensions property = some (.string extensions.resourceKind.kind) :=
  if_pos ⟨is_kind, known⟩

theorem defaultOf_version (is_version : property.1 = "apiVersion")
    (group : extensions.resourceKind.group ≠ "") (version : extensions.resourceKind.version ≠ "") :
    defaultOf .kubernetes extensions property =
      some (.string (extensions.resourceKind.group ++ "/" ++ extensions.resourceKind.version)) := by
  have no_kind : property.1 ≠ "kind" := by
    rw [is_version]
    decide
  have known : extensions.resourceKind.apiVersion? =
      some (extensions.resourceKind.group ++ "/" ++ extensions.resourceKind.version) := by
    simp [ResourceKind.apiVersion?, group, version]
  unfold defaultOf
  dsimp only
  rw [if_neg (fun both => no_kind both.1), known]
  exact if_pos is_version

theorem defaultOf_other
    (no_kind : ¬ (property.1 = "kind" ∧ extensions.resourceKind.kind ≠ ""))
    (no_version : ¬ (property.1 = "apiVersion" ∧ extensions.resourceKind.group ≠ "" ∧
      extensions.resourceKind.version ≠ "")) :
    defaultOf .kubernetes extensions property = property.2.notes.default := by
  unfold defaultOf
  dsimp only
  rw [if_neg no_kind]
  cases known : extensions.resourceKind.apiVersion? with
  | none => rfl
  | some version =>
    have both_known : extensions.resourceKind.group ≠ "" ∧
        extensions.resourceKind.version ≠ "" := by
      unfold ResourceKind.apiVersion? at known
      split at known
      next => cases known
      next unknown => simpa using unknown
    exact if_neg fun is_version => no_version ⟨is_version, both_known⟩

end Conventions

namespace FieldRule

/-- The field that the derivation makes from a property of an adjusted object. -/
theorem of_property (extensions : Extensions) (required : List String) (property : String × Node)
    (type : ModelType) : FieldRule Eq extensions.resourceKind property
      (Resolver.fieldOf .kubernetes required (property.1,
        (Conventions.adjustNode .kubernetes property.2).noteDefault
          (Conventions.defaultOf .kubernetes extensions property)) type) where
  name := Conventions.adjustField_name ..
  kind := by
    intro is_kind known
    rw [Resolver.fieldOf, Conventions.adjustField_default]
    dsimp only [Node.noteDefault]
    rw [Conventions.defaultOf_kind is_kind known]
    rfl
  version := by
    intro is_version group version
    rw [Resolver.fieldOf, Conventions.adjustField_default]
    dsimp only [Node.noteDefault]
    rw [Conventions.defaultOf_version is_version group version]
    rfl
  other := by
    intro no_kind no_version
    rw [Resolver.fieldOf, Conventions.adjustField_default, Conventions.adjustField_type]
    dsimp only [Node.noteDefault]
    rw [Conventions.defaultOf_other no_kind no_version]
    rfl

variable {alike : Option Json → Option Json → Prop} {resource : ResourceKind}
  {property : String × Node} {field : Field ModelType}

/-- Moving out what stands inline in the type changes neither the default nor whether the field is
a mapping. -/
theorem hoisted (rule : FieldRule alike resource property field) {path : ModulePath}
    {made : List Model} {after : Field ModelType}
    (hoisted : Promotion.HoistedField path made field after) :
    FieldRule alike resource property after := by
  obtain ⟨type, rfl, related⟩ := hoisted
  refine ⟨rule.name, rule.kind, rule.version, fun no_kind no_version => ?_⟩
  rw [related.isMap]
  exact rule.other no_kind no_version

/-- Only a mapping has the empty mapping for its default. -/
theorem isMap (rule : FieldRule Eq resource property field)
    (empty : isEmptyMapping field.default = true) : field.type.isMap = true := by
  by_cases is_kind : property.1 = "kind" ∧ resource.kind ≠ ""
  · rw [rule.kind is_kind.1 is_kind.2] at empty
    cases empty
  by_cases is_version : property.1 = "apiVersion" ∧ resource.group ≠ "" ∧ resource.version ≠ ""
  · rw [rule.version is_version.1 is_version.2.1 is_version.2.2] at empty
    cases empty
  by_contra no_map
  have same := rule.other is_kind is_version
  rw [Bool.not_eq_true] at no_map
  rw [no_map, Bool.not_false, Bool.and_true] at same
  split at same
  next =>
    rw [same] at empty
    cases empty
  next not_empty =>
    rw [same] at empty
    exact not_empty empty

theorem interchangeable (rule : FieldRule Eq resource property field) :
    FieldRule Interchangeable resource property field :=
  { rule with other := fun no_kind no_version => .inl (rule.other no_kind no_version) }

/-- A field that is the same follows the rule as far as defaults can be told apart. -/
theorem of_same (rule : FieldRule Eq resource property field) {kept : Field ModelType}
    (equal : ModelType.SameField kept field) :
    FieldRule Interchangeable resource property kept where
  name := equal.name.trans rule.name
  kind := fun is_kind known => eq_of_sameDefault_text (rule.kind is_kind known ▸ equal.default)
  version := fun is_version group version =>
    eq_of_sameDefault_text (rule.version is_version group version ▸ equal.default)
  other := by
    intro no_kind no_version
    rw [ModelType.same_isMap equal.type, ← rule.other no_kind no_version]
    exact .inr equal.default

end FieldRule

namespace Resolver

variable {resolver : Resolver}

/-- A visited node is reached from a declared schema. -/
theorem Visits.reachedFrom {context : String} {node : Node}
    (visited : resolver.Visits context node) :
    ∃ name, ReachedFrom resolver.collapse resolver.nodes name node := by
  induction visited with
  | schema name node known kept =>
    exact ⟨name, node, known, isCollapsed_eq_false_iff.mp kept, .refl⟩
  | property context shape notes property above inside ih =>
    exact ih.imp fun name reached =>
      reached.tail (.inside _ _ (.property shape notes property inside))
  | additional context shape notes node above no_properties given ih =>
    exact ih.imp fun name reached =>
      reached.tail (.inside _ _ (.additional shape notes node no_properties given))
  | items context items notes above ih =>
    exact ih.imp fun name reached => reached.tail (.inside _ _ (.items items notes))
  | variant context variants notes variant above inside ih =>
    exact ih.imp fun name reached =>
      reached.tail (.inside _ _ (.variant variants notes variant inside))
  | replaced context path notes target node above valid known collapsed ih =>
    obtain ⟨collapsing, no_model⟩ := isCollapsed_eq_true_iff.mp collapsed
    exact ih.imp fun name reached =>
      reached.tail (.replaced path notes target node collapsing valid known no_model)

/-- What stands inline in the type of a schema is declared, or stands inline in what is. -/
theorem inlineModels_subset_declaration {name : String} {body : Node} {type : ModelType}
    (typed : resolver.type name (resolver.classRef name).name body = .ok type) :
    type.inlineModels ⊆ declaration (resolver.classRef name).name body type ::
      (declaration (resolver.classRef name).name body type).inlineModels := by
  cases model : body.isModel with
  | false =>
    have as_alias : declaration (resolver.classRef name).name body type =
        .alias ⟨(resolver.classRef name).name, body.notes.description, type⟩ :=
      if_neg (by rw [model]; exact Bool.false_ne_true)
    rw [as_alias]
    intro inner inside
    exact List.mem_cons_of_mem _ (Model.mem_inlineModels.mpr ⟨type, List.mem_cons_self, inside⟩)
  | true =>
    rw [Resolver.type, typeWithin_eq] at typed
    obtain ⟨kind, notes⟩ := body
    cases kind with
    | object shape =>
      obtain ⟨no_properties, value, found, rfl⟩ | ⟨fields, found, rfl⟩ := typeOf_object_eq_ok typed
      · rw [Node.additional_eq_none model no_properties] at found
        cases found
        exact List.nil_subset _
      · rw [show declaration _ _ _ = _ from if_pos model]
        intro inner inside
        rcases List.mem_cons.mp inside with rfl | inside
        · exact List.mem_cons_self
        · obtain ⟨field, listed, inside⟩ := ModelType.mem_inlineModelsOfFields.mp inside
          have among : field.type ∈ Model.types (.object
              ⟨(resolver.classRef name).name, notes.description, fields⟩) :=
            List.mem_map_of_mem listed
          exact List.mem_cons_of_mem _ (Model.mem_inlineModels.mpr ⟨field.type, among, inside⟩)
    | scalar shape =>
      have some_variants := Node.variants_nonempty model
      rw [typeOf, if_neg some_variants] at typed
      cases typed
      rw [show declaration _ _ _ = _ from if_pos model]
      exact List.cons_subset_cons _ (List.nil_subset _)
    | _ => cases model

end Resolver

theorem AdjustedTo.exists_object {conventions : Conventions} {before : Node}
    {adjusted_shape : ObjectShape Node} {adjusted_notes : Notes}
    (adjusted : AdjustedTo conventions before ⟨.object adjusted_shape, adjusted_notes⟩) :
    ∃ shape notes, before = ⟨.object shape, notes⟩ ∧
      adjusted_shape.properties = shape.properties.map fun property => (property.1,
        (conventions.adjustNode property.2).noteDefault
          (conventions.defaultOf notes.extensions property)) := by
  obtain ⟨default, same⟩ := adjusted
  have same_kind : Kind.object adjusted_shape = (conventions.adjustNode before).kind :=
    congrArg Node.kind same
  obtain ⟨kind, notes⟩ := before
  cases kind with
  | object shape =>
    rw [conventions.adjustNode_object_eq] at same_kind
    cases same_kind
    exact ⟨shape, notes, rfl, rfl⟩
  | _ => cases same_kind

/-- The fields made from the properties of an adjusted object follow the rule. -/
theorem FieldRule.of_fieldsOf {extensions : Extensions} {properties : List (String × Node)}
    {follow : Follow} {required : List String} {fields : List (Field ModelType)}
    (success : Resolver.fieldsOf .kubernetes follow required
      (properties.map fun property => (property.1,
        (Conventions.adjustNode .kubernetes property.2).noteDefault
          (Conventions.defaultOf .kubernetes extensions property))) = .ok fields) :
    List.Forall₂ (FieldRule Eq extensions.resourceKind) properties fields := by
  have made := List.forall₂_map_left_iff.mp (Resolver.fieldsOf_eq_ok_iff.mp success)
  refine made.imp fun property field made => ?_
  obtain ⟨type, -, rfl⟩ := made
  exact .of_property extensions required property type

namespace Derivation

/-- Every object of a derived module is made from an object node of the document. -/
theorem exists_object_node {bucket : String} {conventions : Conventions} {collapse : Bool}
    {adjusted : Entries String Node} {declared : List (ModulePath × Model)}
    (related : List.Forall₂ (Resolver.Declares ⟨bucket, adjusted, conventions, collapse⟩)
      ((Entries.keys adjusted).filter
        (Resolver.isDeclared ⟨bucket, adjusted, conventions, collapse⟩)) declared)
    {home : Module} (grouped : home ∈ Module.group declared) {model : ObjectModel ModelType}
    (inside : .object model ∈ home.promoteInline.models) :
    ∃ name shape notes follow fields,
      ReachedFrom collapse adjusted name ⟨.object shape, notes⟩ ∧
      Resolver.fieldsOf conventions follow shape.required shape.properties = .ok fields ∧
      List.Forall₂ (Promotion.HoistedField home.path home.promoteInline.models) fields
        model.fields := by
  obtain ⟨owner, listed, origin⟩ := home.exists_origin inside
  obtain ⟨key, -, -, node, known, kept, success⟩ :=
    exists_left_of_forall₂ related (Module.mem_of_mem_group grouped listed)
  obtain ⟨-, hoisted⟩ | ⟨source, standing, made⟩ := origin
  · cases owner with
    | object plain =>
      obtain ⟨_, _, same, below⟩ := hoisted
      cases same
      obtain ⟨shape, fields, kind, -, found, same⟩ | ⟨_, _, _, same⟩ | ⟨_, _, same⟩ :=
        Resolver.declare_eq_ok success <;> cases same
      obtain ⟨_, notes⟩ := node
      obtain rfl : _ = Kind.object shape := kind
      have reached : ReachedFrom collapse adjusted key ⟨.object shape, notes⟩ :=
        ⟨_, known, Resolver.isCollapsed_eq_false_iff.mp kept, .refl⟩
      exact ⟨key, shape, notes, _, fields, reached, found, below⟩
    | enum plain =>
      obtain ⟨_, same⟩ := hoisted
      cases same
    | «alias» plain =>
      obtain ⟨_, same, -⟩ := hoisted
      cases same
  · cases (Resolver.given_of_declare known kept success).2 source standing with
    | object context shape notes follow fields visited nonempty found =>
      obtain ⟨_, _, same, below⟩ := made.hoisted
      cases same
      obtain ⟨name, reached⟩ := visited.reachedFrom
      exact ⟨name, shape, notes, follow, fields, reached, found, below⟩
    | enum context shape notes visited nonempty =>
      obtain ⟨_, same⟩ := made.hoisted
      cases same

/-- Every object node with properties that is reached has an object in a derived module. Where it is
an alternative beside one that is the same, that one stands for it. -/
theorem exists_derived_object {bucket : String} {conventions : Conventions} {collapse : Bool}
    {adjusted : Entries String Node} {declared : List (ModulePath × Model)}
    (related : List.Forall₂ (Resolver.Declares ⟨bucket, adjusted, conventions, collapse⟩)
      ((Entries.keys adjusted).filter
        (Resolver.isDeclared ⟨bucket, adjusted, conventions, collapse⟩)) declared)
    {name : String} {shape : ObjectShape Node} {notes : Notes}
    (reached : ReachedFrom collapse adjusted name ⟨.object shape, notes⟩)
    (nonempty : shape.properties ≠ []) :
    ∃ follow fields kept, ∃ home ∈ Module.group declared, ∃ model,
      Resolver.fieldsOf conventions follow shape.required shape.properties = .ok fields ∧
      (kept = fields ∨ List.Forall₂ ModelType.SameField kept fields) ∧
      .object model ∈ home.promoteInline.models ∧
      List.Forall₂ (Promotion.HoistedField home.path home.promoteInline.models) kept
        model.fields := by
  let resolver : Resolver := ⟨bucket, adjusted, conventions, collapse⟩
  obtain ⟨body, known, kept, reaches⟩ := reached
  obtain ⟨plain, declare, home, grouped, own, promoted, -, hoisted⟩ :=
    exists_promoted_declaration related known (Resolver.isCollapsed_eq_false_iff.mpr kept)
  rw [Resolver.declare_eq] at declare
  obtain ⟨type, typed, rfl⟩ := map_eq_ok declare
  have declared_with := Resolver.inlineModels_subset_declaration typed
  obtain ⟨inlining, comes⟩ : ∃ inlining, resolver.ComesUpon body inlining ⟨.object shape, notes⟩ :=
    Resolver.exists_comesUpon reaches
  rw [Resolver.type, Resolver.typeWithin_eq] at typed
  obtain ⟨context, part, part_typed, objects_kept⟩ := Resolver.typed_of_comesUpon typed comes
  obtain ⟨empty, -⟩ | ⟨fields, found, rfl⟩ := Resolver.typeOf_object_eq_ok part_typed
  · exact absurd empty nonempty
  -- Joining alternatives may have dropped the object, but only beside one that is the same.
  obtain ⟨object, listed, alike⟩ := objects_kept _ List.mem_cons_self
  have emitted : ∃ own ∈ home.promoteInline.models,
      Promotion.HoistedModel home.path home.promoteInline.models (.object object) own := by
    rcases List.mem_cons.mp (declared_with listed) with same | inside
    · exact ⟨own, promoted, same ▸ hoisted⟩
    · exact hoisted.exists_declaration inside
  obtain ⟨_, present, _, _, rfl, below⟩ := emitted
  refine ⟨_, fields, object.fields, home, grouped, _, found, ?_, present, below⟩
  obtain rfl | equal := alike
  · exact .inl rfl
  · rw [ModelType.same, Bool.and_eq_true] at equal
    exact .inr (ModelType.sameFields_iff.mp equal.2)

end Derivation

end ResourceModels

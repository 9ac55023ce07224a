import Mathlib
import ResourceModels.Derivation.Resolver
import ResourceModels.Proofs.Nodes
import ResourceModels.Proofs.Steps
import ResourceModels.Proofs.Types

/-!
# The types that resolution can give

What the resolver does at each shape, member by member, and from it an induction over all types
it can answer with: a property of types that the constructors keep, and that references to declared
schemas have, is a property of every answer (`followWithin_induction`, `typeOf_induction`). The
induction is on the node, and inside it on the number of replacements that may still be nested.
-/

namespace ResourceModels

variable {conventions : Conventions} {follow : Follow}

namespace Resolver

theorem typesOf_eq_ok_iff {context : String} {nodes : List Node} {types : List ModelType} :
    typesOf conventions follow context nodes = .ok types ↔
      List.Forall₂ (fun node type => typeOf conventions follow context node = .ok type)
        nodes types := by
  induction nodes generalizing types with
  | nil => simp [typesOf, eq_comm]
  | cons node rest ih =>
    rw [typesOf]
    constructor
    · intro success
      split at success
      next => cases success
      next type first =>
        split at success
        next => cases success
        next others rest_types =>
          cases success
          exact .cons first (ih.mp rest_types)
    · intro related
      cases related with
      | cons first others => rw [first, ih.mpr others]

/-- The field of a property, once its type is known. -/
def fieldOf (conventions : Conventions) (required : List String) (property : String × Node)
    (type : ModelType) : Field ModelType :=
  conventions.adjustField
    { name := property.1
      type
      required := property.1 ∈ required
      nullable := property.2.notes.nullable
      description := property.2.notes.description
      default := property.2.notes.default
      readOnly := property.2.notes.readOnly }

section

variable (conventions : Conventions) (follow : Follow) (context : String)

theorem typeOf_array (items : Node) (notes : Notes) :
    typeOf conventions follow context ⟨.array items, notes⟩ =
      (typeOf conventions follow (context ++ "Item") items).map .array := by
  rw [typeOf]
  cases typeOf conventions follow (context ++ "Item") items <;> rfl

theorem typeOf_union (variants : List Node) (notes : Notes) :
    typeOf conventions follow context ⟨.union variants, notes⟩ =
      (typesOf conventions follow context variants).map .unite := by
  rw [typeOf]
  cases typesOf conventions follow context variants <;> rfl

theorem typeOf_object (shape : ObjectShape Node) (notes : Notes) :
    typeOf conventions follow context ⟨.object shape, notes⟩ =
      if shape.properties.isEmpty then
        (mapType conventions follow context shape.additional).map .map
      else
        (fieldsOf conventions follow shape.required shape.properties).map fun fields =>
          .object ⟨context, notes.description, fields⟩ := by
  rw [typeOf]
  split
  · cases mapType conventions follow context shape.additional <;> rfl
  · cases fieldsOf conventions follow shape.required shape.properties <;> rfl

theorem typesOf_cons (node : Node) (rest : List Node) :
    typesOf conventions follow context (node :: rest) =
      typeOf conventions follow context node >>= fun type =>
        (typesOf conventions follow context rest).map (type :: ·) := by
  rw [typesOf]
  cases typeOf conventions follow context node with
  | error error => rfl
  | ok type => cases typesOf conventions follow context rest <;> rfl

theorem fieldsOf_cons (required : List String) (property : String × Node)
    (rest : List (String × Node)) :
    fieldsOf conventions follow required (property :: rest) =
      typeOf conventions follow (suggestedClassName property.1) property.2 >>= fun type =>
        (fieldsOf conventions follow required rest).map
          (fieldOf conventions required property type :: ·) := by
  obtain ⟨name, node⟩ := property
  rw [fieldsOf]
  cases typeOf conventions follow (suggestedClassName name) node with
  | error error => rfl
  | ok type => cases fieldsOf conventions follow required rest <;> rfl

end

/-- A field comes from a property whose type is known. -/
def FieldFrom (conventions : Conventions) (follow : Follow) (required : List String)
    (property : String × Node) (field : Field ModelType) : Prop :=
  ∃ type, typeOf conventions follow (suggestedClassName property.1) property.2 = .ok type ∧
    field = fieldOf conventions required property type

theorem fieldsOf_eq_ok_iff {required : List String} {properties : List (String × Node)}
    {fields : List (Field ModelType)} :
    fieldsOf conventions follow required properties = .ok fields ↔
      List.Forall₂ (FieldFrom conventions follow required) properties fields := by
  induction properties generalizing fields with
  | nil => simp [fieldsOf, eq_comm]
  | cons property rest ih =>
    obtain ⟨name, node⟩ := property
    rw [fieldsOf]
    constructor
    · intro success
      split at success
      next => cases success
      next type first =>
        dsimp only at success
        split at success
        next => cases success
        next others rest_fields =>
          cases success
          exact .cons ⟨type, first, rfl⟩ (ih.mp rest_fields)
    · intro related
      cases related with
      | cons first others =>
        obtain ⟨type, first, rfl⟩ := first
        rw [first]
        dsimp only
        rw [ih.mpr others]
        rfl

end Resolver

/-- A property of types that every way of making a type keeps, following references apart. Unions
are made of at least so many alternatives. -/
structure ModelType.Constructed (least : Nat) (P : ModelType → Prop) : Prop where
  any : P .any
  scalar : ∀ shape, P (.ofScalar shape)
  enum : ∀ model, P (.enum model)
  array : ∀ item, P item → P (.array item)
  map : ∀ value, P value → P (.map value)
  object : ∀ model : ObjectModel ModelType,
    (∀ field ∈ model.fields, P field.type) → P (.object model)
  unite : ∀ types : List ModelType, least ≤ types.length → (∀ type ∈ types, P type) →
    P (.unite types)

/-- Adjusting a field changes nothing but its default. -/
theorem Conventions.adjustField_eq (conventions : Conventions) (field : Field ModelType) :
    conventions.adjustField field =
      { field with default := (conventions.adjustField field).default } := by
  cases conventions with
  | asWritten => rfl
  | kubernetes =>
    unfold Conventions.adjustField
    dsimp only
    split <;> rfl

@[simp] theorem Conventions.adjustField_name (conventions : Conventions) (field : Field ModelType) :
    (conventions.adjustField field).name = field.name := by
  rw [adjustField_eq]

@[simp] theorem Conventions.adjustField_required (conventions : Conventions)
    (field : Field ModelType) : (conventions.adjustField field).required = field.required := by
  rw [adjustField_eq]

@[simp] theorem Conventions.adjustField_nullable (conventions : Conventions)
    (field : Field ModelType) : (conventions.adjustField field).nullable = field.nullable := by
  rw [adjustField_eq]

@[simp] theorem Conventions.adjustField_type (conventions : Conventions) (field : Field ModelType) :
    (conventions.adjustField field).type = field.type := by
  rw [adjustField_eq]

namespace Resolver

section

variable {context : String} {notes : Notes} {type : ModelType}

theorem mapType_eq_ok {additional : Option Node}
    (success : mapType conventions follow context additional = .ok type) :
    (additional = none ∧ type = .any) ∨
      ∃ node, additional = some node ∧ typeOf conventions follow context node = .ok type := by
  cases additional with
  | none =>
    rw [mapType] at success
    exact .inl ⟨rfl, (Except.ok.inj success).symm⟩
  | some node =>
    rw [mapType] at success
    exact .inr ⟨node, rfl, success⟩

/-- An object without properties is a map, any other has a field for each property. -/
theorem typeOf_object_eq_ok {shape : ObjectShape Node}
    (success : typeOf conventions follow context ⟨.object shape, notes⟩ = .ok type) :
    (shape.properties = [] ∧ ∃ value,
      mapType conventions follow context shape.additional = .ok value ∧ type = .map value) ∨
    ∃ fields, fieldsOf conventions follow shape.required shape.properties = .ok fields ∧
      type = .object ⟨context, notes.description, fields⟩ := by
  rw [typeOf] at success
  split at success
  next no_properties =>
    split at success
    next value found =>
      have same := Except.ok.inj success
      exact .inl ⟨List.isEmpty_iff.mp no_properties, value, found, same.symm⟩
    next => cases success
  next =>
    split at success
    next fields found =>
      have same := Except.ok.inj success
      exact .inr ⟨fields, found, same.symm⟩
    next => cases success

theorem typeOf_array_eq_ok {items : Node}
    (success : typeOf conventions follow context ⟨.array items, notes⟩ = .ok type) :
    ∃ item, typeOf conventions follow (context ++ "Item") items = .ok item ∧
      type = .array item := by
  rw [typeOf] at success
  split at success
  next item found =>
    have same := Except.ok.inj success
    exact ⟨item, found, same.symm⟩
  next => cases success

theorem typeOf_scalar_eq_ok {shape : ScalarShape}
    (success : typeOf conventions follow context ⟨.scalar shape, notes⟩ = .ok type) :
    type = .ofScalar shape ∨
      (shape.variants ≠ [] ∧ type = .enum (enumModel context notes shape)) := by
  rw [typeOf] at success
  split at success
  next => exact .inl (Except.ok.inj success).symm
  next some_variants =>
    have nonempty : shape.variants ≠ [] := fun empty => some_variants (by rw [empty]; rfl)
    exact .inr ⟨nonempty, (Except.ok.inj success).symm⟩

theorem typeOf_union_eq_ok {variants : List Node}
    (success : typeOf conventions follow context ⟨.union variants, notes⟩ = .ok type) :
    ∃ types, List.Forall₂ (fun variant type => typeOf conventions follow context variant = .ok type)
      variants types ∧ type = .unite types := by
  rw [typeOf] at success
  split at success
  next types found =>
    have same := Except.ok.inj success
    exact ⟨types, typesOf_eq_ok_iff.mp found, same.symm⟩
  next => cases success

end

/-- Only the references in the node are followed. -/
theorem typeOf_induction_of_references {least : Nat} {P : ModelType → Prop}
    (closed : ModelType.Constructed least P) {node : Node} (wide : node.Branches least)
    (follows : ∀ path ∈ node.references, ∀ context type, follow path context = .ok type → P type)
    {context : String} {type : ModelType}
    (success : typeOf conventions follow context node = .ok type) : P type := by
  induction node generalizing context type with
  | object shape notes properties_hold additional_holds =>
    obtain ⟨-, value, found, rfl⟩ | ⟨fields, found, rfl⟩ := typeOf_object_eq_ok success
    · refine closed.map value ?_
      obtain ⟨-, rfl⟩ | ⟨additional, given, found⟩ := mapType_eq_ok found
      · exact closed.any
      · have below := @Node.postorder_additional _ notes _ given
        exact additional_holds additional given (wide.of_postorder below)
          (fun path inside => follows path (Node.references_subset below inside)) found
    · refine closed.object _ fun field present => ?_
      obtain ⟨property, inside, type, resolved, rfl⟩ :=
        exists_left_of_forall₂ (fieldsOf_eq_ok_iff.mp found) present
      rw [fieldOf, Conventions.adjustField_type]
      have below := @Node.postorder_property _ notes _ inside
      exact properties_hold property inside (wide.of_postorder below)
        (fun path listed => follows path (Node.references_subset below listed)) resolved
  | array items notes ih =>
    obtain ⟨item, found, rfl⟩ := typeOf_array_eq_ok success
    exact closed.array item (ih (wide.of_postorder Node.postorder_items)
      (fun path listed => follows path (Node.references_subset Node.postorder_items listed)) found)
  | scalar shape notes =>
    obtain rfl | ⟨-, rfl⟩ := typeOf_scalar_eq_ok success
    · exact closed.scalar shape
    · exact closed.enum _
  | reference path notes =>
    rw [typeOf] at success
    exact follows path (Node.mem_references_reference path notes) context type success
  | union variants notes ih =>
    obtain ⟨types, found, rfl⟩ := typeOf_union_eq_ok success
    have enough := wide _ (Node.mem_postorder_self _) variants rfl
    refine closed.unite types (found.length_eq ▸ enough) fun type present => ?_
    obtain ⟨variant, inside, resolved⟩ := exists_left_of_forall₂ found present
    have below := @Node.postorder_variant notes _ _ inside
    exact ih variant inside (wide.of_postorder below)
      (fun path listed => follows path (Node.references_subset below listed)) resolved
  | any notes =>
    rw [typeOf] at success
    cases success
    exact closed.any

theorem typeOf_induction {least : Nat} {P : ModelType → Prop}
    (closed : ModelType.Constructed least P)
    (follows : ∀ path context type, follow path context = .ok type → P type) {node : Node}
    (wide : node.Branches least) {context : String} {type : ModelType}
    (success : typeOf conventions follow context node = .ok type) : P type :=
  typeOf_induction_of_references closed wide (fun path _ => follows path) success

/-- How references are followed inside the replacements of the schemas in `inlining`. -/
def followWithin (resolver : Resolver) (current : String) : Nat → List String → Follow
  | 0, _ => resolver.reference current fun _ _ _ => .ok .any
  | budget + 1, inlining =>
    resolver.reference current fun target context node =>
      if target ∈ inlining then .ok .any
      else resolver.typeWithin current budget (target :: inlining) context node

theorem typeWithin_eq (resolver : Resolver) (current : String) (budget : Nat)
    (inlining : List String) (context : String) (node : Node) :
    resolver.typeWithin current budget inlining context node =
      typeOf resolver.conventions (resolver.followWithin current budget inlining) context node := by
  cases budget <;> rfl

theorem follow_eq (resolver : Resolver) (current : String) :
    resolver.follow current = resolver.followWithin current resolver.nodes.length [] := by
  funext path context
  rw [follow, typeWithin_eq, Node.bare, typeOf]

/-- A reference that can be followed is valid and names a schema of the document. The answer is the
class of a schema that is declared, and otherwise what replaces the schema. -/
theorem reference_eq_ok {resolver : Resolver} {current : String}
    {inline : String → String → Node → Except DerivationError ModelType} {path context : String}
    {type : ModelType} (success : resolver.reference current inline path context = .ok type) :
    ∃ target node, Reference.target path = .ok target ∧
      Entries.get? resolver.nodes target = some node ∧
      (resolver.isCollapsed node = false ∧ type = .ref (resolver.classRef target) ∨
        resolver.isCollapsed node = true ∧ inline target context node = .ok type) := by
  unfold reference at success
  split at success
  next => cases success
  next target valid =>
    split at success
    next => cases success
    next node found =>
      refine ⟨target, node, valid, found, ?_⟩
      split at success
      next declared =>
        cases success
        exact .inl ⟨by unfold isCollapsed; grind, rfl⟩
      next replaced => exact .inr ⟨by unfold isCollapsed; grind, success⟩

/-- A schema without a declaration is replaced by its type, unless it is being replaced already or
the budget is used up: then anything is admitted. -/
theorem followWithin_eq_ok {resolver : Resolver} {current : String} {budget : Nat}
    {inlining : List String} {path context : String} {type : ModelType}
    (success : resolver.followWithin current budget inlining path context = .ok type) :
    ∃ target node, Reference.target path = .ok target ∧
      Entries.get? resolver.nodes target = some node ∧
      (resolver.isCollapsed node = false ∧ type = .ref (resolver.classRef target) ∨
        resolver.isCollapsed node = true ∧ (type = .any ∨ ∃ smaller, budget = smaller + 1 ∧
          typeOf resolver.conventions (resolver.followWithin current smaller (target :: inlining))
            context node = .ok type)) := by
  cases budget with
  | zero =>
    rw [followWithin] at success
    obtain ⟨target, node, valid, found, outcome⟩ := reference_eq_ok success
    refine ⟨target, node, valid, found, outcome.imp_right fun replaced => ?_⟩
    exact ⟨replaced.1, .inl (Except.ok.inj replaced.2).symm⟩
  | succ budget =>
    rw [followWithin] at success
    obtain ⟨target, node, valid, found, outcome⟩ := reference_eq_ok success
    refine ⟨target, node, valid, found, outcome.imp_right fun replaced => ⟨replaced.1, ?_⟩⟩
    have inlined := replaced.2
    split at inlined
    next => exact .inl (Except.ok.inj inlined).symm
    next => exact .inr ⟨budget, rfl, typeWithin_eq resolver .. ▸ inlined⟩

theorem followWithin_induction {resolver : Resolver} {least : Nat} {P : ModelType → Prop}
    (closed : ModelType.Constructed least P)
    (wide : ∀ target node, Entries.get? resolver.nodes target = some node → node.Branches least)
    (declared : ∀ target node, Entries.get? resolver.nodes target = some node →
      resolver.isCollapsed node = false → P (.ref (resolver.classRef target)))
    {current : String} {budget : Nat} {inlining : List String} {path context : String}
    {type : ModelType}
    (success : resolver.followWithin current budget inlining path context = .ok type) : P type := by
  induction budget generalizing inlining path context type with
  | zero =>
    obtain ⟨target, node, -, found, ⟨kept, rfl⟩ | ⟨-, rfl | ⟨_, absurd_budget, -⟩⟩⟩ :=
      followWithin_eq_ok success
    · exact declared target node found kept
    · exact closed.any
    · cases absurd_budget
  | succ budget ih =>
    obtain ⟨target, node, -, found, ⟨kept, rfl⟩ | ⟨-, rfl | ⟨smaller, same, replaced⟩⟩⟩ :=
      followWithin_eq_ok success
    · exact declared target node found kept
    · exact closed.any
    · cases same
      exact typeOf_induction closed (fun _ _ _ followed => ih followed) (wide target node found)
        replaced

/-- A declaration is made from the node's fields, from its texts or from its one type. -/
theorem declare_eq_ok {resolver : Resolver} {name : String} {node : Node} {model : Model}
    (success : resolver.declare name node = .ok model) :
    (∃ shape fields, node.kind = .object shape ∧ node.isModel = true ∧
      fieldsOf resolver.conventions (resolver.follow name) shape.required shape.properties =
        .ok fields ∧
      model = .object ⟨(resolver.classRef name).name, node.notes.description, fields⟩) ∨
    (∃ shape, node.kind = .scalar shape ∧ shape.variants ≠ [] ∧
      model = .enum (enumModel (resolver.classRef name).name node.notes shape)) ∨
    ∃ target, resolver.type name (resolver.classRef name).name node = .ok target ∧
      model = .alias ⟨(resolver.classRef name).name, node.notes.description, target⟩ := by
  have from_alias : ∀ {target : Except DerivationError ModelType},
      (do let target ← target
          .ok (.alias ⟨(resolver.classRef name).name, node.notes.description, target⟩) :
        Except DerivationError Model) = .ok model →
      ∃ found, target = .ok found ∧
        model = .alias ⟨(resolver.classRef name).name, node.notes.description, found⟩ := by
    intro target outcome
    obtain ⟨found, resolved, same⟩ := bind_eq_ok outcome
    exact ⟨found, resolved, (Except.ok.inj same).symm⟩
  unfold declare at success
  dsimp only at success
  split at success
  next shape kind =>
    split at success
    next declared =>
      obtain ⟨fields, resolved, same⟩ := bind_eq_ok success
      exact .inl ⟨shape, fields, kind, declared, resolved, (Except.ok.inj same).symm⟩
    next => exact .inr (.inr (from_alias success))
  next shape kind =>
    split at success
    next => exact .inr (.inr (from_alias success))
    next nonempty =>
      refine .inr (.inl ⟨shape, kind, ?_, (Except.ok.inj success).symm⟩)
      rintro empty
      exact nonempty (by rw [empty]; rfl)
  next => exact .inr (.inr (from_alias success))

/-- A schema that is no model is declared as an alias of its type. -/
theorem declare_of_no_model (resolver : Resolver) (name : String) {node : Node}
    (no_model : node.isModel = false) : resolver.declare name node =
      (resolver.type name (resolver.classRef name).name node).map fun target =>
        .alias ⟨(resolver.classRef name).name, node.notes.description, target⟩ := by
  unfold declare
  simp only [bind_ok_eq_map]
  split
  next => rw [no_model, if_neg Bool.false_ne_true]
  next shape kind =>
    have no_variants : shape.variants.isEmpty = true := by
      unfold Node.isModel at no_model
      rw [kind] at no_model
      simpa using no_model
    rw [if_pos no_variants]
  next => rfl

theorem declare_name {resolver : Resolver} {name : String} {node : Node} {model : Model}
    (success : resolver.declare name node = .ok model) :
    model.name = (resolver.classRef name).name := by
  obtain ⟨_, _, _, _, _, rfl⟩ | ⟨_, _, _, rfl⟩ | ⟨_, _, rfl⟩ := declare_eq_ok success <;> rfl

/-- Every type in a declaration has a property that types are made with. -/
theorem declare_induction {resolver : Resolver} {least : Nat} {P : ModelType → Prop}
    (closed : ModelType.Constructed least P)
    (wide : ∀ target node, Entries.get? resolver.nodes target = some node → node.Branches least)
    (declared : ∀ target node, Entries.get? resolver.nodes target = some node →
      resolver.isCollapsed node = false → P (.ref (resolver.classRef target)))
    {name : String} {node : Node} (node_wide : node.Branches least) {model : Model}
    (success : resolver.declare name node = .ok model)
    {type : ModelType} (present : type ∈ model.types) : P type := by
  have followed : ∀ path context type,
      resolver.followWithin name resolver.nodes.length [] path context = .ok type → P type :=
    fun _ _ _ found => followWithin_induction closed wide declared found
  obtain ⟨shape, fields, kind, -, resolved, rfl⟩ | ⟨shape, -, -, rfl⟩ | ⟨target, resolved, rfl⟩ :=
    declare_eq_ok success
  · obtain ⟨field, inside, rfl⟩ := List.mem_map.mp present
    rw [follow_eq] at resolved
    obtain ⟨property, listed, type, typed, rfl⟩ :=
      exists_left_of_forall₂ (fieldsOf_eq_ok_iff.mp resolved) inside
    rw [fieldOf, Conventions.adjustField_type]
    obtain ⟨_, notes⟩ := node
    obtain rfl : _ = Kind.object shape := kind
    exact typeOf_induction closed followed
      (node_wide.of_postorder (Node.postorder_property listed)) typed
  · cases present
  · obtain rfl := List.mem_singleton.mp present
    rw [Resolver.type, typeWithin_eq] at resolved
    exact typeOf_induction closed followed node_wide resolved

end Resolver

end ResourceModels

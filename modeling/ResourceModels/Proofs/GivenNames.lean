import Mathlib
import ResourceModels.Proofs.Closure

/-!
# Where the names in a module come from

A class is named after its schema, or after the place where it stands inline: after the property
it stands under, with a word added for each list around it. `Visits` follows the derivation through
the schemas of a document and keeps the name suggested at each node. Every class of a derived module
is one of a declared schema or of a visited node, under one of the names that are tried for it, and
every field is one of the properties there (`given_of_mem_group`).
-/

namespace ResourceModels

namespace Node

/-- Whether something stands here that has a class of its own wherever it stands. -/
def needsClass (node : Node) : Bool :=
  match node.kind with
  | .object shape => !shape.properties.isEmpty
  | .scalar shape => !shape.variants.isEmpty
  | _ => false

def propertyNames (node : Node) : List String :=
  match node.kind with
  | .object shape => Entries.keys shape.properties
  | _ => []

end Node

/-- The names of the fields of a declaration. What an alias stands for is its one field. -/
def Model.fieldNames : Model → List String
  | .object model => model.fields.map Field.name
  | .enum _ => []
  | .alias _ => ["root"]

theorem Promotion.HoistedModel.fieldNames {path : ModulePath} {made : List Model}
    {before after : Model} (related : HoistedModel path made before after) :
    after.fieldNames = before.fieldNames := by
  cases before with
  | object model =>
    obtain ⟨name, fields, rfl, below⟩ := related
    refine map_eq_map_of_forall₂ below fun field field' hoisted => ?_
    obtain ⟨type, rfl, -⟩ := hoisted
    rfl
  | enum model =>
    obtain ⟨name, rfl⟩ := related
    rfl
  | «alias» model =>
    obtain ⟨target, rfl, -⟩ := related
    rfl

namespace Resolver

/-- The nodes that types are made from, each with the class name suggested for it. -/
inductive Visits (resolver : Resolver) : String → Node → Prop
  | schema (name : String) (node : Node) (known : Entries.get? resolver.nodes name = some node)
      (kept : resolver.isCollapsed node = false) :
      Visits resolver (resolver.classRef name).name node
  | property (context : String) (shape : ObjectShape Node) (notes : Notes)
      (property : String × Node) (above : Visits resolver context ⟨.object shape, notes⟩)
      (inside : property ∈ shape.properties) :
      Visits resolver (suggestedClassName property.1) property.2
  | additional (context : String) (shape : ObjectShape Node) (notes : Notes) (node : Node)
      (above : Visits resolver context ⟨.object shape, notes⟩)
      (no_properties : shape.properties = []) (given : shape.additional = some node) :
      Visits resolver context node
  | items (context : String) (items : Node) (notes : Notes)
      (above : Visits resolver context ⟨.array items, notes⟩) :
      Visits resolver (context ++ "Item") items
  | variant (context : String) (variants : List Node) (notes : Notes) (variant : Node)
      (above : Visits resolver context ⟨.union variants, notes⟩) (inside : variant ∈ variants) :
      Visits resolver context variant
  /-- A reference to a schema that is replaced where it is used. -/
  | replaced (context path : String) (notes : Notes) (target : String) (node : Node)
      (above : Visits resolver context ⟨.reference path, notes⟩)
      (valid : Reference.target path = .ok target)
      (known : Entries.get? resolver.nodes target = some node)
      (collapsed : resolver.isCollapsed node = true) : Visits resolver context node

/-- The names that classes are given. Where a name is taken, others are tried. -/
inductive GivesClass (resolver : Resolver) : String → Prop
  | schema (name : String) (node : Node) (known : Entries.get? resolver.nodes name = some node)
      (kept : resolver.isCollapsed node = false) :
      GivesClass resolver (resolver.classRef name).name
  | inline (context : String) (node : Node) (numbered : Nat) (name : String)
      (visited : resolver.Visits context node) (needed : node.needsClass = true)
      (tried : name ∈ Promotion.candidates context numbered) : GivesClass resolver name

/-- The names that fields are given. -/
inductive GivesField (resolver : Resolver) : String → Prop
  | property (context : String) (node : Node) (name : String)
      (visited : resolver.Visits context node) (inside : name ∈ node.propertyNames) :
      GivesField resolver name
  | root (name : String) (node : Node) (known : Entries.get? resolver.nodes name = some node)
      (kept : resolver.isCollapsed node = false) (no_model : node.isModel = false) :
      GivesField resolver "root"

/-- What stands inline is made from a visited node, whose suggested name it has. -/
def Inlines (resolver : Resolver) (inner : Model) : Prop :=
  ∃ node, resolver.Visits inner.name node ∧ node.needsClass = true ∧
    inner.fieldNames ⊆ node.propertyNames

/-- What stands inline is made from a visited object or from the texts of a visited scalar. -/
inductive MadeInline (resolver : Resolver) : Model → Prop
  | object (context : String) (shape : ObjectShape Node) (notes : Notes) (follow : Follow)
      (fields : List (Field ModelType)) (visited : resolver.Visits context ⟨.object shape, notes⟩)
      (nonempty : shape.properties ≠ [])
      (made : fieldsOf resolver.conventions follow shape.required shape.properties = .ok fields) :
      MadeInline resolver (.object ⟨context, notes.description, fields⟩)
  | enum (context : String) (shape : ScalarShape) (notes : Notes)
      (visited : resolver.Visits context ⟨.scalar shape, notes⟩) (nonempty : shape.variants ≠ []) :
      MadeInline resolver (.enum (enumModel context notes shape))

variable {resolver : Resolver} {conventions : Conventions} {follow : Follow}

theorem fieldNames_fieldsOf {required : List String} {properties : List (String × Node)}
    {fields : List (Field ModelType)}
    (success : fieldsOf conventions follow required properties = .ok fields) :
    fields.map Field.name = Entries.keys properties := by
  refine map_eq_map_of_forall₂ (fieldsOf_eq_ok_iff.mp success) fun property field made => ?_
  obtain ⟨type, -, rfl⟩ := made
  exact conventions.adjustField_name _

theorem MadeInline.inlines {inner : Model} (made : resolver.MadeInline inner) :
    resolver.Inlines inner := by
  cases made with
  | object context shape notes follow fields visited nonempty made =>
    refine ⟨_, visited, by simpa [Node.needsClass] using nonempty, ?_⟩
    rw [Model.fieldNames, fieldNames_fieldsOf made]
    exact List.Subset.refl _
  | enum context shape notes visited nonempty =>
    exact ⟨_, visited, by simpa [Node.needsClass] using nonempty, List.nil_subset _⟩

/-- Everything inline in the fields is made from a visited node, if that holds under each of the
properties. -/
theorem madeInline_fieldsOf {required : List String} {properties : List (String × Node)}
    {fields : List (Field ModelType)}
    (success : fieldsOf conventions follow required properties = .ok fields)
    (each : ∀ property ∈ properties, ∀ type,
      typeOf conventions follow (suggestedClassName property.1) property.2 = .ok type →
        ∀ inner ∈ type.inlineModels, resolver.MadeInline inner)
    {field : Field ModelType} (listed : field ∈ fields) {inner : Model}
    (inside : inner ∈ field.type.inlineModels) : resolver.MadeInline inner := by
  obtain ⟨property, among, type, typed, rfl⟩ :=
    exists_left_of_forall₂ (fieldsOf_eq_ok_iff.mp success) listed
  rw [fieldOf, Conventions.adjustField_type] at inside
  exact each property among type typed inner inside

/-- A visited node has visited nodes for everything inline in its type, if references have. -/
theorem madeInline_typeOf
    (follows : ∀ path notes context type, resolver.Visits context ⟨.reference path, notes⟩ →
      follow path context = .ok type → ∀ inner ∈ type.inlineModels, resolver.MadeInline inner)
    {node : Node} {context : String} (visited : resolver.Visits context node) {type : ModelType}
    (success : typeOf resolver.conventions follow context node = .ok type) :
    ∀ inner ∈ type.inlineModels, resolver.MadeInline inner := by
  induction node generalizing context type with
  | object shape notes properties_hold additional_holds =>
    rw [typeOf_object] at success
    split at success
    next no_properties =>
      obtain ⟨value, found, rfl⟩ := map_eq_ok success
      obtain ⟨-, rfl⟩ | ⟨additional, given, found⟩ := mapType_eq_ok found
      · exact fun _ absent => absurd absent List.not_mem_nil
      · have below := Visits.additional context shape notes additional visited
          (List.isEmpty_iff.mp no_properties) given
        exact fun inner inside => additional_holds additional given below found inner inside
    next some_properties =>
      obtain ⟨fields, found, rfl⟩ := map_eq_ok success
      intro inner inside
      rcases List.mem_cons.mp inside with rfl | inside
      · have nonempty := fun empty => some_properties (List.isEmpty_iff.mpr empty)
        exact .object context shape notes follow fields visited nonempty found
      · obtain ⟨field, listed, inside⟩ := ModelType.mem_inlineModelsOfFields.mp inside
        refine madeInline_fieldsOf found (fun property among type typed => ?_) listed inside
        exact properties_hold property among (.property context shape notes property visited among)
          typed
  | array items notes ih =>
    obtain ⟨item, found, rfl⟩ := typeOf_array_eq_ok success
    exact fun inner inside => ih (.items context items notes visited) found inner inside
  | scalar shape notes =>
    obtain rfl | ⟨nonempty, rfl⟩ := typeOf_scalar_eq_ok success
    · have plain : (ModelType.ofScalar shape).inlineModels = [] := by
        unfold ModelType.ofScalar
        split <;> try split
        all_goals rfl
      rw [plain]
      exact fun _ absent => absurd absent List.not_mem_nil
    · intro inner inside
      obtain rfl := List.mem_singleton.mp inside
      exact .enum context shape notes visited nonempty
  | reference path notes =>
    rw [typeOf] at success
    exact follows path notes context type visited success
  | union variants notes ih =>
    obtain ⟨types, found, rfl⟩ := typeOf_union_eq_ok success
    intro inner inside
    obtain ⟨type, listed, inside⟩ := ModelType.inlineModels_unite inside
    obtain ⟨variant, among, typed⟩ := exists_left_of_forall₂ found listed
    exact ih variant among (.variant context variants notes variant visited among) typed inner
      inside
  | any notes =>
    rw [typeOf] at success
    cases success
    exact fun _ absent => absurd absent List.not_mem_nil

/-- Replacing a schema goes on visiting, under the name suggested where the reference stands. -/
theorem madeInline_followWithin {current : String} {budget : Nat} {inlining : List String}
    {path : String} {notes : Notes} {context : String}
    (visited : resolver.Visits context ⟨.reference path, notes⟩) {type : ModelType}
    (success : resolver.followWithin current budget inlining path context = .ok type) :
    ∀ inner ∈ type.inlineModels, resolver.MadeInline inner := by
  induction budget generalizing inlining path notes context type with
  | zero =>
    obtain ⟨target, node, -, -, ⟨-, rfl⟩ | ⟨-, rfl | ⟨_, absurd_budget, -⟩⟩⟩ :=
      followWithin_eq_ok success
    · exact fun _ absent => absurd absent List.not_mem_nil
    · exact fun _ absent => absurd absent List.not_mem_nil
    · cases absurd_budget
  | succ budget ih =>
    obtain ⟨target, node, valid, known, ⟨-, rfl⟩ | ⟨collapsed, rfl | ⟨smaller, same, typed⟩⟩⟩ :=
      followWithin_eq_ok success
    · exact fun _ absent => absurd absent List.not_mem_nil
    · exact fun _ absent => absurd absent List.not_mem_nil
    · cases same
      exact madeInline_typeOf (fun _ _ _ _ visited followed => ih visited followed)
        (.replaced context path notes target node visited valid known collapsed) typed

theorem isModel_of_declare_alias {name : String} {node : Node} {model : AliasModel}
    (success : resolver.declare name node = .ok (.alias model)) : node.isModel = false := by
  obtain ⟨kind, notes⟩ := node
  cases kind with
  | object shape =>
    unfold declare at success
    dsimp only at success
    split at success
    next =>
      obtain ⟨fields, -, same⟩ := bind_eq_ok success
      cases same
    next no_model => exact Bool.eq_false_of_not_eq_true no_model
  | scalar shape =>
    unfold declare at success
    dsimp only at success
    split at success
    next no_variants =>
      simp [Node.isModel, no_variants]
    next => cases success
  | _ => rfl

/-- The declaration of a schema has the fields of its properties, and everything inline in it is
made from a visited node. -/
theorem given_of_declare {name : String} {node : Node} {model : Model}
    (known : Entries.get? resolver.nodes name = some node)
    (kept : resolver.isCollapsed node = false)
    (success : resolver.declare name node = .ok model) :
    (∀ field ∈ model.fieldNames, resolver.GivesField field) ∧
      ∀ inner ∈ model.inlineModels, resolver.MadeInline inner := by
  have visited := Visits.schema name node known kept
  have follows : ∀ path notes context type, resolver.Visits context ⟨.reference path, notes⟩ →
      resolver.followWithin name resolver.nodes.length [] path context = .ok type →
      ∀ inner ∈ type.inlineModels, resolver.MadeInline inner :=
    fun _ _ _ _ visited followed => madeInline_followWithin visited followed
  obtain ⟨shape, fields, kind, -, found, rfl⟩ | ⟨shape, -, -, rfl⟩ | ⟨target, resolved, rfl⟩ :=
    declare_eq_ok success
  · obtain ⟨_, notes⟩ := node
    obtain rfl : _ = Kind.object shape := kind
    constructor
    · intro field listed
      rw [Model.fieldNames, fieldNames_fieldsOf found] at listed
      exact .property _ _ field visited listed
    · intro inner inside
      obtain ⟨type, among, inside⟩ := Model.mem_inlineModels.mp inside
      obtain ⟨field, listed, rfl⟩ := List.mem_map.mp among
      rw [follow_eq] at found
      refine madeInline_fieldsOf found (fun property among type typed => ?_) listed inside
      exact madeInline_typeOf follows (.property _ shape notes property visited among) typed
  · constructor <;> exact fun _ absent => absurd absent List.not_mem_nil
  · constructor
    · intro field listed
      obtain rfl := List.mem_singleton.mp listed
      exact .root name node known kept (isModel_of_declare_alias success)
    · intro inner inside
      obtain ⟨type, listed, within⟩ := Model.mem_inlineModels.mp inside
      obtain rfl := List.mem_singleton.mp listed
      rw [Resolver.type, typeWithin_eq] at resolved
      exact madeInline_typeOf follows visited resolved inner within

end Resolver

namespace Derivation

/-- In a derived module every class and every field has a name that the document gives. -/
theorem given_of_mem_group {resolver : Resolver} {declared : List (ModulePath × Model)}
    (related : List.Forall₂ resolver.Declares
      ((Entries.keys resolver.nodes).filter resolver.isDeclared) declared) {home : Module}
    (present : home ∈ Module.group declared) {model : Model}
    (inside : model ∈ home.promoteInline.models) :
    resolver.GivesClass model.name ∧ ∀ field ∈ model.fieldNames, resolver.GivesField field := by
  obtain ⟨owner, listed, origin⟩ := home.exists_origin inside
  obtain ⟨name, -, declares⟩ :=
    exists_left_of_forall₂ related (Module.mem_of_mem_group present listed)
  have owner_name : owner.name = (resolver.classRef name).name := declares.name
  obtain ⟨-, node, known, kept, success⟩ := declares
  obtain ⟨fields_given, made_inline⟩ := Resolver.given_of_declare known kept success
  obtain ⟨same_name, hoisted⟩ | ⟨source, standing, made⟩ := origin
  · rw [same_name, owner_name, hoisted.fieldNames]
    exact ⟨.schema name node known kept, fields_given⟩
  · obtain ⟨visited_node, visited, needed, fields⟩ := (made_inline source standing).inlines
    obtain ⟨numbered, tried⟩ := made.named
    rw [made.hoisted.fieldNames]
    exact ⟨.inline source.name visited_node numbered model.name visited needed tried,
      fun field inside => .property source.name visited_node field visited (fields inside)⟩

end Derivation

end ResourceModels

import Mathlib
import ResourceModels.Schema.Conventions
import ResourceModels.Proofs.Entries
import ResourceModels.Proofs.Lists

/-!
# Schema nodes as trees

Nodes stand below other nodes as properties, as the schema of open keys, as items and as variants.
The induction has one case for each shape. What the conventions of an API change in a tree of nodes
is no more than the defaults of properties.
-/

namespace ResourceModels

namespace Node

@[induction_eliminator]
theorem tree_induction {P : Node → Prop}
    (object : ∀ (shape : ObjectShape Node) (notes : Notes),
      (∀ property ∈ shape.properties, P property.2) →
      (∀ additional, shape.additional = some additional → P additional) → P ⟨.object shape, notes⟩)
    (array : ∀ (items : Node) (notes : Notes), P items → P ⟨.array items, notes⟩)
    (scalar : ∀ (shape : ScalarShape) (notes : Notes), P ⟨.scalar shape, notes⟩)
    (reference : ∀ (path : String) (notes : Notes), P ⟨.reference path, notes⟩)
    (union : ∀ (variants : List Node) (notes : Notes), (∀ variant ∈ variants, P variant) →
      P ⟨.union variants, notes⟩)
    (any : ∀ notes : Notes, P ⟨.any, notes⟩) (node : Node) : P node := by
  refine @Node.rec P (fun kind => ∀ notes, P ⟨kind, notes⟩)
    (fun shape => (∀ property ∈ shape.properties, P property.2) ∧
      ∀ additional, shape.additional = some additional → P additional)
    (fun variants => ∀ variant ∈ variants, P variant)
    (fun properties => ∀ property ∈ properties, P property.2)
    (fun additional => ∀ node, additional = some node → P node) (fun property => P property.2)
    (fun _ notes holds => holds notes) (fun shape below notes => object shape notes below.1 below.2)
    (fun items holds notes => array items notes holds) (fun shape notes => scalar shape notes)
    (fun path notes => reference path notes)
    (fun variants holds notes => union variants notes holds)
    any (fun _ _ _ properties additional => ⟨properties, additional⟩) ?_ ?_ ?_ ?_ ?_ ?_ ?_ node
  · exact fun _ absent => absurd absent List.not_mem_nil
  · intro head tail head_holds tail_holds variant present
    rcases List.mem_cons.mp present with rfl | present
    · exact head_holds
    · exact tail_holds variant present
  · exact fun _ absent => absurd absent List.not_mem_nil
  · intro head tail head_holds tail_holds property present
    rcases List.mem_cons.mp present with rfl | present
    · exact head_holds
    · exact tail_holds property present
  · exact fun _ absent => by cases absent
  · exact fun _ holds node same => Option.some.inj same ▸ holds
  · exact fun _ _ holds => holds

section

variable {shape : ObjectShape Node} {notes : Notes}

theorem postorder_property {property : String × Node} (inside : property ∈ shape.properties) :
    property.2.postorder ⊆ postorder ⟨.object shape, notes⟩ := by
  have below : property.2.postorder ⊆ belowProperties shape.properties := by
    generalize shape.properties = properties at inside ⊢
    induction properties with
    | nil => cases inside
    | cons head rest ih =>
      obtain ⟨name, node⟩ := head
      rw [belowProperties]
      rcases List.mem_cons.mp inside with rfl | later
      · exact List.subset_append_left _ _
      · exact List.subset_append_of_subset_right _ (ih later)
  rw [postorder, belowKind]
  exact List.subset_append_of_subset_left _ (List.subset_append_of_subset_left _ below)

theorem postorder_additional {additional : Node} (given : shape.additional = some additional) :
    additional.postorder ⊆ postorder ⟨.object shape, notes⟩ := by
  rw [postorder, belowKind, given, belowAdditional]
  exact List.subset_append_of_subset_left _ (List.subset_append_right _ _)

theorem postorder_items {items : Node} :
    items.postorder ⊆ postorder ⟨.array items, notes⟩ := by
  rw [postorder, belowKind]
  exact List.subset_append_left _ _

theorem postorder_variant {variants : List Node} {variant : Node} (inside : variant ∈ variants) :
    variant.postorder ⊆ postorder ⟨.union variants, notes⟩ := by
  have below : variant.postorder ⊆ belowVariants variants := by
    induction variants with
    | nil => cases inside
    | cons head rest ih =>
      rw [belowVariants]
      rcases List.mem_cons.mp inside with rfl | later
      · exact List.subset_append_left _ _
      · exact List.subset_append_of_subset_right _ (ih later)
  rw [postorder, belowKind]
  exact List.subset_append_of_subset_left _ below

theorem mem_postorder_self (node : Node) : node ∈ node.postorder := by
  obtain ⟨kind, notes⟩ := node
  rw [postorder]
  exact List.mem_append_right _ (List.mem_singleton.mpr rfl)

end

def reference? (node : Node) : Option String :=
  match node.kind with
  | .reference path => some path
  | _ => none

/-- The references in the node and below it. -/
def references (node : Node) : List String := node.postorder.filterMap reference?

/-- The defaults in the node and below it. -/
def defaults (node : Node) : List Json := node.postorder.filterMap (·.notes.default)

/-- The unions at the node and below it have at least so many variants. -/
def Branches (least : Nat) (node : Node) : Prop :=
  ∀ below ∈ node.postorder, ∀ variants, below.kind = .union variants → least ≤ variants.length

theorem branches_zero (node : Node) : node.Branches 0 := fun _ _ _ _ => Nat.zero_le _

theorem Branches.of_postorder {least : Nat} {node whole : Node} (wide : whole.Branches least)
    (below : node.postorder ⊆ whole.postorder) : node.Branches least :=
  fun inner listed => wide inner (below listed)

theorem references_subset {node whole : Node} (below : node.postorder ⊆ whole.postorder) :
    node.references ⊆ whole.references :=
  List.filterMap_subset _ below

theorem defaults_subset {node whole : Node} (below : node.postorder ⊆ whole.postorder) :
    node.defaults ⊆ whole.defaults :=
  List.filterMap_subset _ below

theorem mem_references_reference (path : String) (notes : Notes) :
    path ∈ references ⟨.reference path, notes⟩ :=
  List.mem_filterMap.mpr ⟨_, mem_postorder_self _, rfl⟩

theorem mem_defaults_self {node : Node} {value : Json} (noted : node.notes.default = some value) :
    value ∈ node.defaults :=
  List.mem_filterMap.mpr ⟨_, mem_postorder_self _, noted⟩

variable (change : Extensions → ObjectShape Node → ObjectShape Node)

theorem mapProperties_eq (properties : List (String × Node)) : mapProperties change properties =
    properties.map fun property => (property.1, property.2.mapObjects change) := by
  induction properties with
  | nil => rfl
  | cons property rest ih => rw [mapProperties, ih, List.map_cons]

theorem mapVariants_eq (variants : List Node) :
    mapVariants change variants = variants.map (mapObjects change) := by
  induction variants with
  | nil => rfl
  | cons variant rest ih => rw [mapVariants, ih, List.map_cons]

theorem mapAdditional_eq (additional : Option Node) :
    mapAdditional change additional = additional.map (mapObjects change) := by
  cases additional <;> rfl

@[simp] theorem mapObjects_notes (node : Node) : (node.mapObjects change).notes = node.notes := by
  cases node
  rw [mapObjects]

theorem mapObjects_object (shape : ObjectShape Node) (notes : Notes) :
    mapObjects change ⟨.object shape, notes⟩ =
      ⟨.object (change notes.extensions
        ⟨shape.properties.map fun property => (property.1, property.2.mapObjects change),
          shape.required, shape.additional.map (mapObjects change)⟩), notes⟩ := by
  rw [mapObjects, mapObjectsIn, mapProperties_eq, mapAdditional_eq]

/-- Changing nothing in any object changes nothing. -/
theorem mapObjects_id (node : Node) : node.mapObjects (fun _ shape => shape) = node := by
  induction node with
  | object shape notes properties_hold additional_holds =>
    obtain ⟨properties, required, additional⟩ := shape
    have same_properties : properties.map (fun property =>
        (property.1, property.2.mapObjects fun _ shape => shape)) = properties := by
      refine (List.map_congr_left fun property inside => ?_).trans (List.map_id properties)
      rw [properties_hold property inside]
      rfl
    have same_additional : additional.map (mapObjects fun _ shape => shape) = additional := by
      cases additional with
      | none => rfl
      | some node => exact congrArg some (additional_holds node rfl)
    rw [mapObjects_object, same_properties, same_additional]
  | array items notes ih => rw [mapObjects, mapObjectsIn, ih]
  | union variants notes ih =>
    have same_variants : variants.map (mapObjects fun _ shape => shape) = variants :=
      (List.map_congr_left ih).trans (List.map_id variants)
    rw [mapObjects, mapObjectsIn, mapVariants_eq, same_variants]
  | _ => rfl

end Node

namespace Conventions

theorem adjustNode_asWritten (node : Node) : adjustNode .asWritten node = node :=
  node.mapObjects_id

/-- The same property, apart from what is noted beside its nullability. -/
def SameProperty (before after : String × Node) : Prop :=
  after.1 = before.1 ∧ after.2.kind = before.2.kind ∧
    after.2.notes.nullable = before.2.notes.nullable

theorem defaultProperty_same (properties : Entries String Node) (name text : String) :
    List.Forall₂ SameProperty properties (defaultProperty properties name text) := by
  unfold defaultProperty
  rw [List.forall₂_map_right_iff, List.forall₂_same]
  intro property _
  dsimp only
  split <;> exact ⟨rfl, rfl, rfl⟩

/-- The conventions only put other defaults on the properties of an object. -/
theorem adjustObject_same (conventions : Conventions) (extensions : Extensions)
    (shape : ObjectShape Node) :
    List.Forall₂ SameProperty shape.properties
        (conventions.adjustObject extensions shape).properties ∧
      (conventions.adjustObject extensions shape).required = shape.required ∧
      (conventions.adjustObject extensions shape).additional = shape.additional := by
  have unchanged : ∀ properties : List (String × Node),
      List.Forall₂ SameProperty properties properties :=
    fun _ => List.forall₂_same.mpr fun _ _ => ⟨rfl, rfl, rfl⟩
  cases conventions with
  | asWritten => exact ⟨unchanged _, rfl, rfl⟩
  | kubernetes =>
    refine ⟨?_, rfl, rfl⟩
    have with_kind : List.Forall₂ SameProperty shape.properties
        (if extensions.resourceKind.kind = "" then shape.properties
          else defaultProperty shape.properties "kind" extensions.resourceKind.kind) := by
      split
      · exact unchanged _
      · exact defaultProperty_same _ _ _
    unfold adjustObject
    dsimp only
    cases extensions.resourceKind.apiVersion? with
    | none => exact with_kind
    | some version =>
      refine forall₂_trans with_kind (defaultProperty_same _ "apiVersion" version) ?_
      intro first second third left right
      exact ⟨right.1.trans left.1, right.2.1.trans left.2.1, right.2.2.trans left.2.2⟩

/-- An adjusted object has the same keys and the same shapes under them. -/
theorem adjustNode_object (conventions : Conventions) (shape : ObjectShape Node) (notes : Notes) :
    ∃ adjusted, conventions.adjustNode ⟨.object shape, notes⟩ = ⟨.object adjusted, notes⟩ ∧
      List.Forall₂
        (fun before after => SameProperty (before.1, conventions.adjustNode before.2) after)
        shape.properties adjusted.properties ∧
      adjusted.required = shape.required ∧
      adjusted.additional = shape.additional.map conventions.adjustNode := by
  refine ⟨_, Node.mapObjects_object _ shape notes, ?_⟩
  obtain ⟨properties, required, additional⟩ := conventions.adjustObject_same notes.extensions
    ⟨shape.properties.map fun property => (property.1, conventions.adjustNode property.2),
      shape.required, shape.additional.map conventions.adjustNode⟩
  exact ⟨List.forall₂_map_left_iff.mp properties, required, additional⟩

theorem isModel_adjustNode (conventions : Conventions) (node : Node) :
    (conventions.adjustNode node).isModel = node.isModel := by
  obtain ⟨kind, notes⟩ := node
  cases kind with
  | object shape =>
    obtain ⟨adjusted, same, properties, -, additional⟩ := conventions.adjustNode_object shape notes
    have same_length := properties.length_eq
    rw [same, Node.isModel, Node.isModel]
    dsimp only
    rw [additional, Option.isNone_map]
    congr 2
    rw [Bool.eq_iff_iff, List.isEmpty_iff_length_eq_zero, List.isEmpty_iff_length_eq_zero,
      same_length]
  | _ => rfl

end Conventions

end ResourceModels

import Mathlib
import ResourceModels.Proofs.Reachability

/-!
# What the conventions change

The conventions give the properties of an object other defaults, which depend on the extensions
beside the object alone (`Conventions.adjustNode_object_eq`). Nothing else changes: the derivation
reaches the same nodes before and after, up to their defaults.
-/

namespace ResourceModels

/-- The node with another default, or none. -/
def Node.noteDefault (node : Node) (default : Option Json) : Node :=
  { node with notes := { node.notes with default } }

@[simp] theorem Node.noteDefault_self (node : Node) :
    node.noteDefault node.notes.default = node := by
  cases node
  rfl

@[simp] theorem Node.noteDefault_twice (node : Node) (first second : Option Json) :
    (node.noteDefault first).noteDefault second = node.noteDefault second := rfl

namespace Conventions

/-- The default of a property once its object is adjusted. -/
def defaultOf (conventions : Conventions) (extensions : Extensions) (property : String × Node) :
    Option Json :=
  match conventions with
  | .asWritten => property.2.notes.default
  | .kubernetes =>
    let resource := extensions.resourceKind
    if property.1 = "kind" ∧ resource.kind ≠ "" then some (.string resource.kind)
    else
      match resource.apiVersion? with
      | some version =>
        if property.1 = "apiVersion" then some (.string version) else property.2.notes.default
      | none => property.2.notes.default

theorem defaultProperty_eq (properties : Entries String Node) (name text : String) :
    defaultProperty properties name text = properties.map fun property => (property.1,
      property.2.noteDefault
        (if property.1 = name then some (.string text) else property.2.notes.default)) := by
  refine List.map_congr_left fun property _ => ?_
  dsimp only
  split
  · rfl
  · rw [Node.noteDefault_self]

theorem adjustObject_eq (conventions : Conventions) (extensions : Extensions)
    (shape : ObjectShape Node) : conventions.adjustObject extensions shape =
      { shape with properties := shape.properties.map fun property =>
          (property.1, property.2.noteDefault (conventions.defaultOf extensions property)) } := by
  cases conventions with
  | asWritten => simp [adjustObject, defaultOf]
  | kubernetes =>
    refine congrArg (fun properties => ({ shape with properties } : ObjectShape Node)) ?_
    unfold defaultOf
    dsimp only
    rw [defaultProperty_eq]
    by_cases no_kind : extensions.resourceKind.kind = ""
    · cases extensions.resourceKind.apiVersion? with
      | none => simp [no_kind]
      | some version => simp [no_kind, defaultProperty_eq]
    · cases extensions.resourceKind.apiVersion? with
      | none => simp [no_kind]
      | some version =>
        rw [if_neg no_kind]
        dsimp only
        rw [defaultProperty_eq, List.map_map]
        refine List.map_congr_left fun property _ => ?_
        by_cases is_kind : property.1 = "kind" <;> simp [no_kind, is_kind, Node.noteDefault]

/-- Adjusting goes into an object and gives its properties their defaults. -/
theorem adjustNode_object_eq (conventions : Conventions) (shape : ObjectShape Node)
    (notes : Notes) : conventions.adjustNode ⟨.object shape, notes⟩ =
      ⟨.object ⟨shape.properties.map fun property => (property.1,
          (conventions.adjustNode property.2).noteDefault
            (conventions.defaultOf notes.extensions property)),
        shape.required, shape.additional.map conventions.adjustNode⟩, notes⟩ := by
  have same_default : ∀ property : String × Node, conventions.defaultOf notes.extensions
      (property.1, property.2.mapObjects conventions.adjustObject) =
        conventions.defaultOf notes.extensions property := by
    intro property
    unfold defaultOf
    rw [Node.mapObjects_notes]
  rw [adjustNode, Node.mapObjects_object, adjustObject_eq, List.map_map]
  simp only [Function.comp_def, same_default]
  rfl

theorem adjustNode_array (conventions : Conventions) (items : Node) (notes : Notes) :
    conventions.adjustNode ⟨.array items, notes⟩ =
      ⟨.array (conventions.adjustNode items), notes⟩ := by
  rw [adjustNode, Node.mapObjects, Node.mapObjectsIn]
  rfl

theorem adjustNode_union (conventions : Conventions) (variants : List Node) (notes : Notes) :
    conventions.adjustNode ⟨.union variants, notes⟩ =
      ⟨.union (variants.map conventions.adjustNode), notes⟩ := by
  rw [adjustNode, Node.mapObjects, Node.mapObjectsIn, Node.mapVariants_eq]
  rfl

end Conventions

/-- The second node is the first one adjusted, up to its own default. -/
def AdjustedTo (conventions : Conventions) (before after : Node) : Prop :=
  ∃ default, after = (conventions.adjustNode before).noteDefault default

namespace AdjustedTo

variable {conventions : Conventions} {collapse : Bool} {nodes : Entries String Node}
  {before after : Node}

theorem refl (conventions : Conventions) (node : Node) :
    AdjustedTo conventions node (conventions.adjustNode node) :=
  ⟨_, (Node.noteDefault_self _).symm⟩

/-- What a node holds, it holds adjusted after adjusting. -/
theorem holds (adjusted : AdjustedTo conventions before after) {inner : Node}
    (holds : before.Holds inner) :
    ∃ inner', after.Holds inner' ∧ AdjustedTo conventions inner inner' := by
  obtain ⟨default, rfl⟩ := adjusted
  cases holds with
  | property shape notes property inside =>
    rw [conventions.adjustNode_object_eq]
    exact ⟨_, .property _ _ _ (List.mem_map_of_mem inside), _, rfl⟩
  | additional shape notes node no_properties given =>
    rw [conventions.adjustNode_object_eq]
    exact ⟨_, .additional _ _ (conventions.adjustNode inner) (by simp [no_properties])
      (by simp [given]), .refl conventions inner⟩
  | items items notes =>
    rw [conventions.adjustNode_array]
    exact ⟨_, .items _ _, .refl conventions inner⟩
  | variant variants notes variant inside =>
    rw [conventions.adjustNode_union]
    exact ⟨_, .variant _ _ _ (List.mem_map_of_mem inside), .refl conventions inner⟩

/-- An adjusted node holds nothing else. -/
theorem exists_held (adjusted : AdjustedTo conventions before after) {inner' : Node}
    (holds : after.Holds inner') :
    ∃ inner, before.Holds inner ∧ AdjustedTo conventions inner inner' := by
  obtain ⟨default, rfl⟩ := adjusted
  obtain ⟨kind, notes⟩ := before
  cases kind with
  | object shape =>
    rw [conventions.adjustNode_object_eq] at holds
    cases holds with
    | property _ _ property inside =>
      obtain ⟨original, listed, rfl⟩ := List.mem_map.mp inside
      exact ⟨original.2, .property shape notes original listed, _, rfl⟩
    | additional _ _ _ no_properties given =>
      obtain ⟨original, given_before, rfl⟩ := Option.map_eq_some_iff.mp given
      have no_properties_before := List.map_eq_nil_iff.mp no_properties
      exact ⟨original, .additional shape notes original no_properties_before given_before,
        .refl conventions original⟩
  | array items =>
    rw [conventions.adjustNode_array] at holds
    cases holds with
    | items => exact ⟨items, .items items notes, .refl conventions items⟩
  | union variants =>
    rw [conventions.adjustNode_union] at holds
    cases holds with
    | variant _ _ _ inside =>
      obtain ⟨original, listed, rfl⟩ := List.mem_map.mp inside
      exact ⟨original, .variant variants notes original listed, .refl conventions original⟩
  | _ => cases holds

theorem exists_reference {path : String} {notes : Notes}
    (adjusted : AdjustedTo conventions before ⟨.reference path, notes⟩) :
    ∃ notes', before = ⟨.reference path, notes'⟩ := by
  obtain ⟨default, same⟩ := adjusted
  have same_kind : Kind.reference path = (conventions.adjustNode before).kind :=
    congrArg Node.kind same
  obtain ⟨kind, notes'⟩ := before
  cases kind with
  | object shape =>
    rw [conventions.adjustNode_object_eq] at same_kind
    cases same_kind
  | reference path' =>
    cases same_kind
    exact ⟨notes', rfl⟩
  | _ => cases same_kind

theorem next (adjusted : AdjustedTo conventions before after) {node : Node}
    (next : Next collapse nodes before node) :
    ∃ node', Next collapse (Entries.mapValues nodes conventions.adjustNode) after node' ∧
      AdjustedTo conventions node node' := by
  cases next with
  | inside _ _ holds =>
    obtain ⟨inner', held, adjusted⟩ := adjusted.holds holds
    exact ⟨inner', .inside _ _ held, adjusted⟩
  | replaced path notes target _ collapsing valid known no_model =>
    obtain ⟨default, rfl⟩ := adjusted
    have known' : Entries.get? (Entries.mapValues nodes conventions.adjustNode) target =
        some (conventions.adjustNode node) := by
      rw [Entries.get?_mapValues, known]
      rfl
    exact ⟨_, .replaced path _ target _ collapsing valid known'
      ((conventions.isModel_adjustNode node).trans no_model), .refl conventions node⟩

theorem exists_next (adjusted : AdjustedTo conventions before after) {node' : Node}
    (next : Next collapse (Entries.mapValues nodes conventions.adjustNode) after node') :
    ∃ node, Next collapse nodes before node ∧ AdjustedTo conventions node node' := by
  cases next with
  | inside _ _ holds =>
    obtain ⟨inner, held, adjusted⟩ := adjusted.exists_held holds
    exact ⟨inner, .inside _ _ held, adjusted⟩
  | replaced path notes target _ collapsing valid known no_model =>
    rw [Entries.get?_mapValues] at known
    obtain ⟨node, found, rfl⟩ := Option.map_eq_some_iff.mp known
    obtain ⟨notes', rfl⟩ := adjusted.exists_reference
    have no_model_before := (conventions.isModel_adjustNode node).symm.trans no_model
    exact ⟨node, .replaced path notes' target node collapsing valid found no_model_before,
      .refl conventions node⟩

theorem reaches (adjusted : AdjustedTo conventions before after) {node : Node}
    (reaches : Reaches collapse nodes before node) :
    ∃ node', Reaches collapse (Entries.mapValues nodes conventions.adjustNode) after node' ∧
      AdjustedTo conventions node node' := by
  induction reaches with
  | refl => exact ⟨after, .refl, adjusted⟩
  | tail _ next ih =>
    obtain ⟨middle, reaches, adjusted⟩ := ih
    obtain ⟨node', next, adjusted⟩ := adjusted.next next
    exact ⟨node', reaches.tail next, adjusted⟩

theorem exists_reached (adjusted : AdjustedTo conventions before after) {node' : Node}
    (reaches : Reaches collapse (Entries.mapValues nodes conventions.adjustNode) after node') :
    ∃ node, Reaches collapse nodes before node ∧ AdjustedTo conventions node node' := by
  induction reaches with
  | refl => exact ⟨before, .refl, adjusted⟩
  | tail _ next ih =>
    obtain ⟨middle, reaches, adjusted⟩ := ih
    obtain ⟨node, next, adjusted⟩ := adjusted.exists_next next
    exact ⟨node, reaches.tail next, adjusted⟩

end AdjustedTo

section

variable {conventions : Conventions} {collapse : Bool} {nodes : Entries String Node}
  {name : String}

/-- Adjusting the schemas of a document adjusts what can be reached in it, and nothing more can be
reached. -/
theorem ReachedFrom.adjusted {node : Node} (reached : ReachedFrom collapse nodes name node) :
    ∃ node', ReachedFrom collapse (Entries.mapValues nodes conventions.adjustNode) name node' ∧
      AdjustedTo conventions node node' := by
  obtain ⟨body, known, kept, reaches⟩ := reached
  obtain ⟨node', reaches, adjusted⟩ := (AdjustedTo.refl conventions body).reaches reaches
  refine ⟨node', ⟨conventions.adjustNode body, ?_, fun collapsing => ?_, reaches⟩, adjusted⟩
  · rw [Entries.get?_mapValues, known]
    rfl
  · rw [conventions.isModel_adjustNode]
    exact kept collapsing

theorem ReachedFrom.of_adjusted {node' : Node}
    (reached : ReachedFrom collapse (Entries.mapValues nodes conventions.adjustNode) name node') :
    ∃ node, ReachedFrom collapse nodes name node ∧ AdjustedTo conventions node node' := by
  obtain ⟨body', known, kept, reaches⟩ := reached
  rw [Entries.get?_mapValues] at known
  obtain ⟨body, found, rfl⟩ := Option.map_eq_some_iff.mp known
  obtain ⟨node, reaches, adjusted⟩ := (AdjustedTo.refl conventions body).exists_reached reaches
  refine ⟨node, ⟨body, found, fun collapsing => ?_, reaches⟩, adjusted⟩
  rw [← conventions.isModel_adjustNode]
  exact kept collapsing

end

end ResourceModels

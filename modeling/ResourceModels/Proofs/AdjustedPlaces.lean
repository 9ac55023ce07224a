import Mathlib
import ResourceModels.Proofs.Defaults

/-!
# What the conventions change, place by place

A place in a schema is given by the steps from the schema down to it. Adjusting keeps every place
and everything at it but the default, which is replaced exactly where a property is the kind or the
API version of a resource that is known. This determines the adjusted schema, wherever in the schema
the resources stand (`adjusted_in_place`). It is the same whether the schema is adjusted once or
twice, because a default that was put there is put there again and no other is read.
-/

namespace ResourceModels

/-- The default of a property of a resource: its kind and its API version where they are known, or
else the one that is noted at the property. -/
def ResourceKind.ruledDefault (resource : ResourceKind) (name : String) (noted : Option Json) :
    Option Json :=
  if name = "kind" ∧ resource.kind ≠ "" then some (.string resource.kind)
  else if name = "apiVersion" ∧ resource.group ≠ "" ∧ resource.version ≠ "" then
    some (.string (resource.group ++ "/" ++ resource.version))
  else noted

theorem ResourceKind.ruledDefault_twice (resource : ResourceKind) (name : String)
    (noted : Option Json) :
    resource.ruledDefault name (resource.ruledDefault name noted) =
      resource.ruledDefault name noted := by
  unfold ruledDefault
  split_ifs <;> rfl

theorem Conventions.defaultOf_kubernetes (extensions : Extensions) (property : String × Node) :
    defaultOf .kubernetes extensions property =
      extensions.resourceKind.ruledDefault property.1 property.2.notes.default := by
  unfold ResourceKind.ruledDefault
  split_ifs with is_kind is_version
  · exact defaultOf_kind is_kind.1 is_kind.2
  · exact defaultOf_version is_version.1 is_version.2.1 is_version.2.2
  · exact defaultOf_other is_kind is_version

namespace Node

/-- A step from a node to one that stands directly below it. -/
inductive Step where
  | property (index : Nat)
  | additional
  | items
  | variant (index : Nat)
  deriving DecidableEq, Repr

def child? (node : Node) (step : Step) : Option Node :=
  match node.kind, step with
  | .object shape, .property index => shape.properties[index]?.map Prod.snd
  | .object shape, .additional => shape.additional
  | .array items, .items => some items
  | .union variants, .variant index => variants[index]?
  | _, _ => none

@[simp] theorem child?_property (shape : ObjectShape Node) (notes : Notes) (index : Nat) :
    child? ⟨.object shape, notes⟩ (.property index) = shape.properties[index]?.map Prod.snd := rfl

@[simp] theorem child?_additional (shape : ObjectShape Node) (notes : Notes) :
    child? ⟨.object shape, notes⟩ .additional = shape.additional := rfl

@[simp] theorem child?_items (items : Node) (notes : Notes) :
    child? ⟨.array items, notes⟩ .items = some items := rfl

@[simp] theorem child?_variant (variants : List Node) (notes : Notes) (index : Nat) :
    child? ⟨.union variants, notes⟩ (.variant index) = variants[index]? := rfl

@[simp] theorem child?_noteDefault (node : Node) (default : Option Json) (step : Step) :
    (node.noteDefault default).child? step = node.child? step := rfl

/-- The node that the steps lead to, if there is one. -/
def at? (node : Node) : List Step → Option Node
  | [] => some node
  | step :: rest => (node.child? step).bind (·.at? rest)

theorem at?_append (node : Node) (above below : List Step) :
    node.at? (above ++ below) = (node.at? above).bind (·.at? below) := by
  induction above generalizing node with
  | nil => rfl
  | cons step rest ih =>
    rw [List.cons_append, at?, at?, Option.bind_assoc]
    exact congrArg (Option.bind _) (funext ih)

theorem at?_concat (node : Node) (above : List Step) (step : Step) :
    node.at? (above ++ [step]) = (node.at? above).bind (·.child? step) := by
  rw [at?_append]
  refine congrArg (Option.bind _) (funext fun holder => ?_)
  rw [at?]
  exact Option.bind_fun_some _

theorem mem_postorder_iff {node inner : Node} : inner ∈ node.postorder ↔
    (∃ step child, node.child? step = some child ∧ inner ∈ child.postorder) ∨ inner = node := by
  obtain ⟨kind, notes⟩ := node
  rw [postorder, List.mem_append, List.mem_singleton]
  refine or_congr_left ?_
  constructor
  · intro below
    cases kind with
    | object shape =>
      rw [belowKind, List.mem_append, mem_belowProperties] at below
      rcases below with ⟨property, listed, inside⟩ | inside
      · obtain ⟨index, found⟩ := List.getElem?_of_mem listed
        exact ⟨.property index, property.2, by simp [found], inside⟩
      · cases given : shape.additional with
        | none =>
          rw [given] at inside
          cases inside
        | some additional =>
          rw [given] at inside
          exact ⟨.additional, additional, given, inside⟩
    | array items => exact ⟨.items, items, rfl, below⟩
    | union variants =>
      obtain ⟨variant, listed, inside⟩ := mem_belowVariants.mp below
      obtain ⟨index, found⟩ := List.getElem?_of_mem listed
      exact ⟨.variant index, variant, found, inside⟩
    | _ => cases below
  · rintro ⟨step, child, found, inside⟩
    cases kind with
    | object shape =>
      rw [belowKind, List.mem_append, mem_belowProperties]
      cases step with
      | property index =>
        obtain ⟨property, listed, rfl⟩ := Option.map_eq_some_iff.mp found
        exact .inl ⟨property, List.mem_of_getElem? listed, inside⟩
      | additional =>
        rw [show shape.additional = some child from found]
        exact .inr inside
      | _ => cases found
    | array items =>
      cases step with
      | items => cases found; exact inside
      | _ => cases found
    | union variants =>
      cases step with
      | variant index => exact mem_belowVariants.mpr ⟨child, List.mem_of_getElem? found, inside⟩
      | _ => cases found
    | _ => cases found

/-- What holds of a node when it holds of the nodes directly below it holds of every node. -/
theorem child_induction {P : Node → Prop}
    (each : ∀ node : Node, (∀ step child, node.child? step = some child → P child) → P node)
    (node : Node) : P node := by
  induction node with
  | object shape notes properties_hold additional_holds =>
    refine each _ fun step child found => ?_
    cases step with
    | property index =>
      obtain ⟨property, listed, rfl⟩ := Option.map_eq_some_iff.mp found
      exact properties_hold property (List.mem_of_getElem? listed)
    | additional => exact additional_holds child found
    | _ => cases found
  | array items notes ih =>
    refine each _ fun step child found => ?_
    cases step with
    | items => exact Option.some.inj found ▸ ih
    | _ => cases found
  | union variants notes ih =>
    refine each _ fun step child found => ?_
    cases step with
    | variant index => exact ih child (List.mem_of_getElem? found)
    | _ => cases found
  | _ => exact each _ fun step child found => by cases found

/-- The nodes that are walked through are those that stand at some place. -/
theorem mem_postorder_iff_place {node inner : Node} :
    inner ∈ node.postorder ↔ ∃ place, node.at? place = some inner := by
  constructor
  · intro listed
    induction node using child_induction with
    | each node ih =>
      obtain ⟨step, child, found, inside⟩ | rfl := mem_postorder_iff.mp listed
      · obtain ⟨place, there⟩ := ih step child found inside
        exact ⟨step :: place, by rw [at?, found, Option.bind_some, there]⟩
      · exact ⟨[], rfl⟩
  · rintro ⟨place, found⟩
    induction place generalizing node with
    | nil => exact Option.some.inj found ▸ mem_postorder_self node
    | cons step rest ih =>
      obtain ⟨child, below, found⟩ := Option.bind_eq_some_iff.mp found
      exact mem_postorder_iff.mpr (.inl ⟨step, child, below, ih found⟩)

end Node

/-- The kind of a node without the nodes below it: how many there are, and the names of properties
in their order. -/
def Kind.outline : Kind Node → Kind Unit
  | .object shape => .object ⟨shape.properties.map fun property => (property.1, ()),
      shape.required, shape.additional.map fun _ => ()⟩
  | .array _ => .array ()
  | .scalar shape => .scalar shape
  | .reference path => .reference path
  | .union variants => .union (variants.map fun _ => ())
  | .any => .any

namespace Node

/-- What a node says itself. -/
def head (node : Node) : Kind Unit × Notes := (node.kind.outline, node.notes)

/-- Two schemas say the same at every place. -/
def SameHeads (first second : Node) : Prop :=
  ∀ place, (first.at? place).map head = (second.at? place).map head

theorem SameHeads.here {first second : Node} (same : SameHeads first second) :
    first.head = second.head :=
  Option.some.inj (same [])

theorem SameHeads.child? {first second : Node} (same : SameHeads first second) (step : Step) :
    Option.Rel SameHeads (first.child? step) (second.child? step) := by
  have below : ∀ rest, ((first.child? step).bind (·.at? rest)).map head =
      ((second.child? step).bind (·.at? rest)).map head := fun rest => same (step :: rest)
  cases here : first.child? step with
  | none =>
    cases there : second.child? step with
    | none => exact .none
    | some other => simpa [here, there, at?] using below []
  | some inner =>
    cases there : second.child? step with
    | none => simpa [here, there, at?] using below []
    | some other =>
      refine .some fun rest => ?_
      simpa [here, there] using below rest

theorem eq_of_children {first second : Node} (heads : first.head = second.head)
    (children : ∀ step, first.child? step = second.child? step) : first = second := by
  obtain ⟨kind, notes⟩ := first
  obtain ⟨kind', notes'⟩ := second
  obtain ⟨outlines, rfl⟩ := Prod.mk.inj heads
  cases kind with
  | object shape =>
    obtain ⟨properties, required, additional⟩ := shape
    cases kind' with
    | object shape' =>
      obtain ⟨properties', required', additional'⟩ := shape'
      obtain ⟨names, rfl, -⟩ := ObjectShape.mk.inj (Kind.object.inj outlines)
      have same_names : properties.map Prod.fst = properties'.map Prod.fst := by
        simpa [Function.comp_def] using congrArg (List.map Prod.fst) names
      have same_nodes : properties.map Prod.snd = properties'.map Prod.snd := by
        refine List.ext_getElem? fun index => ?_
        rw [List.getElem?_map, List.getElem?_map]
        exact children (.property index)
      obtain rfl : additional = additional' := children .additional
      rw [List.zip_of_prod same_names same_nodes, ← List.zip_of_prod rfl rfl]
    | _ => cases outlines
  | array items =>
    cases kind' with
    | array items' => rw [Option.some.inj (children .items)]
    | _ => cases outlines
  | union variants =>
    cases kind' with
    | union variants' =>
      have same_variants : variants = variants' :=
        List.ext_getElem? fun index => children (.variant index)
      rw [same_variants]
    | _ => cases outlines
  | _ =>
    cases kind' <;> cases outlines
    rfl

/-- Two schemas that say the same at every place are one schema. -/
theorem SameHeads.eq {first second : Node} (same : SameHeads first second) : first = second := by
  induction first using child_induction generalizing second with
  | each first ih =>
    refine eq_of_children same.here fun step => ?_
    have related := same.child? step
    have below := ih step
    generalize first.child? step = here at below related ⊢
    generalize second.child? step = there at related ⊢
    cases related with
    | none => rfl
    | some inner_same => exact congrArg some (below _ rfl inner_same)

end Node

/-- The second schema is the first one with other defaults, and these are at the properties of
resources. -/
structure SetsDefaults (before after : Node) : Prop where
  /-- There are the same places, and only defaults differ at them. -/
  kept : ∀ place, (after.at? place).map (fun node => (node.noteDefault none).head) =
    (before.at? place).map fun node => (node.noteDefault none).head
  /-- The properties of every object, wherever it stands, get the defaults of its resource. -/
  property : ∀ place shape notes, before.at? place = some ⟨.object shape, notes⟩ →
    ∀ index name node, shape.properties[index]? = some (name, node) →
      (after.at? (place ++ [.property index])).map (·.notes.default) =
        some (notes.extensions.resourceKind.ruledDefault name node.notes.default)
  /-- What is no property keeps its default. -/
  elsewhere : ∀ place, (∀ above index, place ≠ above ++ [.property index]) →
    (after.at? place).map (·.notes.default) = (before.at? place).map (·.notes.default)

theorem Node.head_eq {first second : Node}
    (rest : (first.noteDefault none).head = (second.noteDefault none).head)
    (default : first.notes.default = second.notes.default) : first.head = second.head := by
  obtain ⟨kinds, notes⟩ := Prod.mk.inj rest
  obtain ⟨kind, description, value, nullable, readOnly, extensions⟩ := first
  obtain ⟨kind', description', value', nullable', readOnly', extensions'⟩ := second
  obtain ⟨rfl, -, rfl, rfl, rfl⟩ := Notes.mk.inj notes
  obtain rfl : value = value' := default
  exact congrArg (fun outline => (outline, _)) kinds

theorem Node.exists_property {holder node : Node} {index : Nat}
    (found : holder.child? (.property index) = some node) :
    ∃ shape name, holder.kind = .object shape ∧ shape.properties[index]? = some (name, node) := by
  obtain ⟨kind, notes⟩ := holder
  cases kind with
  | object shape =>
    obtain ⟨⟨name, _⟩, listed, rfl⟩ := Option.map_eq_some_iff.mp found
    exact ⟨shape, name, rfl, listed⟩
  | _ => cases found

namespace SetsDefaults

variable {before first second : Node}

/-- Where there is nothing before, there is nothing afterwards. -/
theorem missing (sets : SetsDefaults before first) {place : List Node.Step}
    (nothing : before.at? place = none) : first.at? place = none := by
  have kept := sets.kept place
  rwa [nothing, Option.map_none, Option.map_eq_none_iff] at kept

theorem same_default (one : SetsDefaults before first) (other : SetsDefaults before second)
    (place : List Node.Step) :
    (first.at? place).map (·.notes.default) = (second.at? place).map (·.notes.default) := by
  by_cases is_property : ∃ above index, place = above ++ [.property index]
  · obtain ⟨above, index, rfl⟩ := is_property
    cases there : before.at? (above ++ [.property index]) with
    | none => rw [one.missing there, other.missing there]
    | some node =>
      rw [Node.at?_concat, Option.bind_eq_some_iff] at there
      obtain ⟨⟨kind, notes⟩, found, below⟩ := there
      obtain ⟨shape, name, rfl, listed⟩ := Node.exists_property below
      rw [one.property above shape notes found index name node listed,
        other.property above shape notes found index name node listed]
  · have no_property : ∀ above index, place ≠ above ++ [.property index] :=
      fun above index same => is_property ⟨above, index, same⟩
    rw [one.elsewhere place no_property, other.elsewhere place no_property]

/-- There is only one way to set the defaults. -/
theorem eq (one : SetsDefaults before first) (other : SetsDefaults before second) :
    first = second := by
  refine Node.SameHeads.eq fun place => ?_
  have defaults := one.same_default other place
  have rest := (one.kept place).trans (other.kept place).symm
  cases here : first.at? place <;> cases there : second.at? place <;>
    simp only [here, there, Option.map_some, Option.map_none, Option.some.injEq, reduceCtorEq]
      at defaults rest ⊢
  exact Node.head_eq rest defaults

end SetsDefaults

namespace Conventions

/-- The default of a node that stands one step below another one, once that one is adjusted. -/
def defaultBelow (holder : Node) (step : Node.Step) (node : Node) : Option Json :=
  match holder.kind, step with
  | .object shape, .property index =>
    match shape.properties[index]? with
    | some (name, _) =>
      holder.notes.extensions.resourceKind.ruledDefault name node.notes.default
    | none => node.notes.default
  | _, _ => node.notes.default

theorem child?_adjustNode (holder : Node) (step : Node.Step) :
    (adjustNode .kubernetes holder).child? step = (holder.child? step).map fun node =>
      (adjustNode .kubernetes node).noteDefault (defaultBelow holder step node) := by
  have unchanged : ∀ node : Node,
      (adjustNode .kubernetes node).noteDefault node.notes.default = adjustNode .kubernetes node :=
    fun node => by
      conv_rhs => rw [← Node.noteDefault_self (adjustNode .kubernetes node)]
      rw [adjustNode, Node.mapObjects_notes]
  obtain ⟨kind, notes⟩ := holder
  cases kind with
  | object shape =>
    rw [adjustNode_object_eq]
    cases step with
    | property index =>
      rw [Node.child?_property, Node.child?_property, List.getElem?_map, Option.map_map,
        Option.map_map]
      cases found : shape.properties[index]? with
      | none => rfl
      | some property => simp [defaultBelow, found, defaultOf_kubernetes]
    | additional => simp [defaultBelow, unchanged]
    | _ => rfl
  | array items =>
    rw [adjustNode_array]
    cases step with
    | items => simp [defaultBelow, unchanged]
    | _ => rfl
  | union variants =>
    rw [adjustNode_union]
    cases step with
    | variant index => simp [defaultBelow, unchanged]
    | _ => rfl
  | _ => rfl

theorem outline_adjustNode (node : Node) :
    (adjustNode .kubernetes node).kind.outline = node.kind.outline := by
  obtain ⟨kind, notes⟩ := node
  cases kind with
  | object shape =>
    rw [adjustNode_object_eq]
    simp [Kind.outline, Function.comp_def]
  | array items => rw [adjustNode_array]; rfl
  | union variants =>
    rw [adjustNode_union]
    simp [Kind.outline, Function.comp_def]
  | _ => rfl

/-- Adjusting goes on below every place. -/
theorem at?_adjusted {before after : Node} (adjusted : AdjustedTo .kubernetes before after)
    (place : List Node.Step) :
    Option.Rel (AdjustedTo .kubernetes) (before.at? place) (after.at? place) := by
  induction place generalizing before after with
  | nil => exact .some adjusted
  | cons step rest ih =>
    obtain ⟨default, rfl⟩ := adjusted
    rw [Node.at?, Node.at?, Node.child?_noteDefault, child?_adjustNode]
    cases before.child? step with
    | none => exact .none
    | some inner => exact ih ⟨_, rfl⟩

/-- What stands below a place is adjusted, with the default that its holder gives it. -/
theorem at?_concat_adjustNode (node : Node) (above : List Node.Step) (step : Node.Step) :
    (adjustNode .kubernetes node).at? (above ++ [step]) =
      (node.at? above).bind fun holder => (holder.child? step).map fun inner =>
        (adjustNode .kubernetes inner).noteDefault (defaultBelow holder step inner) := by
  rw [Node.at?_concat]
  have related := at?_adjusted (.refl .kubernetes node) above
  generalize node.at? above = before at related ⊢
  generalize (adjustNode .kubernetes node).at? above = after at related ⊢
  cases related with
  | none => rfl
  | some adjusted =>
    obtain ⟨default, rfl⟩ := adjusted
    exact child?_adjustNode _ step

theorem head_of_adjusted {before after : Node} (adjusted : AdjustedTo .kubernetes before after) :
    (after.noteDefault none).head = (before.noteDefault none).head := by
  obtain ⟨default, rfl⟩ := adjusted
  have same_notes : (adjustNode .kubernetes before).notes = before.notes :=
    Node.mapObjects_notes _ before
  unfold Node.head Node.noteDefault
  dsimp only
  rw [outline_adjustNode, same_notes]

theorem setsDefaults_adjustNode (node : Node) :
    SetsDefaults node (adjustNode .kubernetes node) where
  kept := by
    intro place
    have related := at?_adjusted (.refl .kubernetes node) place
    generalize node.at? place = before at related ⊢
    generalize (adjustNode .kubernetes node).at? place = after at related ⊢
    cases related with
    | none => rfl
    | some adjusted => exact congrArg some (head_of_adjusted adjusted)
  property := by
    intro place shape notes found index name inner listed
    rw [at?_concat_adjustNode, found, Option.bind_some, Node.child?_property, listed]
    simp [defaultBelow, listed, Node.noteDefault]
  elsewhere := by
    intro place no_property
    obtain rfl | ⟨above, step, rfl⟩ := place.eq_nil_or_concat'
    · exact congrArg some (congrArg Notes.default (Node.mapObjects_notes _ node))
    · rw [at?_concat_adjustNode, Node.at?_concat]
      cases node.at? above with
      | none => rfl
      | some holder =>
        have own_default : ∀ inner, defaultBelow holder step inner = inner.notes.default := by
          intro inner
          unfold defaultBelow
          split
          next shape index _ => exact absurd rfl (no_property above index)
          next => rfl
        simp [own_default, Node.noteDefault, Function.comp_def]

theorem adjustNode_noteDefault (node : Node) (default : Option Json) :
    adjustNode .kubernetes (node.noteDefault default) =
      (adjustNode .kubernetes node).noteDefault default := by
  cases node
  rfl

/-- A default that is put at a property is put there again, and no other one is read. -/
theorem adjustNode_twice (node : Node) :
    adjustNode .kubernetes (adjustNode .kubernetes node) = adjustNode .kubernetes node := by
  induction node with
  | object shape notes properties_hold additional_holds =>
    have same_properties : ∀ property ∈ shape.properties,
        (adjustNode .kubernetes ((adjustNode .kubernetes property.2).noteDefault
            (defaultOf .kubernetes notes.extensions property))).noteDefault
          (defaultOf .kubernetes notes.extensions (property.1,
            (adjustNode .kubernetes property.2).noteDefault
              (defaultOf .kubernetes notes.extensions property))) =
        (adjustNode .kubernetes property.2).noteDefault
          (defaultOf .kubernetes notes.extensions property) := by
      intro property inside
      rw [adjustNode_noteDefault, properties_hold property inside, Node.noteDefault_twice]
      simp only [defaultOf_kubernetes, Node.noteDefault, ResourceKind.ruledDefault_twice]
    have same_additional : (shape.additional.map (adjustNode .kubernetes)).map
        (adjustNode .kubernetes) = shape.additional.map (adjustNode .kubernetes) := by
      rw [Option.map_map]
      exact Option.map_congr additional_holds
    rw [adjustNode_object_eq, adjustNode_object_eq, List.map_map, same_additional]
    have mapped := List.map_congr_left fun property inside =>
      congrArg (Prod.mk property.1) (same_properties property inside)
    exact congrArg (fun properties => (⟨.object ⟨properties, _, _⟩, notes⟩ : Node)) mapped
  | array items notes ih => rw [adjustNode_array, adjustNode_array, ih]
  | union variants notes ih =>
    rw [adjustNode_union, adjustNode_union, List.map_map]
    exact congrArg (fun variants => (⟨.union variants, notes⟩ : Node)) (List.map_congr_left ih)
  | _ => rfl

/-- Adjusting by the conventions sets the defaults of every resource in the schema, wherever it
stands; nothing else differs, and adjusting again changes nothing. -/
theorem adjusted_in_place (node : Node) :
    (∀ inner, inner ∈ node.postorder ↔ ∃ place, node.at? place = some inner) ∧
      (∀ after, SetsDefaults node after ↔ after = adjustNode .kubernetes node) ∧
      adjustNode .kubernetes (adjustNode .kubernetes node) = adjustNode .kubernetes node := by
  refine ⟨fun _ => Node.mem_postorder_iff_place, fun after => ?_, adjustNode_twice node⟩
  constructor
  · exact fun sets => sets.eq (setsDefaults_adjustNode node)
  · rintro rfl
    exact setsDefaults_adjustNode node

end Conventions

end ResourceModels

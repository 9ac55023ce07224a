import Mathlib
import ResourceModels.Proofs.Closure
import ResourceModels.Proofs.Decoded
import ResourceModels.Proofs.NormalTypes
import ResourceModels.Proofs.Resolution

/-!
# Collapsing is inlining

A schema that is no model is either declared as an alias or replaced at its uses. Where no chain of
references among such schemas comes back to its start, the aliases can be unfolded, in one way only
(`existsUnique_unfolding`), and a type with its aliases unfolded has the normal form of the type
that comes from replacing the schemas at once (`collapse_inlines`). The names of what stands inline
depend on where it stands and are left out of normal forms.

The replacements never run into a schema that is already being replaced, and the budget for them
is never used up: the schemas being replaced form a chain of references, so they are pairwise
different and there are no more of them than schemas.
-/

namespace ResourceModels

/-- Two runs give related answers, or fail with the same error, which happens only if `fails`. -/
def Agrees {α β : Type} (Related : α → β → Prop) (fails : Prop)
    (first : Except DerivationError α) (second : Except DerivationError β) : Prop :=
  (∃ a b, first = .ok a ∧ second = .ok b ∧ Related a b) ∨
    fails ∧ ∃ error, first = .error error ∧ second = .error error

theorem Agrees.mono {α β : Type} {Related : α → β → Prop} {fails fails' : Prop}
    {first : Except DerivationError α} {second : Except DerivationError β}
    (agrees : Agrees Related fails first second) (weaker : fails → fails') :
    Agrees Related fails' first second :=
  agrees.imp_right (And.imp_left weaker)

theorem Agrees.map {α β α' β' : Type} {Related : α → β → Prop} {Related' : α' → β' → Prop}
    {fails : Prop} {first : Except DerivationError α} {second : Except DerivationError β}
    (agrees : Agrees Related fails first second) {f : α → α'} {g : β → β'}
    (related : ∀ a b, Related a b → Related' (f a) (g b)) :
    Agrees Related' fails (first.map f) (second.map g) := by
  obtain ⟨a, b, rfl, rfl, holds⟩ | ⟨may_fail, error, rfl, rfl⟩ := agrees
  · exact .inl ⟨f a, g b, rfl, rfl, related a b holds⟩
  · exact .inr ⟨may_fail, error, rfl, rfl⟩

theorem Agrees.bind {α β α' β' : Type} {Related : α → β → Prop} {Related' : α' → β' → Prop}
    {fails : Prop} {first : Except DerivationError α} {second : Except DerivationError β}
    (agrees : Agrees Related fails first second) {f : α → Except DerivationError α'}
    {g : β → Except DerivationError β'}
    (next : ∀ a b, Related a b → Agrees Related' fails (f a) (g b)) :
    Agrees Related' fails (first >>= f) (second >>= g) := by
  obtain ⟨a, b, rfl, rfl, holds⟩ | ⟨may_fail, error, rfl, rfl⟩ := agrees
  · exact next a b holds
  · exact .inr ⟨may_fail, error, rfl, rfl⟩

namespace ModelType

variable {value : ClassRef → ModelType}

/-- With references replaced, the first type has the normal form of the second. -/
structure Unfolds (value : ClassRef → ModelType) (type unfolded : ModelType) : Prop where
  settled : (type.substitute value).Settled
  unfolded_settled : unfolded.Settled
  same_normal : (type.substitute value).normal = unfolded.normal

/-- Fields of which the second has an unfolded type and is otherwise the first. -/
def FieldUnfolds (value : ClassRef → ModelType) (field unfolded : Field ModelType) : Prop :=
  Unfolds value field.type unfolded.type ∧ unfolded = { field with type := unfolded.type } ∧
    ∀ default, field.default = some default → default.Settled

/-- A type without references stands for itself. -/
theorem Unfolds.refl {type : ModelType} (settled : type.Settled)
    (closed : type.substitute value = type) : Unfolds value type type :=
  ⟨closed.symm ▸ settled, settled, by rw [closed]⟩

theorem Unfolds.array {item unfolded : ModelType} (below : Unfolds value item unfolded) :
    Unfolds value (.array item) (.array unfolded) :=
  ⟨below.settled, below.unfolded_settled, congrArg ModelType.array below.same_normal⟩

theorem Unfolds.map {item unfolded : ModelType} (below : Unfolds value item unfolded) :
    Unfolds value (.map item) (.map unfolded) :=
  ⟨below.settled, below.unfolded_settled, congrArg ModelType.map below.same_normal⟩

theorem Unfolds.enum (model : EnumModel) (name : String) :
    Unfolds value (.enum model) (.enum { model with name }) :=
  ⟨trivial, trivial, rfl⟩

theorem Unfolds.object {fields unfolded : List (Field ModelType)} (name name' : String)
    (description : Option String) (below : List.Forall₂ (FieldUnfolds value) fields unfolded) :
    Unfolds value (.object ⟨name, description, fields⟩)
      (.object ⟨name', description, unfolded⟩) where
  settled := by
    rw [substitute, substituteFields_eq, settled_object_iff]
    intro field listed
    obtain ⟨before, inside, rfl⟩ := List.mem_map.mp listed
    obtain ⟨_, -, unfolds, -, default⟩ := exists_right_of_forall₂ below inside
    exact ⟨unfolds.settled, default⟩
  unfolded_settled := by
    rw [settled_object_iff]
    intro field inside
    obtain ⟨before, -, unfolds, same, default⟩ := exists_left_of_forall₂ below inside
    rw [same]
    exact ⟨unfolds.unfolded_settled, default⟩
  same_normal := by
    rw [substitute, substituteFields_eq, normal, normal, normalFields_eq, normalFields_eq,
      List.map_map]
    have fields_same := map_eq_map_of_forall₂
      (f := (fun field : Field ModelType => { field with type := field.type.normal }) ∘
        fun field => { field with type := field.type.substitute value })
      (g := fun field : Field ModelType => { field with type := field.type.normal }) below ?_
    · rw [fields_same]
    · rintro before after ⟨unfolds, same, -⟩
      rw [same]
      dsimp only [Function.comp_apply]
      rw [unfolds.same_normal]

theorem Unfolds.unite {types unfolded : List ModelType}
    (below : List.Forall₂ (Unfolds value) types unfolded) :
    Unfolds value (.unite types) (.unite unfolded) := by
  have settled : ∀ type ∈ types, (type.substitute value).Settled := fun type inside =>
    let ⟨_, _, unfolds⟩ := exists_right_of_forall₂ below inside
    unfolds.settled
  have unfolded_settled : ∀ type ∈ unfolded, type.Settled := fun type inside =>
    let ⟨_, _, unfolds⟩ := exists_left_of_forall₂ below inside
    unfolds.unfolded_settled
  refine ⟨settled_substitute_unite settled, settled_unite unfolded_settled, ?_⟩
  have images := map_eq_map_of_forall₂ below fun _ _ unfolds => unfolds.same_normal.symm
  rw [normal_substitute_unite settled, normal_unite unfolded_settled, images]

end ModelType

namespace Resolver

open ModelType

variable {value : ClassRef → ModelType} {fails : Prop} {first second : Follow}

theorem typesOf_agrees {variants : List Node} {context context' : String}
    (each : ∀ variant ∈ variants, Agrees (Unfolds value) fails
      (typeOf .asWritten first context variant) (typeOf .asWritten second context' variant)) :
    Agrees (List.Forall₂ (Unfolds value)) fails (typesOf .asWritten first context variants)
      (typesOf .asWritten second context' variants) := by
  induction variants with
  | nil => exact .inl ⟨[], [], rfl, rfl, .nil⟩
  | cons variant rest ih =>
    obtain ⟨here, later⟩ := List.forall_mem_cons.mp each
    rw [typesOf_cons, typesOf_cons]
    exact here.bind fun _ _ unfolds => (ih later).map fun _ _ others => .cons unfolds others

theorem fieldsOf_agrees {required : List String} {properties : List (String × Node)}
    (settled : ∀ property ∈ properties, property.2.Settled)
    (each : ∀ property ∈ properties, Agrees (Unfolds value) fails
      (typeOf .asWritten first (suggestedClassName property.1) property.2)
      (typeOf .asWritten second (suggestedClassName property.1) property.2)) :
    Agrees (List.Forall₂ (FieldUnfolds value)) fails
      (fieldsOf .asWritten first required properties)
      (fieldsOf .asWritten second required properties) := by
  induction properties with
  | nil => exact .inl ⟨[], [], rfl, rfl, .nil⟩
  | cons property rest ih =>
    obtain ⟨here, later⟩ := List.forall_mem_cons.mp each
    obtain ⟨settled_here, settled_later⟩ := List.forall_mem_cons.mp settled
    rw [fieldsOf_cons, fieldsOf_cons]
    refine here.bind fun _ _ unfolds => (ih settled_later later).map fun _ _ others => ?_
    exact .cons ⟨unfolds, rfl, fun _ noted =>
      settled_here _ (Node.mem_defaults_self noted)⟩ others

/-- Where following references agrees, the types agree, whatever names are suggested. -/
theorem typeOf_agrees {node : Node} (settled : node.Settled)
    (follows : ∀ path ∈ node.references, ∀ context context',
      Agrees (Unfolds value) fails (first path context) (second path context'))
    (context context' : String) :
    Agrees (Unfolds value) fails (typeOf .asWritten first context node)
      (typeOf .asWritten second context' node) := by
  induction node generalizing context context' with
  | object shape notes properties_hold additional_holds =>
    rw [typeOf_object, typeOf_object]
    split
    · have below : Agrees (Unfolds value) fails
          (mapType .asWritten first context shape.additional)
          (mapType .asWritten second context' shape.additional) := by
        cases given : shape.additional with
        | none => exact .inl ⟨_, _, rfl, rfl, .refl trivial rfl⟩
        | some additional =>
          have inside := @Node.postorder_additional shape notes _ given
          exact additional_holds additional given (settled.of_postorder inside)
            (fun path listed => follows path (Node.references_subset inside listed))
            context context'
      exact below.map fun _ _ => Unfolds.map
    · have below : Agrees (List.Forall₂ (FieldUnfolds value)) fails
          (fieldsOf .asWritten first shape.required shape.properties)
          (fieldsOf .asWritten second shape.required shape.properties) := by
        refine fieldsOf_agrees (fun property listed => ?_) fun property listed => ?_
        · exact settled.of_postorder (Node.postorder_property listed)
        · have inside := @Node.postorder_property shape notes _ listed
          exact properties_hold property listed (settled.of_postorder inside)
            (fun path listed => follows path (Node.references_subset inside listed)) _ _
      exact below.map fun _ _ => Unfolds.object context context' notes.description
  | array items notes ih =>
    have inside := @Node.postorder_items notes items
    have below := ih (settled.of_postorder inside)
      (fun path listed => follows path (Node.references_subset inside listed))
      (context ++ "Item") (context' ++ "Item")
    rw [typeOf_array, typeOf_array]
    exact below.map fun _ _ => Unfolds.array
  | scalar shape notes =>
    rw [typeOf, typeOf]
    split
    · exact .inl ⟨_, _, rfl, rfl, .refl (settled_ofScalar shape) (substitute_ofScalar shape)⟩
    · exact .inl ⟨_, _, rfl, rfl, .enum _ _⟩
  | reference path notes =>
    rw [typeOf, typeOf]
    exact follows path (Node.mem_references_reference path notes) context context'
  | union variants notes ih =>
    rw [typeOf_union, typeOf_union]
    refine (typesOf_agrees fun variant listed => ?_).map fun _ _ => Unfolds.unite
    have inside := @Node.postorder_variant notes _ _ listed
    exact ih variant listed (settled.of_postorder inside)
      (fun path listed => follows path (Node.references_subset inside listed)) context context'
  | any notes =>
    rw [typeOf, typeOf]
    exact .inl ⟨_, _, rfl, rfl, .refl trivial rfl⟩

/-- A reference that names a schema is followed to the class or to the replacement. -/
theorem reference_of_target {resolver : Resolver} {path target : String} {node : Node}
    (valid : Reference.target path = .ok target)
    (found : Entries.get? resolver.nodes target = some node) (current : String)
    (inline : String → String → Node → Except DerivationError ModelType) (context : String) :
    resolver.reference current inline path context =
      if resolver.isCollapsed node then inline target context node
      else .ok (.ref (resolver.classRef target)) := by
  unfold reference isCollapsed
  rw [valid]
  dsimp only
  rw [found]
  dsimp only
  cases resolver.collapse <;> cases node.isModel <;> rfl

/-- A reference to a schema that is declared leads to its class. -/
theorem followWithin_of_kept {resolver : Resolver} {path target : String} {node : Node}
    (valid : Reference.target path = .ok target)
    (found : Entries.get? resolver.nodes target = some node)
    (kept : resolver.isCollapsed node = false) (current : String) (budget : Nat)
    (inlining : List String) (context : String) :
    resolver.followWithin current budget inlining path context =
      .ok (.ref (resolver.classRef target)) := by
  cases budget <;>
    rw [followWithin, reference_of_target valid found, kept, if_neg Bool.false_ne_true]

/-- A reference to a schema that is replaced leads to the type of the schema. -/
theorem followWithin_of_collapsed {resolver : Resolver} {path target : String} {node : Node}
    (valid : Reference.target path = .ok target)
    (found : Entries.get? resolver.nodes target = some node)
    (collapsed : resolver.isCollapsed node = true) {inlining : List String}
    (fresh : target ∉ inlining) (current : String) (budget : Nat) (context : String) :
    resolver.followWithin current (budget + 1) inlining path context =
      typeOf resolver.conventions (resolver.followWithin current budget (target :: inlining))
        context node := by
  rw [followWithin, reference_of_target valid found, collapsed, if_pos rfl, if_neg fresh,
    typeWithin_eq]

end Resolver

section

variable {bucket : String} {nodes : Entries String Node}

/-- The reference names a schema. -/
def Resolves (nodes : Entries String Node) (path : String) : Prop :=
  ∃ target node, Reference.target path = .ok target ∧ Entries.get? nodes target = some node

/-- A reference that names no schema fails alike in all resolvers of these schemas. -/
theorem followWithin_of_dangling {path : String} (dangling : ¬ Resolves nodes path)
    (current : String) : ∃ error, ∀ resolver : Resolver, resolver.nodes = nodes →
      ∀ budget inlining context,
        resolver.followWithin current budget inlining path context = .error error := by
  have refuses : ∃ error, ∀ resolver : Resolver, resolver.nodes = nodes → ∀ inline context,
      resolver.reference current inline path context = .error error := by
    cases valid : Reference.target path with
    | error error =>
      refine ⟨error, fun resolver _ inline context => ?_⟩
      rw [Resolver.reference, valid]
    | ok target =>
      refine ⟨.unresolvedReference path current, fun resolver same inline context => ?_⟩
      cases found : Entries.get? nodes target with
      | none =>
        rw [Resolver.reference, valid]
        dsimp only
        rw [same, found]
      | some node => exact absurd ⟨target, node, valid, found⟩ dangling
  obtain ⟨error, fails⟩ := refuses
  refine ⟨error, fun resolver same budget inlining context => ?_⟩
  cases budget <;> rw [Resolver.followWithin] <;> exact fails resolver same _ context

/-- The named schema is no model. -/
def Replaceable (nodes : Entries String Node) (name : String) (node : Node) : Prop :=
  Entries.get? nodes name = some node ∧ node.isModel = false

/-- One schema that is no model refers to another one. -/
def LeadsTo (nodes : Entries String Node) (first second : String) : Prop :=
  ∃ node other path, Replaceable nodes first node ∧ Replaceable nodes second other ∧
    path ∈ node.references ∧ Reference.target path = .ok second

/-- Schemas whose references all name a schema, with different classes, without a cycle among those
that are no models. They are settled if they have been decoded (`Node.settled_of_ofJson?`). -/
structure Collapsible (bucket : String) (nodes : Entries String Node) : Prop where
  resolved : ∀ entry ∈ nodes, ∀ path ∈ entry.2.references, Resolves nodes path
  distinct : ((Entries.keys nodes).map (ClassRef.ofSchemaName bucket)).Nodup
  acyclic : ∀ name, ¬ Relation.TransGen (LeadsTo nodes) name name
  settled : ∀ entry ∈ nodes, entry.2.Settled

/-- Every schema gets a declaration. -/
def declaring (bucket : String) (nodes : Entries String Node) : Resolver :=
  ⟨bucket, nodes, .asWritten, false⟩

/-- Only models get a declaration. -/
def collapsing (bucket : String) (nodes : Entries String Node) : Resolver :=
  ⟨bucket, nodes, .asWritten, true⟩

/-- What references stand for when aliases are unfolded through and through: the class of a schema
that is no model for the target of its alias, again with its references replaced, and every other
reference for itself. -/
structure Unfolding (bucket : String) (nodes : Entries String Node)
    (value : ClassRef → ModelType) : Prop where
  aliased : ∀ name node model, Replaceable nodes name node →
    (declaring bucket nodes).model? name = .ok (some (.alias model)) →
    value (.ofSchemaName bucket name) = model.target.substitute value
  other : ∀ target, (∀ name node, Replaceable nodes name node →
    target ≠ .ofSchemaName bucket name) → value target = .ref target

theorem type_declaring (current context : String) (node : Node) :
    (declaring bucket nodes).type current context node =
      Resolver.typeOf .asWritten
        ((declaring bucket nodes).followWithin current nodes.length []) context node :=
  Resolver.typeWithin_eq ..

theorem type_collapsing (current context : String) (node : Node) :
    (collapsing bucket nodes).type current context node =
      Resolver.typeOf .asWritten
        ((collapsing bucket nodes).followWithin current nodes.length []) context node :=
  Resolver.typeWithin_eq ..

namespace Collapsible

variable {value : ClassRef → ModelType}

theorem name_eq (ready : Collapsible bucket nodes) {first second : String} {node other : Node}
    (found : Entries.get? nodes first = some node) (found' : Entries.get? nodes second = some other)
    (same : ClassRef.ofSchemaName bucket first = .ofSchemaName bucket second) : first = second :=
  List.inj_on_of_nodup_map ready.distinct (Entries.mem_keys_of_get? found)
    (Entries.mem_keys_of_get? found') same

/-- The declaration of a schema that is no model is an alias. -/
theorem declare_of_replaceable {name : String} {node : Node} (no_model : node.isModel = false) :
    (declaring bucket nodes).declare name node =
      ((declaring bucket nodes).type name (ClassRef.ofSchemaName bucket name).name node).map
        fun target => .alias
          ⟨(ClassRef.ofSchemaName bucket name).name, node.notes.description, target⟩ :=
  Resolver.declare_of_no_model (declaring bucket nodes) name no_model

theorem model?_of_replaceable {name : String} {node : Node}
    (replaceable : Replaceable nodes name node) :
    (declaring bucket nodes).model? name =
      ((declaring bucket nodes).type name (ClassRef.ofSchemaName bucket name).name node).map
        fun target => some (.alias
          ⟨(ClassRef.ofSchemaName bucket name).name, node.notes.description, target⟩) := by
  obtain ⟨found, no_model⟩ := replaceable
  have here : Entries.get? (declaring bucket nodes).nodes name = some node := found
  have kept : (declaring bucket nodes).isCollapsed node = false := rfl
  unfold Resolver.model?
  rw [here]
  dsimp only
  rw [kept, if_neg Bool.false_ne_true, declare_of_replaceable no_model]
  cases (declaring bucket nodes).type name _ node <;> rfl

/-- A chain of references neither comes back to one of its schemas nor uses up the budget. -/
theorem room_left (ready : Collapsible bucket nodes) {inlining : List String}
    (distinct : inlining.Nodup) (schemas : inlining ⊆ Entries.keys nodes) {target : String}
    {node : Node} (found : Entries.get? nodes target = some node)
    (onward : ∀ name ∈ inlining, Relation.TransGen (LeadsTo nodes) name target) :
    (target :: inlining).Nodup ∧ (target :: inlining) ⊆ Entries.keys nodes ∧
      inlining.length < nodes.length :=
  Entries.cons_of_new_key distinct schemas found fun inside =>
    ready.acyclic target (onward target inside)

/-- The class of a model stands for itself. -/
theorem follow_agrees_of_model (ready : Collapsible bucket nodes)
    (unfolding : Unfolding bucket nodes value) {path target : String} {node : Node}
    (valid : Reference.target path = .ok target) (found : Entries.get? nodes target = some node)
    (model : node.isModel = true) (current current' : String) (budget budget' : Nat)
    (inlining inlining' : List String) (context context' : String) :
    Agrees (ModelType.Unfolds value) False
      ((declaring bucket nodes).followWithin current budget inlining path context)
      ((collapsing bucket nodes).followWithin current' budget' inlining' path context') := by
  rw [Resolver.followWithin_of_kept valid found rfl,
    Resolver.followWithin_of_kept valid found (by simp [Resolver.isCollapsed, model])]
  refine .inl ⟨_, _, rfl, rfl, .refl trivial (unfolding.other _ ?_)⟩
  rintro name other ⟨found', no_model⟩ same
  obtain rfl := ready.name_eq found found' same
  rw [found] at found'
  rw [← Option.some.inj found', model] at no_model
  cases no_model

/-- A reference is followed to types that agree. The schemas being replaced lead on to the one that
the reference names, so it is not among them. -/
theorem follow_agrees (ready : Collapsible bucket nodes) (unfolding : Unfolding bucket nodes value)
    {budget : Nat} {inlining : List String} (distinct : inlining.Nodup)
    (schemas : inlining ⊆ Entries.keys nodes) (enough : nodes.length ≤ inlining.length + budget)
    {path : String} (resolves : Resolves nodes path)
    (onward : ∀ target node, Reference.target path = .ok target → Replaceable nodes target node →
      ∀ name ∈ inlining, Relation.TransGen (LeadsTo nodes) name target)
    (current current' : String) (budget' : Nat) (inlining' : List String)
    (context context' : String) :
    Agrees (ModelType.Unfolds value) False
      ((declaring bucket nodes).followWithin current budget' inlining' path context)
      ((collapsing bucket nodes).followWithin current' budget inlining path context') := by
  induction budget generalizing inlining path current budget' inlining' context context' with
  | zero =>
    obtain ⟨target, node, valid, found⟩ := resolves
    cases model : node.isModel with
    | true => exact ready.follow_agrees_of_model unfolding valid found model ..
    | false =>
      have room := ready.room_left distinct schemas found (onward target node valid ⟨found, model⟩)
      omega
  | succ budget ih =>
    obtain ⟨target, node, valid, found⟩ := resolves
    cases model : node.isModel with
    | true => exact ready.follow_agrees_of_model unfolding valid found model ..
    | false =>
      have replaceable : Replaceable nodes target node := ⟨found, model⟩
      have chain := onward target node valid replaceable
      obtain ⟨longer, within, -⟩ := ready.room_left distinct schemas found chain
      have listed := Entries.mem_of_get? found
      have follows : ∀ path ∈ node.references, ∀ context context',
          Agrees (ModelType.Unfolds value) False
            ((declaring bucket nodes).followWithin target nodes.length [] path context)
            ((collapsing bucket nodes).followWithin current' budget (target :: inlining) path
              context') := by
        intro path inside
        refine ih longer within (by rw [List.length_cons]; omega)
          (ready.resolved _ listed path inside) ?_ target nodes.length []
        intro next other valid' replaceable' name earlier
        have step : LeadsTo nodes target next :=
          ⟨node, other, path, replaceable, replaceable', inside, valid'⟩
        rcases List.mem_cons.mp earlier with rfl | earlier
        · exact .single step
        · exact (chain name earlier).tail step
      obtain ⟨type, unfolded, ran, ran', unfolds⟩ | ⟨⟨⟩, -⟩ :=
        Resolver.typeOf_agrees (ready.settled _ listed) follows
          (ClassRef.ofSchemaName bucket target).name context'
      have declared := @model?_of_replaceable bucket nodes _ _ replaceable
      rw [type_declaring, ran] at declared
      have stands_for : (ModelType.ref (.ofSchemaName bucket target)).substitute value =
          type.substitute value := unfolding.aliased target node _ replaceable declared
      rw [Resolver.followWithin_of_kept valid found rfl,
        Resolver.followWithin_of_collapsed valid found
          (by simp [Resolver.isCollapsed, model, collapsing]) (List.nodup_cons.mp longer).1]
      refine .inl ⟨.ref (.ofSchemaName bucket target), unfolded, rfl, ran', ?_⟩
      exact ⟨by rw [stands_for]; exact unfolds.settled, unfolds.unfolded_settled,
        by rw [stands_for]; exact unfolds.same_normal⟩

/-- Declared schemas that refer to schemas have types. -/
theorem exists_type (ready : Collapsible bucket nodes) {name : String} {node : Node}
    (found : Entries.get? nodes name = some node) (current context : String) :
    ∃ type, (declaring bucket nodes).type current context node = .ok type := by
  have listed := Entries.mem_of_get? found
  have follows : ∀ path ∈ node.references, ∀ context context',
      Agrees (ModelType.Unfolds .ref) False
        ((declaring bucket nodes).followWithin current nodes.length [] path context)
        ((declaring bucket nodes).followWithin current nodes.length [] path context') := by
    intro path inside context context'
    obtain ⟨target, other, valid, found⟩ := ready.resolved _ listed path inside
    rw [Resolver.followWithin_of_kept valid found rfl,
      Resolver.followWithin_of_kept valid found rfl]
    exact .inl ⟨_, _, rfl, rfl, .refl trivial rfl⟩
  obtain ⟨type, -, ran, -, -⟩ | ⟨⟨⟩, -⟩ :=
    Resolver.typeOf_agrees (ready.settled _ listed) follows context context
  exact ⟨type, type_declaring .. ▸ ran⟩

/-- Every schema that is no model has an alias. -/
theorem exists_alias (ready : Collapsible bucket nodes) {name : String} {node : Node}
    (replaceable : Replaceable nodes name node) :
    ∃ model, (declaring bucket nodes).model? name = .ok (some (.alias model)) := by
  obtain ⟨type, typed⟩ :=
    ready.exists_type replaceable.1 name (ClassRef.ofSchemaName bucket name).name
  rw [model?_of_replaceable replaceable, typed]
  exact ⟨_, rfl⟩

/-- The references in a type are those of the node. -/
theorem exists_reference {node : Node} {current context : String} {type : ModelType}
    (typed : (declaring bucket nodes).type current context node = .ok type) {target : ClassRef}
    (listed : target ∈ type.refs) :
    ∃ path name other, path ∈ node.references ∧ Reference.target path = .ok name ∧
      Entries.get? nodes name = some other ∧ target = .ofSchemaName bucket name := by
  rw [type_declaring] at typed
  refine Resolver.typeOf_induction_of_references (ModelType.constructed_refs 0 fun target =>
    ∃ path name other, path ∈ node.references ∧ Reference.target path = .ok name ∧
      Entries.get? nodes name = some other ∧ target = .ofSchemaName bucket name)
    node.branches_zero (fun path inside context type followed target listed => ?_) typed target
    listed
  obtain ⟨name, other, valid, found, ⟨-, rfl⟩ | ⟨collapsed, -⟩⟩ :=
    Resolver.followWithin_eq_ok followed
  · exact ⟨path, name, other, inside, valid, found, List.mem_singleton.mp listed⟩
  · cases collapsed

/-- The schema of a class, if it is no model. -/
def replaced? (bucket : String) (nodes : Entries String Node) (target : ClassRef) :
    Option (String × Node) :=
  nodes.find? fun entry =>
    !entry.2.isModel && decide (ClassRef.ofSchemaName bucket entry.1 = target)

theorem replaced?_eq_some_iff (ready : Collapsible bucket nodes) {target : ClassRef}
    {name : String} {node : Node} : replaced? bucket nodes target = some (name, node) ↔
      Replaceable nodes name node ∧ target = .ofSchemaName bucket name := by
  constructor
  · intro found
    have listed := List.mem_of_find?_eq_some found
    have holds := List.find?_some found
    rw [Bool.and_eq_true, Bool.not_eq_true', decide_eq_true_eq] at holds
    exact ⟨⟨Entries.get?_of_mem ready.distinct.of_map listed, holds.1⟩, holds.2.symm⟩
  · rintro ⟨⟨found, no_model⟩, rfl⟩
    have listed := Entries.mem_of_get? found
    cases searched : replaced? bucket nodes (.ofSchemaName bucket name) with
    | none =>
      have missed := List.find?_eq_none.mp searched _ listed
      simp [no_model] at missed
    | some entry =>
      obtain ⟨other, node'⟩ := entry
      have holds := List.find?_some searched
      have listed' := List.mem_of_find?_eq_some searched
      rw [Bool.and_eq_true, decide_eq_true_eq] at holds
      have found' := Entries.get?_of_mem ready.distinct.of_map listed'
      obtain rfl := ready.name_eq found' found holds.2
      rw [found] at found'
      rw [Option.some.inj found']

/-- The target of the alias of a class. -/
def aliasTarget? (bucket : String) (nodes : Entries String Node) (target : ClassRef) :
    Option ModelType :=
  (replaced? bucket nodes target).bind fun (name, node) =>
    ((declaring bucket nodes).type name (ClassRef.ofSchemaName bucket name).name node).toOption

theorem aliasTarget?_eq_some_iff (ready : Collapsible bucket nodes) {target : ClassRef}
    {type : ModelType} : aliasTarget? bucket nodes target = some type ↔
      ∃ name node, Replaceable nodes name node ∧ target = .ofSchemaName bucket name ∧
        (declaring bucket nodes).type name (ClassRef.ofSchemaName bucket name).name node =
          .ok type := by
  unfold aliasTarget?
  rw [Option.bind_eq_some_iff]
  constructor
  · rintro ⟨⟨name, node⟩, found, typed⟩
    obtain ⟨replaceable, same⟩ := ready.replaced?_eq_some_iff.mp found
    exact ⟨name, node, replaceable, same, toOption_eq_some_iff.mp typed⟩
  · rintro ⟨name, node, replaceable, same, typed⟩
    exact ⟨(name, node), ready.replaced?_eq_some_iff.mpr ⟨replaceable, same⟩,
      toOption_eq_some_iff.mpr typed⟩

theorem aliasTarget?_eq_none_iff (ready : Collapsible bucket nodes) {target : ClassRef} :
    aliasTarget? bucket nodes target = none ↔
      ∀ name node, Replaceable nodes name node → target ≠ .ofSchemaName bucket name := by
  rw [Option.eq_none_iff_forall_ne_some]
  constructor
  · intro missing name node replaceable same
    obtain ⟨type, typed⟩ :=
      ready.exists_type replaceable.1 name (ClassRef.ofSchemaName bucket name).name
    exact missing type (ready.aliasTarget?_eq_some_iff.mpr ⟨name, node, replaceable, same, typed⟩)
  · intro other type found
    obtain ⟨name, node, replaceable, same, -⟩ := ready.aliasTarget?_eq_some_iff.mp found
    exact other name node replaceable same

/-- The references of an alias to other aliases follow the references between the schemas. -/
theorem exists_leadsTo (ready : Collapsible bucket nodes) {target below : ClassRef}
    {type type' : ModelType} (found : aliasTarget? bucket nodes target = some type)
    (found' : aliasTarget? bucket nodes below = some type') (listed : below ∈ type.refs) :
    ∃ first second node node', replaced? bucket nodes target = some (first, node) ∧
      replaced? bucket nodes below = some (second, node') ∧ LeadsTo nodes first second := by
  obtain ⟨first, node, replaceable, rfl, typed⟩ := ready.aliasTarget?_eq_some_iff.mp found
  obtain ⟨second, node', replaceable', rfl, -⟩ := ready.aliasTarget?_eq_some_iff.mp found'
  obtain ⟨path, name, other, inside, valid, known, same⟩ := exists_reference typed listed
  obtain rfl := ready.name_eq replaceable'.1 known same
  exact ⟨first, second, node, node', ready.replaced?_eq_some_iff.mpr ⟨replaceable, rfl⟩,
    ready.replaced?_eq_some_iff.mpr ⟨replaceable', rfl⟩, node, node', path, replaceable,
    replaceable', inside, valid⟩

/-- No chain of references goes on forever. -/
theorem wellFounded_leadsTo (ready : Collapsible bucket nodes) :
    WellFounded fun second first => LeadsTo nodes first second := by
  classical
  let reach (name : String) : Finset String :=
    (Entries.keys nodes).toFinset.filter (Relation.TransGen (LeadsTo nodes) name)
  have smaller : ∀ first second, LeadsTo nodes first second →
      (reach second).card < (reach first).card := by
    intro first second leads
    have connected := leads
    refine Finset.card_lt_card (Finset.ssubset_iff_subset_ne.mpr ⟨fun name inside => ?_, ?_⟩)
    · obtain ⟨listed, further⟩ := Finset.mem_filter.mp inside
      exact Finset.mem_filter.mpr ⟨listed, .head leads further⟩
    · intro same
      obtain ⟨-, other, -, -, replaceable, -⟩ := connected
      have here : second ∈ reach first := Finset.mem_filter.mpr
        ⟨List.mem_toFinset.mpr (Entries.mem_keys_of_get? replaceable.1), .single leads⟩
      rw [← same] at here
      exact ready.acyclic second (Finset.mem_filter.mp here).2
  exact Subrelation.wf (fun {second first} leads => smaller first second leads)
    (InvImage.wf (fun name => (reach name).card) wellFounded_lt)

/-- Aliases can be unfolded, in one way only. -/
theorem existsUnique_unfolding (ready : Collapsible bucket nodes) :
    ∃! value, Unfolding bucket nodes value := by
  have grounded : WellFounded fun below target =>
      (aliasTarget? bucket nodes below).isSome ∧
        ∃ type, aliasTarget? bucket nodes target = some type ∧ below ∈ type.refs := by
    refine Subrelation.wf (fun {below target} step => ?_) (InvImage.wf
      (fun target => ((replaced? bucket nodes target).map Prod.fst).getD "")
      ready.wellFounded_leadsTo)
    obtain ⟨further, type, found, listed⟩ := step
    obtain ⟨type', found'⟩ := Option.isSome_iff_exists.mp further
    obtain ⟨first, second, node, node', here, there, leads⟩ :=
      ready.exists_leadsTo found found' listed
    dsimp only [InvImage]
    rw [here, there]
    exact leads
  have same : ∀ value, Unfolding bucket nodes value ↔
      ModelType.Follows (aliasTarget? bucket nodes) value := by
    intro value
    constructor
    · intro unfolding target
      cases found : aliasTarget? bucket nodes target with
      | none => exact unfolding.other target (ready.aliasTarget?_eq_none_iff.mp found)
      | some type =>
        obtain ⟨name, node, replaceable, rfl, typed⟩ := ready.aliasTarget?_eq_some_iff.mp found
        have declared := @model?_of_replaceable bucket nodes _ _ replaceable
        rw [typed] at declared
        exact unfolding.aliased name node _ replaceable declared
    · intro follows
      refine ⟨fun name node model replaceable declared => ?_, fun target other => ?_⟩
      · obtain ⟨type, typed⟩ :=
          ready.exists_type replaceable.1 name (ClassRef.ofSchemaName bucket name).name
        rw [model?_of_replaceable replaceable, typed] at declared
        cases declared
        rw [follows, ready.aliasTarget?_eq_some_iff.mpr ⟨name, node, replaceable, rfl, typed⟩]
      · rw [follows, ready.aliasTarget?_eq_none_iff.mpr other]
  simpa only [same] using ModelType.existsUnique_follows grounded

end Collapsible

/-- Collapsing is inlining. Schemas that are no models have aliases where all are declared, and
these can be unfolded in one way. A type with its aliases unfolded has the normal form of the type
that comes from replacing the schemas, for every node and all suggested names; only a node that
itself refers to no schema has no type, and then fails in the same way. -/
theorem collapse_inlines (ready : Collapsible bucket nodes) :
    (∀ name node, Replaceable nodes name node →
      ∃ model, (declaring bucket nodes).model? name = .ok (some (.alias model))) ∧
    (∃! value, Unfolding bucket nodes value) ∧
    ∀ value, Unfolding bucket nodes value → ∀ (current context : String) (node : Node),
      node.Settled →
      (∃ type collapsed, (declaring bucket nodes).type current context node = .ok type ∧
        (collapsing bucket nodes).type current context node = .ok collapsed ∧
        (type.substitute value).normal = collapsed.normal) ∨
      (∃ path ∈ node.references, ¬ Resolves nodes path) ∧
        ∃ error, (declaring bucket nodes).type current context node = .error error ∧
          (collapsing bucket nodes).type current context node = .error error := by
  refine ⟨fun name node => ready.exists_alias, ready.existsUnique_unfolding, ?_⟩
  intro value unfolding current context node settled
  rw [type_declaring, type_collapsing]
  have follows : ∀ path ∈ node.references, ∀ context context',
      Agrees (ModelType.Unfolds value) (∃ path ∈ node.references, ¬ Resolves nodes path)
        ((declaring bucket nodes).followWithin current nodes.length [] path context)
        ((collapsing bucket nodes).followWithin current nodes.length [] path context') := by
    intro path inside context context'
    by_cases resolves : Resolves nodes path
    · exact (ready.follow_agrees unfolding List.nodup_nil (List.nil_subset _) (by simp) resolves
        (fun _ _ _ _ name absent => absurd absent List.not_mem_nil) ..).mono False.elim
    · obtain ⟨error, fails⟩ := followWithin_of_dangling resolves current
      exact .inr ⟨⟨path, inside, resolves⟩, error, fails (declaring bucket nodes) rfl ..,
        fails (collapsing bucket nodes) rfl ..⟩
  exact (Resolver.typeOf_agrees settled follows context context).imp_left
    fun ⟨type, collapsed, ran, ran', unfolds⟩ => ⟨type, collapsed, ran, ran', unfolds.same_normal⟩

end

-- Two schemas that are no models, one of which refers to the other and repeats one of its
-- alternatives.
namespace Ports

def reference (name : String) : Node := .bare (.reference ("#/components/schemas/" ++ name))

def nodes : Entries String Node :=
  [("Port", .bare (.union [.ofScalar .integer, .ofScalar .string])),
    ("Ports", .bare (.union [.ofScalar .string, reference "Port"])),
    ("Service", .bare (.object ⟨[("ports", reference "Ports")], [], none⟩))]

/-- A list of what any of the three schemas describes. -/
def node : Node :=
  .bare (.array (.bare (.union [reference "Ports", reference "Service", reference "Port"])))

theorem resolves_of_mem {path : String}
    (listed : path ∈ ["#/components/schemas/Ports", "#/components/schemas/Service",
      "#/components/schemas/Port"]) : Resolves nodes path := by
  simp only [List.mem_cons, List.not_mem_nil, or_false] at listed
  obtain rfl | rfl | rfl := listed
  · exact ⟨"Ports", _, by decide, rfl⟩
  · exact ⟨"Service", _, by decide, rfl⟩
  · exact ⟨"Port", _, by decide, rfl⟩

/-- Only the second schema refers to one that is no model. -/
theorem eq_of_leadsTo {first second : String} (leads : LeadsTo nodes first second) :
    first = "Ports" ∧ second = "Port" := by
  obtain ⟨node, other, path, ⟨found, no_model⟩, -, inside, valid⟩ := leads
  have listed := Entries.mem_of_get? found
  simp only [nodes, List.mem_cons, Prod.mk.injEq, List.not_mem_nil, or_false] at listed
  obtain ⟨rfl, rfl⟩ | ⟨rfl, rfl⟩ | ⟨rfl, rfl⟩ := listed
  · cases inside
  · obtain rfl : path = "#/components/schemas/Port" := List.mem_singleton.mp inside
    have target : Reference.target "#/components/schemas/Port" = .ok "Port" := by decide
    rw [target] at valid
    exact ⟨rfl, (Except.ok.inj valid).symm⟩
  · cases no_model

theorem collapsible : Collapsible "k8s" nodes where
  resolved := by
    intro entry listed path inside
    have all : nodes.flatMap (·.2.references) =
        ["#/components/schemas/Port", "#/components/schemas/Ports"] := by decide
    have known : path ∈ nodes.flatMap (·.2.references) :=
      List.mem_flatMap.mpr ⟨entry, listed, inside⟩
    rw [all, List.mem_cons, List.mem_singleton] at known
    obtain rfl | rfl := known <;> exact resolves_of_mem (by decide)
  distinct := by decide
  acyclic := by
    have connected : ∀ {first second : String}, Relation.TransGen (LeadsTo nodes) first second →
        first = "Ports" ∧ second = "Port" := by
      intro first second chain
      induction chain with
      | single leads => exact eq_of_leadsTo leads
      | tail _ leads ih => exact ⟨ih.1, (eq_of_leadsTo leads).2⟩
    intro name cycle
    obtain ⟨rfl, same⟩ := connected cycle
    exact absurd same (by decide)
  settled := by
    intro entry listed value inside
    have none_given : nodes.flatMap (·.2.defaults) = [] := by rfl
    have known : value ∈ nodes.flatMap (·.2.defaults) :=
      List.mem_flatMap.mpr ⟨entry, listed, inside⟩
    rw [none_given] at known
    cases known

/-- Replaced at once, the alternatives come out joined; declared and unfolded, they come out nested
and repeated, with the same normal form. -/
theorem ports_inlined : ∃ value type collapsed, Unfolding "k8s" nodes value ∧
    (declaring "k8s" nodes).type "" "Field" node = .ok type ∧
    (collapsing "k8s" nodes).type "" "Field" node = .ok collapsed ∧
    (type.substitute value).normal = collapsed.normal ∧
    collapsed = .array (.union [.string, .integer, .ref (.ofSchemaName "k8s" "Service")]) := by
  obtain ⟨-, ⟨value, unfolding, -⟩, inlines⟩ := collapse_inlines collapsible
  have settled : node.Settled := fun _ absent => nomatch absent
  have collapsed_type : (collapsing "k8s" nodes).type "" "Field" node =
      .ok (.array (.union [.string, .integer, .ref (.ofSchemaName "k8s" "Service")])) := by
    rfl
  obtain ⟨type, collapsed, ran, ran', same⟩ | ⟨⟨path, inside, dangling⟩, -⟩ :=
    inlines value unfolding "" "Field" node settled
  · exact ⟨value, type, collapsed, unfolding, ran, ran', same,
      Except.ok.inj (ran'.symm.trans collapsed_type)⟩
  · exact absurd (resolves_of_mem inside) dangling

end Ports

end ResourceModels

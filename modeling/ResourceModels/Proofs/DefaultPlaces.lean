import Mathlib
import ResourceModels.Proofs.Defaults

/-!
# Which default goes where

`GivesType` goes through a schema as it is written and the type made from it side by side. An object
has a field for each property, by the rule for the resource noted beside those properties, and what
stands below a node has its place in the type. Adjusting, following references and joining
alternatives give no other types (`gives_typeOf`, `gives_followWithin`). A module has the
declarations that its schemas give, in their order and with everything inline moved out, so no
object takes the defaults of another (`defaults_follow`).
-/

namespace ResourceModels

namespace Resolver

/-- The type of a node as it is written, while the schemas in `inlining` are being replaced. An
object has a field for each property, by the rule for the resource noted beside the properties, and
what stands below a node has its place in the type. -/
inductive GivesType (resolver : Resolver) : List String → Node → ModelType → Prop
  | any (inlining : List String) (notes : Notes) : GivesType resolver inlining ⟨.any, notes⟩ .any
  | scalar (inlining : List String) (shape : ScalarShape) (notes : Notes)
      (unlisted : shape.variants = []) :
      GivesType resolver inlining ⟨.scalar shape, notes⟩ (.ofScalar shape)
  | enum (inlining : List String) (shape : ScalarShape) (notes : Notes) (name : String)
      (listed : shape.variants ≠ []) :
      GivesType resolver inlining ⟨.scalar shape, notes⟩ (.enum (enumModel name notes shape))
  | array (inlining : List String) (items : Node) (notes : Notes) (item : ModelType)
      (below : GivesType resolver inlining items item) :
      GivesType resolver inlining ⟨.array items, notes⟩ (.array item)
  | map (inlining : List String) (shape : ObjectShape Node) (notes : Notes) (value : ModelType)
      (no_properties : shape.properties = []) (unsaid : shape.additional = none → value = .any)
      (below : ∀ additional, shape.additional = some additional →
        GivesType resolver inlining additional value) :
      GivesType resolver inlining ⟨.object shape, notes⟩ (.map value)
  | object (inlining : List String) (shape : ObjectShape Node) (notes : Notes) (name : String)
      (fields : List (Field ModelType))
      (rules : List.Forall₂ (FieldRule Eq notes.extensions.resourceKind) shape.properties fields)
      (below : ∀ property field, (property, field) ∈ shape.properties.zip fields →
        GivesType resolver inlining property.2 field.type) :
      GivesType resolver inlining ⟨.object shape, notes⟩ (.object ⟨name, notes.description, fields⟩)
  | union (inlining : List String) (variants : List Node) (notes : Notes) (types : List ModelType)
      (each : variants.length = types.length)
      (below : ∀ variant type, (variant, type) ∈ variants.zip types →
        GivesType resolver inlining variant type) :
      GivesType resolver inlining ⟨.union variants, notes⟩ (.unite types)
  | declared (inlining : List String) (path target : String) (notes : Notes) (node : Node)
      (valid : Reference.target path = .ok target)
      (found : Entries.get? resolver.nodes target = some node)
      (kept : resolver.isCollapsed node = false) :
      GivesType resolver inlining ⟨.reference path, notes⟩ (.ref (resolver.classRef target))
  | replaced (inlining : List String) (path target : String) (notes : Notes) (node : Node)
      (type : ModelType) (valid : Reference.target path = .ok target)
      (found : Entries.get? resolver.nodes target = some node)
      (collapsed : resolver.isCollapsed node = true) (fresh : target ∉ inlining)
      (below : GivesType resolver (target :: inlining) node type) :
      GivesType resolver inlining ⟨.reference path, notes⟩ type
  /-- A reference inside the replacement of its own schema. -/
  | recursive (inlining : List String) (path target : String) (notes : Notes) (node : Node)
      (valid : Reference.target path = .ok target)
      (found : Entries.get? resolver.nodes target = some node)
      (collapsed : resolver.isCollapsed node = true) (within : target ∈ inlining) :
      GivesType resolver inlining ⟨.reference path, notes⟩ .any

/-- The declaration that a schema gives: a model has a class, any other schema an alias of its
type. -/
inductive GivesModel (resolver : Resolver) : Node → Model → Prop
  | object (node : Node) (model : ObjectModel ModelType) (is_model : node.isModel = true)
      (gives : resolver.GivesType [] node (.object model)) :
      GivesModel resolver node (.object model)
  | enum (node : Node) (model : EnumModel) (is_model : node.isModel = true)
      (gives : resolver.GivesType [] node (.enum model)) : GivesModel resolver node (.enum model)
  | alias (node : Node) (model : AliasModel) (no_model : node.isModel = false)
      (gives : resolver.GivesType [] node model.target) : GivesModel resolver node (.alias model)

/-- The same schemas with their properties given the defaults of the resources. -/
def adjusted (resolver : Resolver) : Resolver :=
  { resolver with
    nodes := Entries.mapValues resolver.nodes (Conventions.adjustNode .kubernetes)
    conventions := .kubernetes }

theorem get?_adjusted_eq_some {resolver : Resolver} {name : String} {after : Node}
    (found : Entries.get? resolver.adjusted.nodes name = some after) :
    ∃ node, Entries.get? resolver.nodes name = some node ∧
      after = Conventions.adjustNode .kubernetes node := by
  rw [adjusted, Entries.get?_mapValues] at found
  obtain ⟨node, known, rfl⟩ := Option.map_eq_some_iff.mp found
  exact ⟨node, known, rfl⟩

theorem isCollapsed_adjusted (resolver : Resolver) (node : Node) :
    resolver.adjusted.isCollapsed (Conventions.adjustNode .kubernetes node) =
      resolver.isCollapsed node := by
  rw [isCollapsed, isCollapsed, Conventions.isModel_adjustNode]
  rfl

/-- Where the budget is enough for the schemas that are not being replaced, a reference that is
followed ends at a class, or at anything inside the replacement of its own schema, or at what
replaces the schema. -/
theorem exists_followed {resolver : Resolver} {current : String} {budget : Nat}
    {inlining : List String} (distinct : inlining.Nodup)
    (schemas : inlining ⊆ Entries.keys resolver.nodes)
    (enough : resolver.nodes.length ≤ budget + inlining.length) {path context : String}
    {type : ModelType}
    (success : resolver.followWithin current budget inlining path context = .ok type) :
    ∃ target node, Reference.target path = .ok target ∧
      Entries.get? resolver.nodes target = some node ∧
      (resolver.isCollapsed node = false ∧ type = .ref (resolver.classRef target) ∨
        resolver.isCollapsed node = true ∧ (target ∈ inlining ∧ type = .any ∨
          target ∉ inlining ∧ ∃ smaller, budget = smaller + 1 ∧
            typeOf resolver.conventions
              (resolver.followWithin current smaller (target :: inlining)) context node =
                .ok type)) := by
  cases budget with
  | zero =>
    rw [followWithin] at success
    obtain ⟨target, node, valid, found, outcome⟩ := reference_eq_ok success
    have within : target ∈ inlining := by
      by_contra fresh
      have room := (Entries.cons_of_new_key distinct schemas found fresh).2.2
      omega
    refine ⟨target, node, valid, found, outcome.imp_right fun replaced => ?_⟩
    exact ⟨replaced.1, .inl ⟨within, (Except.ok.inj replaced.2).symm⟩⟩
  | succ budget =>
    rw [followWithin] at success
    obtain ⟨target, node, valid, found, outcome⟩ := reference_eq_ok success
    refine ⟨target, node, valid, found, outcome.imp_right fun replaced => ⟨replaced.1, ?_⟩⟩
    have inlined := replaced.2
    split at inlined
    next within => exact .inl ⟨within, (Except.ok.inj inlined).symm⟩
    next fresh => exact .inr ⟨fresh, budget, rfl, typeWithin_eq resolver .. ▸ inlined⟩

/-- The type of a node does not depend on its own default. -/
theorem typeOf_noteDefault {conventions : Conventions} {follow : Follow} (context : String)
    (node : Node) (default : Option Json) :
    typeOf conventions follow context (node.noteDefault default) =
      typeOf conventions follow context node := by
  obtain ⟨kind, notes⟩ := node
  cases kind <;> simp only [Node.noteDefault, typeOf, enumModel]

variable {resolver : Resolver} {follow : Follow} {inlining : List String}

theorem GivesType.unionOf {variants : List Node} {notes : Notes} {types : List ModelType}
    (each : List.Forall₂ (resolver.GivesType inlining) variants types) :
    resolver.GivesType inlining ⟨.union variants, notes⟩ (.unite types) :=
  .union inlining variants notes types each.length_eq fun _ _ paired =>
    (List.forall₂_iff_zip.mp each).2 paired

theorem GivesType.objectOf {shape : ObjectShape Node} {notes : Notes} {name : String}
    {fields : List (Field ModelType)}
    (each : List.Forall₂ (fun property field =>
      FieldRule Eq notes.extensions.resourceKind property field ∧
        resolver.GivesType inlining property.2 field.type) shape.properties fields) :
    resolver.GivesType inlining ⟨.object shape, notes⟩
      (.object ⟨name, notes.description, fields⟩) := by
  refine .object inlining shape notes name fields (each.imp fun _ _ both => both.1) ?_
  exact fun _ _ paired => ((List.forall₂_iff_zip.mp each).2 paired).2

theorem GivesType.rules {shape : ObjectShape Node} {notes : Notes} {model : ObjectModel ModelType}
    (gives : resolver.GivesType inlining ⟨.object shape, notes⟩ (.object model)) :
    List.Forall₂ (FieldRule Eq notes.extensions.resourceKind) shape.properties model.fields := by
  cases gives with
  | object _ _ _ name fields rules _ => exact rules

/-- The fields made from adjusted properties, one for each property as it is written. -/
theorem gives_fieldsOf {extensions : Extensions} {properties : List (String × Node)}
    {required : List String} {fields : List (Field ModelType)}
    (success : fieldsOf .kubernetes follow required (properties.map fun property => (property.1,
      (Conventions.adjustNode .kubernetes property.2).noteDefault
        (Conventions.defaultOf .kubernetes extensions property))) = .ok fields)
    (each : ∀ property ∈ properties, ∀ context type,
      typeOf .kubernetes follow context (Conventions.adjustNode .kubernetes property.2) =
        .ok type → resolver.GivesType inlining property.2 type) :
    List.Forall₂ (fun property field => FieldRule Eq extensions.resourceKind property field ∧
      resolver.GivesType inlining property.2 field.type) properties fields := by
  have made := List.forall₂_map_left_iff.mp (fieldsOf_eq_ok_iff.mp success)
  refine forall₂_imp_of_mem made fun property inside field made => ?_
  obtain ⟨type, typed, rfl⟩ := made
  rw [typeOf_noteDefault] at typed
  refine ⟨.of_property extensions required property type, ?_⟩
  rw [fieldOf, Conventions.adjustField_type]
  exact each property inside _ type typed

/-- The type of an adjusted node is what the node gives as it is written, if that holds of
references. -/
theorem gives_typeOf
    (follows : ∀ path notes context type, follow path context = .ok type →
      resolver.GivesType inlining ⟨.reference path, notes⟩ type) {node : Node} {context : String}
    {type : ModelType}
    (success : typeOf .kubernetes follow context (Conventions.adjustNode .kubernetes node) =
      .ok type) : resolver.GivesType inlining node type := by
  induction node generalizing context type with
  | object shape notes properties_hold additional_holds =>
    rw [Conventions.adjustNode_object_eq] at success
    obtain ⟨empty, value, found, rfl⟩ | ⟨fields, found, rfl⟩ := typeOf_object_eq_ok success
    · refine .map inlining shape notes value (List.map_eq_nil_iff.mp empty) ?_ ?_
      · intro unsaid
        rw [unsaid] at found
        exact (Except.ok.inj found).symm
      · intro additional given
        rw [given] at found
        exact additional_holds additional given found
    · exact .objectOf (gives_fieldsOf found fun property inside _ _ typed =>
        properties_hold property inside typed)
  | array items notes ih =>
    rw [Conventions.adjustNode_array] at success
    obtain ⟨item, found, rfl⟩ := typeOf_array_eq_ok success
    exact .array inlining items notes item (ih found)
  | scalar shape notes =>
    replace success : typeOf .kubernetes follow context ⟨.scalar shape, notes⟩ = .ok type := success
    rw [typeOf] at success
    split at success
    next unlisted =>
      cases success
      exact .scalar inlining shape notes (List.isEmpty_iff.mp unlisted)
    next listed =>
      cases success
      exact .enum inlining shape notes context fun empty => listed (List.isEmpty_iff.mpr empty)
  | reference path notes =>
    replace success : typeOf .kubernetes follow context ⟨.reference path, notes⟩ = .ok type :=
      success
    rw [typeOf] at success
    exact follows path notes context type success
  | union variants notes ih =>
    rw [Conventions.adjustNode_union] at success
    obtain ⟨types, found, rfl⟩ := typeOf_union_eq_ok success
    refine .unionOf (forall₂_imp_of_mem (List.forall₂_map_left_iff.mp found) ?_)
    exact fun variant present _ typed => ih variant present typed
  | any notes =>
    cases success
    exact .any inlining notes

/-- A reference gives what it is followed to. The induction is on the budget: every replacement uses
one up and adds a schema to those being replaced, so without any left all of them are. -/
theorem gives_followWithin {current : String} {budget : Nat} (distinct : inlining.Nodup)
    (schemas : inlining ⊆ Entries.keys resolver.adjusted.nodes)
    (enough : resolver.adjusted.nodes.length ≤ budget + inlining.length) {path context : String}
    {type : ModelType}
    (success : resolver.adjusted.followWithin current budget inlining path context = .ok type)
    (notes : Notes) : resolver.GivesType inlining ⟨.reference path, notes⟩ type := by
  induction budget using Nat.strong_induction_on generalizing inlining path context type notes with
  | _ budget ih =>
    obtain ⟨target, after, valid, found, outcome⟩ :=
      exists_followed distinct schemas enough success
    obtain ⟨node, known, rfl⟩ := get?_adjusted_eq_some found
    rw [isCollapsed_adjusted] at outcome
    obtain ⟨kept, rfl⟩ | ⟨collapsed, ⟨within, rfl⟩ | ⟨fresh, smaller, rfl, below⟩⟩ := outcome
    · exact .declared inlining path target notes node valid known kept
    · exact .recursive inlining path target notes node valid known collapsed within
    · obtain ⟨longer, among, -⟩ := Entries.cons_of_new_key distinct schemas found fresh
      refine .replaced inlining path target notes node type valid known collapsed fresh ?_
      refine gives_typeOf (fun path notes context type followed => ?_) below
      exact ih smaller (Nat.lt_succ_self smaller) longer among
        (by rw [List.length_cons]; omega) followed notes

/-- What is declared for an adjusted schema is what the schema gives as it is written. -/
theorem givesModel_declare {name : String} {node : Node} {plain : Model}
    (success : resolver.adjusted.declare name (Conventions.adjustNode .kubernetes node) =
      .ok plain) : resolver.GivesModel node plain := by
  rw [declare_eq] at success
  obtain ⟨type, typed, rfl⟩ := map_eq_ok success
  rw [Resolver.type, typeWithin_eq] at typed
  have gives : resolver.GivesType [] node type :=
    gives_typeOf (fun _ notes _ _ followed => gives_followWithin List.nodup_nil
      (List.nil_subset _) (Nat.le_add_right ..) followed notes) typed
  unfold declaration
  rw [Conventions.isModel_adjustNode, Conventions.adjustNode, Node.mapObjects_notes]
  cases model : node.isModel with
  | false => exact .alias node _ model gives
  | true =>
    cases gives with
    | object _ shape notes name fields rules below =>
      exact .object _ _ model (.object [] shape notes name fields rules below)
    | enum _ shape notes name listed => exact .enum _ _ model (.enum [] shape notes name listed)
    | map _ shape notes value no_properties =>
      -- The type is a mapping here, and the declaration an object without fields all the same.
      refine .object _ _ model (.objectOf ?_)
      rw [no_properties]
      exact .nil
    | scalar _ shape notes unlisted =>
      exact absurd (by rw [unlisted]; rfl) (Node.variants_nonempty model)
    | _ => cases model

end Resolver

namespace Derivation

/-- The declaration has the class name of the schema, and is what the schema gives with everything
inline moved out. -/
def ClassOf (resolver : Resolver) (home : Module) (name : String) (own : Model) : Prop :=
  own.name = (resolver.classRef name).name ∧
    ∃ node plain, Entries.get? resolver.nodes name = some node ∧ resolver.GivesModel node plain ∧
      Promotion.HoistedModel home.path home.models plain own

/-- The defaults of all fields, where the schemas are taken as they are written. -/
structure DefaultsFollow (resolver : Resolver) (modules : List Module) : Prop where
  /-- The empty mapping is the default of a mapping alone. -/
  mappings : ∀ home ∈ modules, ∀ model : ObjectModel ModelType, .object model ∈ home.models →
    ∀ field ∈ model.fields, isEmptyMapping field.default = true → field.type.isMap = true
  homes : ∀ name ∈ declaredNames resolver.collapse resolver.nodes,
    ∃ home ∈ modules, home.path = (resolver.classRef name).path
  /-- Schemas and their declarations stand in the same order. -/
  declared : ∀ home ∈ modules, List.Forall₂ (ClassOf resolver home)
    (namesAt resolver.bucket home.path (declaredNames resolver.collapse resolver.nodes))
    (declaredPart resolver.bucket (declaredNames resolver.collapse resolver.nodes) home)
  /-- The class of an object, wherever that stands, follows the rule for its own properties. -/
  placed : ∀ home ∈ modules, ∀ (inlining : List String) (shape : ObjectShape Node) (notes : Notes)
    (before after : ObjectModel ModelType),
    resolver.GivesType inlining ⟨.object shape, notes⟩ (.object before) →
    Promotion.HoistedModel home.path home.models (.object before) (.object after) →
    List.Forall₂ (FieldRule Eq notes.extensions.resourceKind) shape.properties after.fields
  /-- Every object of a module is made from an object of the document. -/
  made : ∀ home ∈ modules, ∀ model : ObjectModel ModelType, .object model ∈ home.models →
    ∃ name shape notes,
      ReachedFrom resolver.collapse resolver.nodes name ⟨.object shape, notes⟩ ∧
      List.Forall₂ (FieldRule Eq notes.extensions.resourceKind) shape.properties model.fields
  /-- Every object with properties has one in a module. For an alternative beside one that is the
  same, that one stands. -/
  kept : ∀ name shape notes,
    ReachedFrom resolver.collapse resolver.nodes name ⟨.object shape, notes⟩ →
    shape.properties ≠ [] → ∃ home ∈ modules, ∃ model : ObjectModel ModelType,
      .object model ∈ home.models ∧
      List.Forall₂ (FieldRule Interchangeable notes.extensions.resourceKind) shape.properties
        model.fields

theorem declaredNames_adjusted (resolver : Resolver) :
    declaredNames resolver.collapse resolver.adjusted.nodes =
      declaredNames resolver.collapse resolver.nodes := by
  unfold declaredNames Resolver.adjusted
  rw [Entries.keys_mapValues]
  congr 1
  funext name
  rw [Entries.get?_mapValues]
  cases Entries.get? resolver.nodes name with
  | none => rfl
  | some node => simp only [Option.map_some, Option.any_some, Conventions.isModel_adjustNode]

variable {resolver : Resolver} {declared : List (ModulePath × Model)}

theorem classOf_declaredPart
    (related : List.Forall₂ resolver.adjusted.Declares
      (declaredNames resolver.collapse resolver.nodes) declared)
    {home : Module} (grouped : home ∈ Module.group declared) :
    List.Forall₂ (ClassOf resolver home.promoteInline)
      (namesAt resolver.bucket home.path (declaredNames resolver.collapse resolver.nodes))
      (declaredPart resolver.bucket (declaredNames resolver.collapse resolver.nodes)
        home.promoteInline) := by
  refine (declaredPart_promoteInline related grouped).imp fun name own stands => ?_
  obtain ⟨same_name, after, plain, found, success, hoisted⟩ := stands
  obtain ⟨node, known, rfl⟩ := Resolver.get?_adjusted_eq_some found
  exact ⟨same_name, node, plain, known, Resolver.givesModel_declare success, hoisted⟩

/-- Every object of a module is made from an object node that is reached, as it is written. -/
theorem exists_written_object
    (related : List.Forall₂ resolver.adjusted.Declares
      ((Entries.keys resolver.adjusted.nodes).filter resolver.adjusted.isDeclared) declared)
    {home : Module} (grouped : home ∈ Module.group declared) {model : ObjectModel ModelType}
    (inside : .object model ∈ home.promoteInline.models) :
    ∃ name shape notes,
      ReachedFrom resolver.collapse resolver.nodes name ⟨.object shape, notes⟩ ∧
      List.Forall₂ (FieldRule Eq notes.extensions.resourceKind) shape.properties model.fields := by
  obtain ⟨name, _, _, follow, fields, reached, found, below⟩ :=
    exists_object_node related grouped inside
  obtain ⟨node, reached, adjusted⟩ := reached.of_adjusted
  obtain ⟨shape, notes, rfl, properties⟩ := adjusted.exists_object
  rw [properties] at found
  refine ⟨name, shape, notes, reached, ?_⟩
  exact forall₂_trans (FieldRule.of_fieldsOf found) below fun _ _ _ rule => rule.hoisted

/-- Every object node with properties that is reached has an object in a module. -/
theorem exists_object_of_written
    (related : List.Forall₂ resolver.adjusted.Declares
      ((Entries.keys resolver.adjusted.nodes).filter resolver.adjusted.isDeclared) declared)
    {name : String} {shape : ObjectShape Node} {notes : Notes}
    (reached : ReachedFrom resolver.collapse resolver.nodes name ⟨.object shape, notes⟩)
    (nonempty : shape.properties ≠ []) :
    ∃ home ∈ (Module.group declared).map Module.promoteInline, ∃ model : ObjectModel ModelType,
      .object model ∈ home.models ∧
      List.Forall₂ (FieldRule Interchangeable notes.extensions.resourceKind) shape.properties
        model.fields := by
  obtain ⟨node, reached, default, rfl⟩ : ∃ node,
      ReachedFrom resolver.collapse resolver.adjusted.nodes name node ∧
        AdjustedTo .kubernetes ⟨.object shape, notes⟩ node := reached.adjusted
  rw [Conventions.adjustNode_object_eq] at reached
  obtain ⟨follow, fields, kept, home, grouped, model, found, alike, inside, below⟩ :=
    exists_derived_object related reached (by simpa using nonempty)
  have rules := FieldRule.of_fieldsOf found
  have kept_rules : List.Forall₂ (FieldRule Interchangeable notes.extensions.resourceKind)
      shape.properties kept := by
    obtain rfl | equal := alike
    · exact rules.imp fun _ _ rule => rule.interchangeable
    · exact forall₂_trans rules equal.flip fun _ _ _ rule equal => rule.of_same equal
  exact ⟨home.promoteInline, List.mem_map_of_mem grouped, model, inside,
    forall₂_trans kept_rules below fun _ _ _ rule => rule.hoisted⟩

theorem defaultsFollow
    (related : List.Forall₂ resolver.adjusted.Declares
      ((Entries.keys resolver.adjusted.nodes).filter resolver.adjusted.isDeclared) declared) :
    DefaultsFollow resolver ((Module.group declared).map Module.promoteInline) := by
  have same_names : (Entries.keys resolver.adjusted.nodes).filter resolver.adjusted.isDeclared =
      declaredNames resolver.collapse resolver.nodes :=
    (filter_isDeclared resolver.adjusted).trans (declaredNames_adjusted resolver)
  have in_place := same_names ▸ related
  refine ⟨?mappings, ?homes, ?declared, ?placed, ?made, ?kept⟩
  case mappings =>
    intro promoted present model inside field listed empty
    obtain ⟨home, grouped, rfl⟩ := List.mem_map.mp present
    obtain ⟨-, shape, notes, -, rules⟩ := exists_written_object related grouped inside
    obtain ⟨property, -, rule⟩ := exists_left_of_forall₂ rules listed
    exact rule.isMap empty
  case homes =>
    intro name listed
    obtain ⟨entry, among, declares⟩ := exists_right_of_forall₂ in_place listed
    obtain ⟨home, grouped, same_path, -⟩ := Module.exists_mem_group among
    exact ⟨home.promoteInline, List.mem_map_of_mem grouped, same_path.trans declares.1⟩
  case declared =>
    intro promoted present
    obtain ⟨home, grouped, rfl⟩ := List.mem_map.mp present
    exact classOf_declaredPart in_place grouped
  case placed =>
    intro home present inlining shape notes before after gives hoisted
    obtain ⟨name, fields, same, below⟩ := hoisted
    cases same
    exact forall₂_trans gives.rules below fun _ _ _ rule => rule.hoisted
  case made =>
    intro promoted present model inside
    obtain ⟨home, grouped, rfl⟩ := List.mem_map.mp present
    exact exists_written_object related grouped inside
  case kept =>
    intro name shape notes reached nonempty
    exact exists_object_of_written related reached nonempty

/-- The class of a declared object follows the rule for the properties of its schema. -/
theorem DefaultsFollow.of_class {modules : List Module} (follow : DefaultsFollow resolver modules)
    {home : Module} (among : home ∈ modules) {name : String} {model : ObjectModel ModelType}
    (class_of : ClassOf resolver home name (.object model)) {shape : ObjectShape Node}
    {notes : Notes} (known : Entries.get? resolver.nodes name = some ⟨.object shape, notes⟩) :
    List.Forall₂ (FieldRule Eq notes.extensions.resourceKind) shape.properties model.fields := by
  obtain ⟨-, node, plain, found, gives, hoisted⟩ := class_of
  cases known.symm.trans found
  cases gives with
  | object before _ gives =>
    exact follow.placed home among [] shape notes before model gives hoisted
  | enum => obtain ⟨_, same⟩ := hoisted; cases same
  | «alias» => obtain ⟨_, same, -⟩ := hoisted; cases same

/-- The defaults of all fields, each in its place. A declared schema has its class, and what stands
in the schema has its place there: the class of an object, declared or moved out from where it
stands, has the defaults that the rule gives for the properties of that object, beside the resource
noted there. -/
theorem defaults_follow {bucket : String} {collapse : Bool} {schemas : Entries String Json}
    {modules : List Module}
    (success : ofSchemas bucket .kubernetes collapse schemas = .ok modules) :
    ∃ decoded, nodes .asWritten schemas = .ok decoded ∧
      DefaultsFollow ⟨bucket, decoded, .kubernetes, collapse⟩ modules := by
  obtain ⟨adjusted, declared, adjusted_known, related, rfl⟩ := ofSchemas_eq_ok success
  rw [← keys_nodes adjusted_known] at related
  obtain ⟨decoded, known, rfl⟩ := nodes_asWritten adjusted_known
  let resolver : Resolver := ⟨bucket, decoded, .kubernetes, collapse⟩
  exact ⟨decoded, known, defaultsFollow related⟩

namespace Scale

def resource (kind : String) : Json :=
  .object [("group", .string "autoscaling"), ("version", .string "v1"), ("kind", .string kind)]

/-- A resource with a kind of its own or without. Its last property has a mapping for its default,
but is none by its type. -/
def schema (kind : String) : Json :=
  .object [("type", .string "object"), ("properties", .object [
      ("kind", .object [("type", .string "string")]),
      ("apiVersion", .object [("type", .string "string")]),
      ("spec", .object [("type", .string "string"), ("default", .object [])])]),
    (Extensions.resourceKindKey, resource kind)]

def shape : ObjectShape Node :=
  ⟨[("kind", .ofScalar .string), ("apiVersion", .ofScalar .string),
    ("spec", (Node.ofScalar .string).noteDefault (some (.object [])))], [], none⟩

def notes (kind : String) : Notes :=
  { extensions := [(Extensions.resourceKindKey, resource kind)] }

/-- The field of a text. -/
def field (name : String) (default : Option Json) : Field ModelType :=
  ⟨name, .string, false, false, none, default, false⟩

def model (name : String) (kind : Option Json) : ObjectModel ModelType :=
  ⟨name, none, [field "kind" kind, field "apiVersion" (some (.string "autoscaling/v1")),
    field "spec" none]⟩

/-- Two resources that differ in nothing but their kinds. -/
def schemas : Entries String Json :=
  [("Scale", schema "Scale"), ("Autoscaler", schema "Autoscaler")]

def decoded : Entries String Node :=
  [("Scale", ⟨.object shape, notes "Scale"⟩), ("Autoscaler", ⟨.object shape, notes "Autoscaler"⟩)]

def classes : List (ObjectModel ModelType) :=
  [model "Scale" (some (.string "Scale")), model "Autoscaler" (some (.string "Autoscaler"))]

def home : Module := ⟨["k8s", "models"], classes.map .object⟩

/-- Each of the two has its own kind. -/
theorem kind_and_version :
    ofSchemas "k8s" .kubernetes true schemas = .ok [home] ∧
      nodes .asWritten schemas = .ok decoded ∧
      DefaultsFollow ⟨"k8s", decoded, .kubernetes, true⟩ [home] ∧
      List.Forall₂ (fun kind resource =>
          List.Forall₂ (FieldRule Eq (notes kind).extensions.resourceKind) shape.properties
            resource.fields) ["Scale", "Autoscaler"] classes := by
  have success : ofSchemas "k8s" .kubernetes true schemas = .ok [home] := by rfl
  have decoded_eq : nodes .asWritten schemas = .ok decoded := by rfl
  obtain ⟨_, known, follow⟩ := defaults_follow success
  cases decoded_eq.symm.trans known
  have among : home ∈ [home] := List.mem_singleton.mpr rfl
  have declared : List.Forall₂ (ClassOf ⟨"k8s", decoded, .kubernetes, true⟩ home)
    ["Scale", "Autoscaler"] home.models := follow.declared home among
  obtain ⟨scale, declared⟩ := List.forall₂_cons.mp declared
  obtain ⟨autoscaler, -⟩ := List.forall₂_cons.mp declared
  have first := follow.of_class among scale rfl
  have second := follow.of_class among autoscaler rfl
  exact ⟨success, decoded_eq, follow, .cons first (.cons second .nil)⟩

/-- Without a kind, group and version still become the default of the API version, which has none
as it is written. -/
theorem version_without_kind :
    nodes .asWritten [("Scale", schema "")] = .ok [("Scale", ⟨.object shape, notes ""⟩)] ∧
      (notes "").extensions.resourceKind.kind = "" ∧
      ("apiVersion", Node.ofScalar .string) ∈ shape.properties ∧
      (Node.ofScalar .string).notes.default = none ∧
      ofSchemas "k8s" .kubernetes true [("Scale", schema "")] =
        .ok [⟨["k8s", "models"], [.object (model "Scale" none)]⟩] ∧
      field "apiVersion" (some (.string "autoscaling/v1")) ∈ (model "Scale" none).fields :=
  ⟨by rfl, rfl, List.mem_cons_of_mem _ List.mem_cons_self, rfl, by rfl,
    List.mem_cons_of_mem _ List.mem_cons_self⟩

end Scale

end Derivation

end ResourceModels

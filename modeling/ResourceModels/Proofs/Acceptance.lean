import Mathlib
import ResourceModels.Proofs.Modules
import ResourceModels.Proofs.Values

/-!
# Derived types admit what the schemas accept

A value that satisfies a schema is admitted by the type derived for it, and by the class declared
for it in the returned modules. Each step of the derivation keeps this: the conventions change no
more than defaults, a replaced reference has the type of its schema or admits anything, joined
alternatives lose no member, and promotion moves an inline type to a declaration that admits
the same values. The induction over a satisfied node carries two statements at once, one for its
uses and one for its declaration, because a reference leads from the one to the other.
-/

namespace ResourceModels

/-- A value that satisfies a schema satisfies it after the conventions have adjusted all nodes. -/
theorem Satisfies.adjust {conventions : Conventions} {schemas : Entries String Node} {node : Node}
    {value : Json} (holds : Satisfies schemas node value) :
    Satisfies (Entries.mapValues schemas conventions.adjustNode) (conventions.adjustNode node)
      value := by
  induction holds with
  | object shape notes members required _ _ declared_holds open_holds =>
    obtain ⟨adjusted, same, properties, same_required, same_additional⟩ :=
      conventions.adjustNode_object shape notes
    have same_keys : Entries.keys adjusted.properties = Entries.keys shape.properties :=
      map_eq_map_of_forall₂ properties fun _ _ related => related.1
    rw [same]
    refine .object adjusted notes members ?_ ?_ ?_
    · rw [same_required]
      exact required
    · intro property inside value given not_passed
      obtain ⟨before, listed, key, kind, nullable⟩ := exists_left_of_forall₂ properties inside
      rw [key] at given
      rw [nullable, Conventions.adjustNode, Node.mapObjects_notes] at not_passed
      exact (declared_holds before listed value given not_passed).of_kind kind
    · intro node additional key value given other
      rw [same_additional] at additional
      rw [same_keys] at other
      obtain ⟨before, open_schema, rfl⟩ := Option.map_eq_some_iff.mp additional
      exact open_holds before open_schema key value given other
  | array node notes items _ ih => exact .array (conventions.adjustNode node) notes items ih
  | scalar shape notes value typed listed => exact .scalar shape notes value typed listed
  | reference path notes target node value valid found _ ih =>
    refine .reference path notes target (conventions.adjustNode node) value valid ?_ ih
    rw [Entries.get?_mapValues, found]
    rfl
  | union variants notes variant value present _ ih =>
    rw [Conventions.adjustNode, Node.mapObjects, Node.mapObjectsIn, Node.mapVariants_eq]
    exact .union _ notes (conventions.adjustNode variant) value (List.mem_map_of_mem present) ih
  | any notes value => exact .any notes value

namespace Promotion

variable {set : ModelSet} {path : ModulePath} {made : List Model}

theorem Hoisted.isNull {before after : ModelType} (related : Hoisted path made before after) :
    after.isNull = before.isNull := by
  cases before with
  | array => obtain ⟨_, rfl, _⟩ := related; rfl
  | map => obtain ⟨_, rfl, _⟩ := related; rfl
  | union => obtain ⟨_, rfl, _⟩ := related; rfl
  | object => obtain ⟨_, _, rfl, _⟩ := related; rfl
  | enum => obtain ⟨_, rfl, _⟩ := related; rfl
  | _ => cases related; rfl

theorem Hoisted.isNullable {before after : ModelType} (related : Hoisted path made before after) :
    after.isNullable = before.isNullable := by
  cases before with
  | array => obtain ⟨_, rfl, _⟩ := related; rfl
  | map => obtain ⟨_, rfl, _⟩ := related; rfl
  | union members =>
    obtain ⟨members', rfl, below⟩ := related
    have members_related := hoistedMembers_iff.mp below
    rw [ModelType.isNullable, ModelType.isNullable]
    clear below
    induction members_related with
    | nil => rfl
    | cons head _ ih => rw [List.any_cons, List.any_cons, head.isNull, ih]
  | object => obtain ⟨_, _, rfl, _⟩ := related; rfl
  | enum => obtain ⟨_, rfl, _⟩ := related; rfl
  | _ => cases related; rfl

/-- An object admits the same values once its fields are hoisted, if each of its fields does. -/
theorem admits_hoistedFields {model : ObjectModel ModelType} {fields : List (Field ModelType)}
    (below : List.Forall₂ (HoistedField path made) model.fields fields)
    (each : ∀ field ∈ model.fields, ∀ after value, Hoisted path made field.type after →
      Admits set field.type value → Admits set after value)
    {value : Json} (holds : Admits set (.object model) value) (name : String) :
    Admits set (.object { model with name, fields }) value := by
  cases holds with
  | object _ members absent given =>
    refine .object _ members ?_ ?_
    · intro field' inside' left_out
      obtain ⟨field, inside, type, rfl, -⟩ := exists_left_of_forall₂ below inside'
      exact absent field inside left_out
    · intro field' inside' value present not_passed
      obtain ⟨field, inside, type, rfl, hoisted⟩ := exists_left_of_forall₂ below inside'
      have same_optional : Field.isOptional { field with type } = field.isOptional := by
        unfold Field.isOptional
        rw [hoisted.isNullable]
      rw [same_optional] at not_passed
      exact each field inside type value hoisted (given field inside value present not_passed)

/-- Promotion takes no value away: a declaration made for what stood inline admits the same. -/
theorem Hoisted.admits {before after : ModelType} (related : Hoisted path made before after)
    (declared : ∀ model ∈ made, set.lookup? ⟨path, model.name⟩ = some model) {value : Json}
    (holds : Admits set before value) : Admits set after value := by
  induction before generalizing after value with
  | array item ih =>
    obtain ⟨item', rfl, below⟩ := related
    cases holds with
    | array _ items each => exact .array item' items fun item inside => ih below (each item inside)
  | map type ih =>
    obtain ⟨type', rfl, below⟩ := related
    cases holds with
    | map _ members each =>
      exact .map type' members fun key value given => ih below (each key value given)
  | union members ih =>
    obtain ⟨members', rfl, below⟩ := related
    cases holds with
    | union _ member _ present admitted =>
      obtain ⟨member', present', hoisted⟩ :=
        exists_right_of_forall₂ (hoistedMembers_iff.mp below) present
      exact .union members' member' value present' (ih member present hoisted admitted)
  | object model ih =>
    obtain ⟨name, fields, rfl, listed, below⟩ := related
    refine .ref _ _ value (declared _ listed) ?_
    exact admits_hoistedFields (hoistedFields_iff.mp below)
      (fun field inside after value hoisted admitted => ih field inside hoisted admitted) holds name
  | enum model =>
    obtain ⟨name, rfl, listed⟩ := related
    cases holds with
    | enum _ text variant => exact .ref _ _ _ (declared _ listed) (.enum _ text variant)
  | _ =>
    cases related
    exact holds

theorem HoistedModel.admits {before after : Model} (related : HoistedModel path made before after)
    (declared : ∀ model ∈ made, set.lookup? ⟨path, model.name⟩ = some model) {value : Json}
    (holds : Admits set before.asType value) : Admits set after.asType value := by
  cases before with
  | object model =>
    obtain ⟨name, fields, rfl, below⟩ := related
    exact admits_hoistedFields below
      (fun _ _ _ _ hoisted admitted => hoisted.admits declared admitted) holds name
  | enum model =>
    obtain ⟨name, rfl⟩ := related
    cases holds with
    | enum _ text variant => exact .enum _ text variant
  | «alias» model =>
    obtain ⟨target, rfl, below⟩ := related
    exact below.admits declared holds

end Promotion

namespace Resolver

/-- The fields made from properties admit the members of an object whose properties are admitted
one by one. -/
theorem admits_fields {set : ModelSet} {conventions : Conventions} {follow : Follow}
    {required : List String} {properties : List (String × Node)} {fields : List (Field ModelType)}
    (resolved : fieldsOf conventions follow required properties = .ok fields)
    {members : List (String × Json)}
    (complete : ∀ key ∈ required, (Entries.get? members key).isSome)
    (each : ∀ property ∈ properties, ∀ value, Entries.get? members property.1 = some value →
      (value ≠ .null ∨ property.2.notes.nullable = false) → ∀ context type,
      typeOf conventions follow context property.2 = .ok type → Admits set type value)
    (name : String) (description : Option String) :
    Admits set (.object ⟨name, description, fields⟩) (.object members) := by
  have related := fieldsOf_eq_ok_iff.mp resolved
  refine .object _ members ?_ ?_
  · intro field inside left_out
    obtain ⟨property, -, type, -, rfl⟩ := exists_left_of_forall₂ related inside
    left
    rw [fieldOf, Conventions.adjustField_name] at left_out
    rw [fieldOf, Conventions.adjustField_required]
    refine decide_eq_false fun needed => ?_
    have present := complete property.1 needed
    rw [left_out] at present
    cases present
  · intro field inside value given not_passed
    obtain ⟨property, listed, type, typed, rfl⟩ := exists_left_of_forall₂ related inside
    rw [fieldOf, Conventions.adjustField_name] at given
    rw [fieldOf, Conventions.adjustField_type]
    refine each property listed value given (not_passed.imp_right fun strict => ?_) _ type typed
    unfold Field.isOptional at strict
    rw [fieldOf, Conventions.adjustField_nullable] at strict
    simp only [Bool.or_eq_false_iff] at strict
    exact strict.1.2

/-- Every declared schema has a declaration in the set, which admits whatever the declaration that
the resolver makes for the schema does. -/
def Provides (resolver : Resolver) (set : ModelSet) : Prop :=
  ∀ name node, Entries.get? resolver.nodes name = some node → resolver.isCollapsed node = false →
    ∃ plain own, resolver.declare name node = .ok plain ∧
      set.lookup? (resolver.classRef name) = some own ∧
      ∀ value, Admits set plain.asType value → Admits set own.asType value

/-- The value is admitted wherever the node is used and by every declaration made for it. -/
structure Accepted (resolver : Resolver) (set : ModelSet) (node : Node) (value : Json) : Prop where
  used : ∀ current budget inlining context type,
    typeOf resolver.conventions (resolver.followWithin current budget inlining) context node =
      .ok type → Admits set type value
  declared : ∀ name model, resolver.declare name node = .ok model → Admits set model.asType value

/-- The declaration of a schema that is no object and no enumeration stands for its type. -/
theorem Accepted.of_used {resolver : Resolver} {set : ModelSet} {node : Node} {value : Json}
    (used : ∀ current budget inlining context type,
      typeOf resolver.conventions (resolver.followWithin current budget inlining) context node =
        .ok type → Admits set type value)
    (object : ∀ shape fields name, node.kind = .object shape →
      fieldsOf resolver.conventions (resolver.followWithin name resolver.nodes.length [])
        shape.required shape.properties = .ok fields →
      Admits set (.object ⟨(resolver.classRef name).name, node.notes.description, fields⟩) value)
    (enum : ∀ shape name, node.kind = .scalar shape → shape.variants ≠ [] →
      Admits set (.enum (enumModel name node.notes shape)) value) :
    Accepted resolver set node value where
  used := used
  declared := by
    intro name model success
    obtain ⟨shape, fields, kind, -, resolved, rfl⟩ | ⟨shape, kind, nonempty, rfl⟩ |
      ⟨target, resolved, rfl⟩ := declare_eq_ok success
    · rw [follow_eq] at resolved
      exact object shape fields name kind resolved
    · exact enum shape _ kind nonempty
    · rw [Resolver.type, typeWithin_eq] at resolved
      exact used name _ _ _ target resolved

/-- Only a text scalar is limited to texts. -/
theorem type_of_variants {shape : ScalarShape} (nonempty : shape.variants ≠ []) :
    shape.type = .string := by
  unfold ScalarShape.variants at nonempty
  split at nonempty
  next is_string => exact is_string
  next => exact absurd rfl nonempty

theorem mem_variants {shape : ScalarShape} {text : String} (typed : shape.type = .string)
    (listed : shape.values ≠ [] → Json.string text ∈ shape.values)
    (nonempty : shape.variants ≠ []) : text ∈ shape.variants := by
  unfold ScalarShape.variants at nonempty ⊢
  rw [if_pos typed] at nonempty ⊢
  refine List.mem_filterMap.mpr ⟨.string text, listed ?_, rfl⟩
  rintro empty
  rw [empty] at nonempty
  exact nonempty rfl

theorem admits_enum {set : ModelSet} {shape : ScalarShape} {value : Json}
    (typed : shape.type.Holds value)
    (listed : shape.type = .string → shape.values ≠ [] → value ∈ shape.values)
    (nonempty : shape.variants ≠ []) (name : String) (notes : Notes) :
    Admits set (.enum (enumModel name notes shape)) value := by
  have is_string := type_of_variants nonempty
  rw [is_string] at typed
  cases typed with
  | string text => exact .enum _ text (mem_variants is_string (listed is_string) nonempty)

section

variable {resolver : Resolver} {set : ModelSet}

theorem Accepted.object {shape : ObjectShape Node} (notes : Notes) {members : List (String × Json)}
    (required : ∀ key ∈ shape.required, (Entries.get? members key).isSome)
    (declared : ∀ property ∈ shape.properties, ∀ value,
      Entries.get? members property.1 = some value →
      (value ≠ .null ∨ property.2.notes.nullable = false) →
      Accepted resolver set property.2 value)
    (open_keys : ∀ node, shape.additional = some node → ∀ key value,
      Entries.get? members key = some value → key ∉ Entries.keys shape.properties →
      Accepted resolver set node value) :
    Accepted resolver set ⟨.object shape, notes⟩ (.object members) := by
  have fields_admit : ∀ current budget inlining fields name description,
      fieldsOf resolver.conventions (resolver.followWithin current budget inlining)
        shape.required shape.properties = .ok fields →
      Admits set (.object ⟨name, description, fields⟩) (.object members) := by
    intro current budget inlining fields name description resolved
    refine admits_fields resolved required ?_ name description
    intro property inside value given not_passed context type typed
    exact (declared property inside value given not_passed).used _ _ _ context type typed
  refine .of_used ?_ ?_ ?_
  · intro current budget inlining context type success
    obtain ⟨empty, value_type, found, rfl⟩ | ⟨fields, found, rfl⟩ := typeOf_object_eq_ok success
    · refine .map value_type members fun key value given => ?_
      obtain ⟨-, rfl⟩ | ⟨node, additional, found⟩ := mapType_eq_ok found
      · exact .any value
      · have other : key ∉ Entries.keys shape.properties := by simp [empty]
        exact (open_keys node additional key value given other).used _ _ _ _ _ found
    · exact fields_admit _ _ _ fields _ _ found
  · intro _ fields name same resolved
    cases same
    exact fields_admit _ _ _ fields _ _ resolved
  · intro _ _ same
    cases same

theorem Accepted.array {node : Node} (notes : Notes) {items : List Json}
    (each : ∀ item ∈ items, Accepted resolver set node item) :
    Accepted resolver set ⟨.array node, notes⟩ (.array items) := by
  refine .of_used ?_ (fun _ _ _ same => by cases same) (fun _ _ same => by cases same)
  intro current budget inlining context type success
  obtain ⟨item_type, found, rfl⟩ := typeOf_array_eq_ok success
  exact .array item_type items fun item inside => (each item inside).used _ _ _ _ _ found

theorem Accepted.scalar {shape : ScalarShape} (notes : Notes) {value : Json}
    (typed : shape.type.Holds value)
    (listed : shape.type = .string → shape.values ≠ [] → value ∈ shape.values) :
    Accepted resolver set ⟨.scalar shape, notes⟩ value := by
  refine .of_used ?_ (fun _ _ _ same => by cases same) ?_
  · intro current budget inlining context type success
    obtain rfl | ⟨nonempty, rfl⟩ := typeOf_scalar_eq_ok success
    · exact ModelType.admits_ofScalar typed
    · exact admits_enum typed listed nonempty context notes
  · intro _ name same nonempty
    cases same
    exact admits_enum typed listed nonempty name notes

/-- A reference leads to the declaration of its schema or to the replacement for it. -/
theorem Accepted.reference (provides : resolver.Provides set) {path target : String}
    (notes : Notes) {node : Node} {value : Json} (valid : Reference.target path = .ok target)
    (found : Entries.get? resolver.nodes target = some node)
    (below : Accepted resolver set node value) :
    Accepted resolver set ⟨.reference path, notes⟩ value := by
  refine .of_used ?_ (fun _ _ _ same => by cases same) (fun _ _ same => by cases same)
  intro current budget inlining context type success
  rw [typeOf] at success
  obtain ⟨target', node', valid', found', outcome⟩ := followWithin_eq_ok success
  cases valid.symm.trans valid'
  cases found.symm.trans found'
  rcases outcome with ⟨kept, rfl⟩ | ⟨-, rfl | ⟨smaller, -, replaced⟩⟩
  · obtain ⟨plain, own, declare, lookup, no_less⟩ := provides target node found kept
    exact .ref _ own value lookup (no_less value (below.declared target plain declare))
  · exact .any value
  · exact below.used _ _ _ _ _ replaced

theorem Accepted.union {variants : List Node} (notes : Notes) {variant : Node} {value : Json}
    (present : variant ∈ variants) (below : Accepted resolver set variant value) :
    Accepted resolver set ⟨.union variants, notes⟩ value := by
  refine .of_used ?_ (fun _ _ _ same => by cases same) (fun _ _ same => by cases same)
  intro current budget inlining context type success
  obtain ⟨types, found, rfl⟩ := typeOf_union_eq_ok success
  obtain ⟨variant_type, inside, typed⟩ := exists_right_of_forall₂ found present
  have admitted := below.used _ _ _ _ _ typed
  exact admitted.unite inside

theorem Accepted.any (notes : Notes) (value : Json) :
    Accepted resolver set ⟨.any, notes⟩ value := by
  refine .of_used ?_ (fun _ _ _ same => by cases same) (fun _ _ same => by cases same)
  intro current budget inlining context type success
  rw [typeOf] at success
  cases success
  exact .any value

/-- A satisfied node is accepted, at its uses and in its declaration. The induction is on how the
value satisfies the node; at a reference it goes on at the schema that is named. -/
theorem accepted_of_satisfies (provides : resolver.Provides set) {node : Node} {value : Json}
    (holds : Satisfies resolver.nodes node value) : Accepted resolver set node value := by
  induction holds with
  | object shape notes members required _ _ declared_holds open_holds =>
    exact .object notes required declared_holds open_holds
  | array node notes items _ each => exact .array notes each
  | scalar shape notes value typed listed => exact .scalar notes typed listed
  | reference path notes target node value valid found _ below =>
    exact .reference provides notes valid found below
  | union variants notes variant value present _ below => exact .union notes present below
  | any notes value => exact .any notes value

end

end Resolver

/-- Where namespaces and names are distinct, a declaration is found under its own name. -/
theorem ModelSet.lookup?_of_mem {set : ModelSet} (distinct : (set.map Module.path).Nodup)
    {home : Module} (present : home ∈ set) (distinct_names : (home.models.map Model.name).Nodup)
    {model : Model} (inside : model ∈ home.models) :
    set.lookup? ⟨home.path, model.name⟩ = some model := by
  have found_home : set.module? home.path = some home := find?_of_nodup_map distinct present
  have found_model : home.find? model.name = some model :=
    find?_of_nodup_map distinct_names inside
  rw [lookup?, found_home]
  exact found_model

namespace Derivation

/-- The modules provide what the resolver declares, if the schemas belong to different classes. -/
theorem provides_promoted {resolver : Resolver} {declared : List (ModulePath × Model)}
    (related : List.Forall₂ resolver.Declares
      ((Entries.keys resolver.nodes).filter resolver.isDeclared) declared)
    (distinct : ((Entries.keys resolver.nodes).map resolver.classRef).Nodup) :
    resolver.Provides ((Module.group declared).map Module.promoteInline) := by
  intro name node known kept
  obtain ⟨plain, declare, home, grouped, own, promoted, same_class, hoisted⟩ :=
    exists_promoted_declaration related known kept
  have distinct_paths :
      (((Module.group declared).map Module.promoteInline).map Module.path).Nodup := by
    rw [List.map_map]
    exact Module.group_paths_nodup declared
  have distinct_names : (home.promoteInline.models.map Model.name).Nodup := by
    refine home.promoteInline_nodup (nodup_names_of_mem_group related ?_ grouped)
    exact distinct.sublist (List.filter_sublist.map _)
  have found : ∀ model ∈ home.promoteInline.models,
      ModelSet.lookup? ((Module.group declared).map Module.promoteInline) ⟨home.path, model.name⟩ =
        some model :=
    fun model present => ModelSet.lookup?_of_mem distinct_paths (List.mem_map_of_mem grouped)
      distinct_names present
  refine ⟨plain, own, declare, ?_, fun value admitted => hoisted.admits found admitted⟩
  rw [same_class]
  exact found own promoted

/-- A value that satisfies a declared schema is admitted by its class in the returned modules, and a
value that satisfies any node by the type derived for that node. -/
theorem derivation_accepts {bucket : String} {conventions : Conventions} {collapse : Bool}
    {schemas : Entries String Json} {modules : List Module}
    (success : ofSchemas bucket conventions collapse schemas = .ok modules)
    (distinct : ((Entries.keys schemas).map (ClassRef.ofSchemaName bucket)).Nodup) :
    ∃ decoded, nodes .asWritten schemas = .ok decoded ∧
      (∀ name node value, Entries.get? decoded name = some node →
        (collapse = false ∨ node.isModel = true) → Satisfies decoded node value →
        Admits modules (.ref (ClassRef.ofSchemaName bucket name)) value) ∧
      ∀ current context node type value,
        Resolver.type
            ⟨bucket, Entries.mapValues decoded conventions.adjustNode, conventions, collapse⟩
            current context (conventions.adjustNode node) = .ok type →
        Satisfies decoded node value → Admits modules type value := by
  obtain ⟨adjusted, declared, known, related, rfl⟩ := ofSchemas_eq_ok success
  obtain ⟨decoded, decodes, rfl⟩ := nodes_asWritten known
  let resolver : Resolver :=
    ⟨bucket, Entries.mapValues decoded conventions.adjustNode, conventions, collapse⟩
  rw [← keys_nodes known] at related distinct
  have provides : resolver.Provides ((Module.group declared).map Module.promoteInline) :=
    provides_promoted related distinct
  refine ⟨decoded, decodes, ?_, ?_⟩
  · intro name node value found kept holds
    have adjusted_found :
        Entries.get? resolver.nodes name = some (conventions.adjustNode node) := by
      change Entries.get? (Entries.mapValues decoded conventions.adjustNode) name = _
      rw [Entries.get?_mapValues, found]
      rfl
    have not_collapsed : resolver.isCollapsed (conventions.adjustNode node) = false := by
      unfold Resolver.isCollapsed
      rw [conventions.isModel_adjustNode]
      rcases kept with off | is_model
      · change (collapse && _) = false
        rw [off, Bool.false_and]
      · rw [is_model, Bool.not_true, Bool.and_false]
    obtain ⟨plain, own, declare, lookup, no_less⟩ := provides name _ adjusted_found not_collapsed
    have accepted : resolver.Accepted _ (conventions.adjustNode node) value :=
      Resolver.accepted_of_satisfies provides holds.adjust
    exact .ref _ own value lookup (no_less value (accepted.declared name plain declare))
  · intro current context node type value typed holds
    have accepted : resolver.Accepted _ (conventions.adjustNode node) value :=
      Resolver.accepted_of_satisfies provides holds.adjust
    rw [Resolver.type, Resolver.typeWithin_eq] at typed
    exact accepted.used _ _ _ context type typed

/-- A model whose one property refers to a schema that is no model. -/
def serviceSchemas : Entries String Json :=
  [("Service", .object [("type", .string "object"), ("required", .array [.string "port"]),
      ("properties", .object [("port", .object [("$ref", .string "#/definitions/Port")])])]),
   ("Port", .object [("type", .string "integer")])]

theorem service_accepted :
    ((Entries.keys serviceSchemas).map (ClassRef.ofSchemaName "demo")).Nodup ∧
      ∃ modules, ofSchemas "demo" .kubernetes true serviceSchemas = .ok modules ∧
        Admits modules (.ref ⟨["demo", "models"], "Service"⟩)
          (.object [("port", .number (.integer 80))]) := by
  have distinct : ((Entries.keys serviceSchemas).map (ClassRef.ofSchemaName "demo")).Nodup := by
    decide
  obtain ⟨decoded, decodes, classes, -⟩ := derivation_accepts
    (rfl : ofSchemas "demo" .kubernetes true serviceSchemas = .ok _) distinct
  obtain rfl : _ = decoded := Except.ok.inj decodes
  refine ⟨distinct, _, rfl, classes "Service" _ _ rfl (.inr rfl) ?_⟩
  refine .object _ _ _ ?_ ?_ ?_
  · decide
  · intro property inside value given _
    obtain rfl := List.mem_singleton.mp inside
    obtain rfl := Option.some.inj given
    exact .reference "#/definitions/Port" _ "Port" _ _ rfl rfl
      (.scalar _ _ _ (.integer 80) fun is_string => by cases is_string)
  · intro node additional
    cases additional

end Derivation

end ResourceModels

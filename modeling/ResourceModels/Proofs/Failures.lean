import Mathlib
import ResourceModels.Proofs.Adjusting

/-!
# When a derivation fails

A derivation fails over a schema that cannot be decoded, or over a reference that it reaches and
that names no schema, and over nothing else (`derives_iff`). Replacing a schema inside itself is
cut off, but that hides no reference: what is cut off has been gone through before. A reference
without a schema is reported in the name of the declared schema from which it was reached, which
need not be the schema it is written in (`Dangling.reported_for_pod`).
-/

namespace ResourceModels

/-- The error for a reference that names no schema, where the schema `current` is declared. -/
inductive Complains (nodes : Entries String Node) (current path : String) : DerivationError → Prop
  | invalid (refused : Reference.target path = .error (.invalidReference path)) :
      Complains nodes current path (.invalidReference path)
  | unresolved (target : String) (valid : Reference.target path = .ok target)
      (unknown : Entries.get? nodes target = none) :
      Complains nodes current path (.unresolvedReference path current)

theorem Complains.not_resolves {nodes : Entries String Node} {current path : String}
    {error : DerivationError} (complains : Complains nodes current path error) :
    ¬ Resolves nodes path := by
  rintro ⟨target, node, valid, known⟩
  cases complains with
  | invalid refused => cases refused.symm.trans valid
  | unresolved other valid' unknown =>
    cases valid'.symm.trans valid
    cases unknown.symm.trans known

theorem Complains.of_mapValues {nodes : Entries String Node} {change : Node → Node}
    {current path : String} {error : DerivationError}
    (complains : Complains (Entries.mapValues nodes change) current path error) :
    Complains nodes current path error := by
  cases complains with
  | invalid refused => exact .invalid refused
  | unresolved target valid unknown =>
    rw [Entries.get?_mapValues, Option.map_eq_none_iff] at unknown
    exact .unresolved target valid unknown

theorem resolves_of_mapValues {nodes : Entries String Node} {change : Node → Node} {path : String}
    (resolves : Resolves (Entries.mapValues nodes change) path) : Resolves nodes path := by
  obtain ⟨target, node, valid, known⟩ := resolves
  rw [Entries.get?_mapValues] at known
  obtain ⟨original, found, -⟩ := Option.map_eq_some_iff.mp known
  exact ⟨target, original, valid, found⟩

theorem Reference.target_eq_error {path : String} {error : DerivationError}
    (refused : Reference.target path = .error error) : error = .invalidReference path := by
  unfold Reference.target at refused
  split at refused <;> cases refused
  rfl

/-- A model without properties says nothing of open keys. -/
theorem Node.additional_eq_none {shape : ObjectShape Node} {notes : Notes}
    (model : Node.isModel ⟨.object shape, notes⟩ = true) (no_properties : shape.properties = []) :
    shape.additional = none := by
  simp only [isModel, no_properties, List.isEmpty_nil, Bool.not_true, Bool.false_or,
    Bool.and_eq_true, Option.isNone_iff_eq_none] at model
  exact model.1

/-- A scalar that is a model has alternatives to choose from. -/
theorem Node.variants_nonempty {shape : ScalarShape} {notes : Notes}
    (model : Node.isModel ⟨.scalar shape, notes⟩ = true) : ¬ shape.variants.isEmpty = true := by
  simpa [isModel] using model

namespace Resolver

variable {resolver : Resolver} {conventions : Conventions} {follow : Follow}

theorem typesOf_eq_error {context : String} {nodes : List Node} {error : DerivationError}
    (failure : typesOf conventions follow context nodes = .error error) :
    ∃ node ∈ nodes, typeOf conventions follow context node = .error error := by
  induction nodes with
  | nil => cases failure
  | cons node rest ih =>
    rw [typesOf_cons] at failure
    obtain here | ⟨type, -, later⟩ := bind_eq_error failure
    · exact ⟨node, List.mem_cons_self, here⟩
    · obtain ⟨other, listed, failed⟩ := ih (map_eq_error later)
      exact ⟨other, List.mem_cons_of_mem _ listed, failed⟩

theorem fieldsOf_eq_error {required : List String} {properties : List (String × Node)}
    {error : DerivationError}
    (failure : fieldsOf conventions follow required properties = .error error) :
    ∃ property ∈ properties,
      typeOf conventions follow (suggestedClassName property.1) property.2 = .error error := by
  induction properties with
  | nil => cases failure
  | cons property rest ih =>
    rw [fieldsOf_cons] at failure
    obtain here | ⟨type, -, later⟩ := bind_eq_error failure
    · exact ⟨property, List.mem_cons_self, here⟩
    · obtain ⟨other, listed, failed⟩ := ih (map_eq_error later)
      exact ⟨other, List.mem_cons_of_mem _ listed, failed⟩

/-- A node without a type holds a reference that could not be followed. -/
theorem exists_reference_of_error {node : Node} {context : String} {error : DerivationError}
    (failure : typeOf conventions follow context node = .error error) :
    ∃ path notes context', Relation.ReflTransGen Node.Holds node ⟨.reference path, notes⟩ ∧
      follow path context' = .error error := by
  induction node generalizing context with
  | object shape notes properties_hold additional_holds =>
    rw [typeOf_object] at failure
    split at failure
    next no_properties =>
      have below := map_eq_error failure
      cases given : shape.additional with
      | none =>
        rw [given] at below
        cases below
      | some node =>
        rw [given] at below
        obtain ⟨path, notes', context', reaches, failed⟩ := additional_holds node given below
        have holds :=
          Node.Holds.additional shape notes node (List.isEmpty_iff.mp no_properties) given
        exact ⟨path, notes', context', reaches.head holds, failed⟩
    next =>
      obtain ⟨property, inside, below⟩ := fieldsOf_eq_error (map_eq_error failure)
      obtain ⟨path, notes', context', reaches, failed⟩ := properties_hold property inside below
      have holds := Node.Holds.property shape notes property inside
      exact ⟨path, notes', context', reaches.head holds, failed⟩
  | array items notes ih =>
    rw [typeOf_array] at failure
    obtain ⟨path, notes', context', reaches, failed⟩ := ih (map_eq_error failure)
    exact ⟨path, notes', context', reaches.head (.items items notes), failed⟩
  | scalar shape notes =>
    rw [typeOf] at failure
    split at failure <;> cases failure
  | reference path notes =>
    rw [typeOf] at failure
    exact ⟨path, notes, context, .refl, failure⟩
  | union variants notes ih =>
    rw [typeOf_union] at failure
    obtain ⟨variant, inside, below⟩ := typesOf_eq_error (map_eq_error failure)
    obtain ⟨path, notes', context', reaches, failed⟩ := ih variant inside below
    have holds := Node.Holds.variant variants notes variant inside
    exact ⟨path, notes', context', reaches.head holds, failed⟩
  | any notes => cases failure

theorem reaches_of_holds {collapse : Bool} {nodes : Entries String Node} {outer inner : Node}
    (holds : Relation.ReflTransGen Node.Holds outer inner) : Reaches collapse nodes outer inner :=
  Relation.ReflTransGen.mono (fun outer inner => Next.inside outer inner) outer inner holds

/-- A reference that cannot be followed names no schema, or the schema replacing it fails. -/
theorem reference_eq_error {current : String}
    {inline : String → String → Node → Except DerivationError ModelType} {path context : String}
    {error : DerivationError}
    (failure : resolver.reference current inline path context = .error error) :
    Complains resolver.nodes current path error ∨
      ∃ target node, Reference.target path = .ok target ∧
        Entries.get? resolver.nodes target = some node ∧ resolver.isCollapsed node = true ∧
        inline target context node = .error error := by
  unfold reference at failure
  split at failure
  next refused =>
    cases failure
    obtain rfl := Reference.target_eq_error refused
    exact .inl (.invalid refused)
  next target valid =>
    split at failure
    next unknown =>
      cases failure
      exact .inl (.unresolved target valid unknown)
    next node known =>
      split at failure
      next => cases failure
      next replaced =>
        have collapsed : resolver.isCollapsed node = true := by unfold isCollapsed; grind
        exact .inr ⟨target, node, valid, known, collapsed, failure⟩

/-- Where following a reference fails, it leads to one that names no schema. -/
theorem exists_complaint_of_follow {current : String} {budget : Nat} {inlining : List String}
    {path context : String} {error : DerivationError}
    (failure : resolver.followWithin current budget inlining path context = .error error)
    (notes : Notes) : ∃ path' notes',
      Reaches resolver.collapse resolver.nodes ⟨.reference path, notes⟩ ⟨.reference path', notes'⟩ ∧
      Complains resolver.nodes current path' error := by
  induction budget generalizing inlining path context notes with
  | zero =>
    rw [followWithin] at failure
    obtain complains | ⟨target, node, -, -, -, failed⟩ := reference_eq_error failure
    · exact ⟨path, notes, .refl, complains⟩
    · -- An exhausted budget gives the open type; it is no failure.
      cases failed
  | succ budget ih =>
    rw [followWithin] at failure
    obtain complains | ⟨target, node, valid, known, collapsed, failed⟩ := reference_eq_error failure
    · exact ⟨path, notes, .refl, complains⟩
    · split at failed
      next => cases failed
      next =>
        rw [typeWithin_eq] at failed
        obtain ⟨inner, inner_notes, context', holds, failed⟩ := exists_reference_of_error failed
        obtain ⟨path', notes', reaches, complains⟩ := ih failed inner_notes
        obtain ⟨collapsing, no_model⟩ := isCollapsed_eq_true_iff.mp collapsed
        have next := Next.replaced path notes target node collapsing valid known no_model
        exact ⟨path', notes', ((reaches_of_holds holds).trans reaches).head next, complains⟩

/-- What is declared for a schema of this type. -/
def declaration (name : String) (node : Node) (type : ModelType) : Model :=
  if node.isModel then
    match type with
    | .object model => .object model
    | .enum model => .enum model
    | _ => .object ⟨name, node.notes.description, []⟩
  else .alias ⟨name, node.notes.description, type⟩

/-- A declaration is made from the type of the schema and fails with it. Only an object without
properties is no object by its type. -/
theorem declare_eq (resolver : Resolver) (name : String) (node : Node) :
    resolver.declare name node =
      (resolver.type name (resolver.classRef name).name node).map
        (declaration (resolver.classRef name).name node) := by
  cases model : node.isModel with
  | false =>
    rw [resolver.declare_of_no_model name model]
    congr 1
    funext type
    exact (if_neg (by rw [model]; exact Bool.false_ne_true)).symm
  | true =>
    rw [Resolver.type, typeWithin_eq]
    obtain ⟨kind, notes⟩ := node
    unfold declare
    cases kind with
    | object shape =>
      dsimp only
      rw [if_pos model, follow_eq, typeOf_object]
      by_cases no_properties : shape.properties = []
      · -- The type is a mapping here, and the declaration an object without fields all the same.
        rw [no_properties, Node.additional_eq_none model no_properties]
        exact congrArg Except.ok (if_pos model).symm
      · rw [if_neg (fun empty => no_properties (List.isEmpty_iff.mp empty))]
        cases fieldsOf resolver.conventions (resolver.followWithin name resolver.nodes.length [])
          shape.required shape.properties with
        | error error => rfl
        | ok fields => exact congrArg Except.ok (if_pos model).symm
    | scalar shape =>
      dsimp only
      have some_variants := Node.variants_nonempty model
      rw [if_neg some_variants, typeOf, if_neg some_variants]
      exact congrArg Except.ok (if_pos model).symm
    | _ => cases model

/-- A declaration that succeeds has followed every reference that its schema leads to. -/
theorem resolves_of_declare {name : String} {body : Node} {model : Model}
    (success : resolver.declare name body = .ok model) {path : String} {notes : Notes}
    (reaches : Reaches resolver.collapse resolver.nodes body ⟨.reference path, notes⟩) :
    Resolves resolver.nodes path := by
  rw [declare_eq, Resolver.type, typeWithin_eq] at success
  obtain ⟨type, typed, -⟩ := map_eq_ok success
  obtain ⟨inlining, comes⟩ := exists_comesUpon reaches
  obtain ⟨context, part, followed, -⟩ := typed_of_comesUpon typed comes
  rw [typeOf] at followed
  obtain ⟨target, node, valid, known, -⟩ := followWithin_eq_ok followed
  exact ⟨target, node, valid, known⟩

/-- A declaration that fails complains about a reference that its schema leads to, in the name of
that schema. -/
theorem exists_complaint_of_declare {name : String} {body : Node} {error : DerivationError}
    (failure : resolver.declare name body = .error error) : ∃ path notes,
      Reaches resolver.collapse resolver.nodes body ⟨.reference path, notes⟩ ∧
      Complains resolver.nodes name path error := by
  rw [declare_eq, Resolver.type, typeWithin_eq] at failure
  obtain ⟨inner, inner_notes, context, holds, failed⟩ :=
    exists_reference_of_error (map_eq_error failure)
  obtain ⟨path, notes, reaches, complains⟩ := exists_complaint_of_follow failed inner_notes
  exact ⟨path, notes, (reaches_of_holds holds).trans reaches, complains⟩

end Resolver

namespace Derivation

theorem nodes_isOk_iff {schemas : Entries String Json} :
    (∃ decoded, nodes .asWritten schemas = .ok decoded) ↔
      ∀ schema ∈ schemas, (Node.ofJson? schema.2).isSome = true := by
  constructor
  · rintro ⟨decoded, known⟩ schema listed
    obtain ⟨entry, -, -, read⟩ := exists_right_of_forall₂ (nodes_eq_ok known) listed
    obtain ⟨node, found, -⟩ := Option.map_eq_some_iff.mp read
    rw [found]
    rfl
  · intro each
    induction schemas with
    | nil => exact ⟨[], rfl⟩
    | cons schema rest ih =>
      obtain ⟨here, later⟩ := List.forall_mem_cons.mp each
      obtain ⟨node, found⟩ := Option.isSome_iff_exists.mp here
      obtain ⟨decoded, known⟩ := ih later
      refine ⟨(schema.1, node) :: decoded, ?_⟩
      rw [nodes, found]
      dsimp only
      rw [known, Conventions.adjustNode_asWritten]
      rfl

/-- Declarations succeed one by one. -/
theorem exists_model?_of_declarations {resolver : Resolver} {names : List String}
    {declared : List (ModulePath × Model)} (success : declarations resolver names = .ok declared) :
    ∀ name ∈ names, ∃ found, resolver.model? name = .ok found := by
  induction names generalizing declared with
  | nil => exact fun _ absent => absurd absent List.not_mem_nil
  | cons name rest ih =>
    rw [declarations] at success
    split at success
    next => cases success
    next found resolved =>
      obtain ⟨more, others, -⟩ := bind_eq_ok success
      exact List.forall_mem_cons.mpr ⟨⟨found, resolved⟩, ih others⟩

/-- Declarations fail with the first one that fails. -/
theorem declarations_eq_error {resolver : Resolver} {names : List String} {error : DerivationError}
    (failure : declarations resolver names = .error error) :
    ∃ before name after, names = before ++ name :: after ∧
      (∀ earlier ∈ before, ∃ found, resolver.model? earlier = .ok found) ∧
      resolver.model? name = .error error := by
  induction names with
  | nil => cases failure
  | cons name rest ih =>
    rw [declarations] at failure
    split at failure
    next failed =>
      cases failure
      exact ⟨[], name, rest, rfl, fun _ absent => absurd absent List.not_mem_nil, failed⟩
    next found resolved =>
      obtain later | ⟨more, -, done⟩ := bind_eq_error failure
      · obtain ⟨before, other, after, rfl, succeed, failed⟩ := ih later
        exact ⟨name :: before, other, after, rfl,
          List.forall_mem_cons.mpr ⟨⟨found, resolved⟩, succeed⟩, failed⟩
      · split at done <;> cases done

/-- For a schema of the document, only its declaration can fail. -/
theorem exists_declare_error {resolver : Resolver} {name : String}
    (listed : name ∈ Entries.keys resolver.nodes) {error : DerivationError}
    (failure : resolver.model? name = .error error) :
    ∃ body, Entries.get? resolver.nodes name = some body ∧ resolver.isCollapsed body = false ∧
      resolver.declare name body = .error error := by
  unfold Resolver.model? at failure
  split at failure
  next unknown => exact absurd listed ((Entries.get?_eq_none_iff _ _).mp unknown)
  next body known =>
    split at failure
    next => cases failure
    next kept => exact ⟨body, known, by simpa using kept, map_eq_error failure⟩

/-- Where a schema is declared, everything reached from it resolves. -/
theorem resolves_of_model? {resolver : Resolver} {name : String} {found : Option Model}
    (success : resolver.model? name = .ok found) {path : String} {notes : Notes}
    (reached : ReachedFrom resolver.collapse resolver.nodes name ⟨.reference path, notes⟩) :
    Resolves resolver.nodes path := by
  obtain ⟨body, known, kept, reaches⟩ := reached
  have kept := Resolver.isCollapsed_eq_false_iff.mpr kept
  unfold Resolver.model? at success
  rw [known] at success
  dsimp only at success
  rw [kept, if_neg Bool.false_ne_true] at success
  obtain ⟨model, declare, -⟩ := map_eq_ok success
  exact Resolver.resolves_of_declare declare reaches

/-- Adjusting the schemas takes no reference away. -/
theorem resolves_of_adjusted {conventions : Conventions} {collapse : Bool}
    {decoded : Entries String Node} {name : String}
    (each : ∀ path notes,
      ReachedFrom collapse (Entries.mapValues decoded conventions.adjustNode) name
        ⟨.reference path, notes⟩ →
      Resolves (Entries.mapValues decoded conventions.adjustNode) path)
    {path : String} {notes : Notes}
    (reached : ReachedFrom collapse decoded name ⟨.reference path, notes⟩) :
    Resolves decoded path := by
  obtain ⟨_, reached, default, rfl⟩ := reached.adjusted
  exact resolves_of_mapValues (each path _ reached)

/-- A derivation succeeds exactly when every schema can be decoded and every reference that is
reached from a declared schema names a schema. Where all can be decoded and it fails, the error is
about a reference that names none, in the name of the first declared schema from which such a
reference is reached. -/
theorem derives_iff (bucket : String) (conventions : Conventions) (collapse : Bool)
    (schemas : Entries String Json) :
    ((∃ modules, ofSchemas bucket conventions collapse schemas = .ok modules) ↔
      (∀ schema ∈ schemas, (Node.ofJson? schema.2).isSome = true) ∧
        ∀ decoded, nodes .asWritten schemas = .ok decoded → ∀ name path notes,
          ReachedFrom collapse decoded name ⟨.reference path, notes⟩ → Resolves decoded path) ∧
    ∀ decoded error, nodes .asWritten schemas = .ok decoded →
      ofSchemas bucket conventions collapse schemas = .error error →
        ∃ before name after, Entries.keys decoded = before ++ name :: after ∧
          (∀ earlier ∈ before, ∀ path notes,
            ReachedFrom collapse decoded earlier ⟨.reference path, notes⟩ →
              Resolves decoded path) ∧
          ∃ path notes, ReachedFrom collapse decoded name ⟨.reference path, notes⟩ ∧
            Complains decoded name path error := by
  have complaint : ∀ decoded error, nodes .asWritten schemas = .ok decoded →
      ofSchemas bucket conventions collapse schemas = .error error →
        ∃ before name after, Entries.keys decoded = before ++ name :: after ∧
          (∀ earlier ∈ before, ∀ path notes,
            ReachedFrom collapse decoded earlier ⟨.reference path, notes⟩ →
              Resolves decoded path) ∧
          ∃ path notes, ReachedFrom collapse decoded name ⟨.reference path, notes⟩ ∧
            Complains decoded name path error := by
    intro decoded error known failure
    let resolver : Resolver :=
      ⟨bucket, Entries.mapValues decoded conventions.adjustNode, conventions, collapse⟩
    unfold ofSchemas at failure
    rw [nodes_eq_map, known] at failure
    obtain failed | ⟨_, -, done⟩ : declarations resolver (Entries.keys resolver.nodes) =
        .error error ∨ _ := bind_eq_error failure
    · obtain ⟨before, name, after, split_keys, succeed, failed⟩ := declarations_eq_error failed
      have listed := split_keys ▸ List.mem_append_right before List.mem_cons_self
      obtain ⟨body, found, kept, failed⟩ := exists_declare_error listed failed
      obtain ⟨path, notes, reaches, complains⟩ := Resolver.exists_complaint_of_declare failed
      have reached : ReachedFrom collapse (Entries.mapValues decoded conventions.adjustNode) name
          ⟨.reference path, notes⟩ :=
        ⟨body, found, Resolver.isCollapsed_eq_false_iff.mp kept, reaches⟩
      -- What was reached is an adjusted node; as it is written, only its default can differ.
      obtain ⟨node, reached, adjusted⟩ := reached.of_adjusted
      obtain ⟨notes', rfl⟩ := adjusted.exists_reference
      rw [Entries.keys_mapValues] at split_keys
      refine ⟨before, name, after, split_keys, fun earlier among path notes => ?_, path, notes',
        reached, complains.of_mapValues⟩
      obtain ⟨found, success⟩ := succeed earlier among
      exact resolves_of_adjusted fun path notes => resolves_of_model? success
    · cases done
  refine ⟨⟨?_, ?_⟩, complaint⟩
  · rintro ⟨modules, success⟩
    obtain ⟨adjusted, adjusted_known, success⟩ := bind_eq_ok success
    obtain ⟨declared, made, -⟩ := bind_eq_ok success
    obtain ⟨decoded, known, rfl⟩ := nodes_asWritten adjusted_known
    refine ⟨nodes_isOk_iff.mp ⟨decoded, known⟩, ?_⟩
    intro decoded' known' name path notes reached
    cases known.symm.trans known'
    have ⟨body, found, _⟩ := reached
    have listed : name ∈ Entries.keys (Entries.mapValues decoded conventions.adjustNode) := by
      rw [Entries.keys_mapValues]
      exact Entries.mem_keys_of_get? found
    obtain ⟨found, success⟩ := exists_model?_of_declarations made name listed
    exact resolves_of_adjusted (fun path notes => resolves_of_model? success) reached
  · rintro ⟨decodes, resolves⟩
    obtain ⟨decoded, known⟩ := nodes_isOk_iff.mpr decodes
    cases outcome : ofSchemas bucket conventions collapse schemas with
    | ok modules => exact ⟨modules, rfl⟩
    | error error =>
      obtain ⟨-, name, -, -, -, path, notes, reached, complains⟩ :=
        complaint decoded error known outcome
      exact absurd (resolves decoded known name path notes reached) complains.not_resolves

namespace Dangling

/-- A model with a property that refers to a list, whose items refer to the schema `last`. -/
def schemas (last : String) : Entries String Json :=
  [("Pod", .object [("type", .string "object"), ("properties", .object [
      ("port", .object [("$ref", .string "#/definitions/Port")])])]),
    ("Port", .object [("type", .string "array"),
      ("items", .object [("$ref", .string ("#/definitions/" ++ last))])])]

/-- The reference is written in the list, but it is the model that is declared. -/
theorem reported_for_pod :
    (∃ modules, ofSchemas "k8s" .kubernetes true (schemas "Pod") = .ok modules) ∧
    ofSchemas "k8s" .kubernetes false (schemas "Probe") =
      .error (.unresolvedReference "#/definitions/Probe" "Port") ∧
    ofSchemas "k8s" .kubernetes true (schemas "Probe") =
      .error (.unresolvedReference "#/definitions/Probe" "Pod") ∧
    ∃ decoded, nodes .asWritten (schemas "Probe") = .ok decoded ∧
      ∃ notes, ReachedFrom true decoded "Pod" ⟨.reference "#/definitions/Probe", notes⟩ ∧
        ¬ Resolves decoded "#/definitions/Probe" := by
  have failure : ofSchemas "k8s" .kubernetes true (schemas "Probe") =
      .error (.unresolvedReference "#/definitions/Probe" "Pod") := rfl
  refine ⟨⟨_, rfl⟩, rfl, failure, ?_⟩
  obtain ⟨decoded, known⟩ : ∃ decoded, nodes .asWritten (schemas "Probe") = .ok decoded := ⟨_, rfl⟩
  obtain ⟨before, name, after, -, -, path, notes, reached, complains⟩ :=
    (derives_iff "k8s" .kubernetes true (schemas "Probe")).2 decoded _ known failure
  have dangling := complains.not_resolves
  cases complains with
  | unresolved target valid unknown => exact ⟨decoded, known, notes, reached, dangling⟩

end Dangling

end Derivation

end ResourceModels

import Mathlib
import ResourceModels.Proofs.Positions

/-!
# Where the flag of null goes

Any node can be flagged as one that may be null. On a property the flag makes the field optional,
whatever the shape of the property. On items, on the values of open keys, on variants and on whole
schemas it is never looked at: two documents that differ in nothing but such flags have the same
modules (`null_flag_reaches_fields_only`), so a class does not let null through there.
-/

namespace ResourceModels

namespace Node

mutual

/-- The node with the flag of null taken off wherever it does not stand on a property. -/
def clearNull : Node → Node
  | ⟨kind, notes⟩ => ⟨clearNullIn kind, { notes with nullable := false }⟩

def clearNullIn : Kind Node → Kind Node
  | .object ⟨properties, required, additional⟩ =>
    .object ⟨clearNullBelow properties, required, clearNullAdditional additional⟩
  | .array items => .array items.clearNull
  | .union variants => .union (clearNullVariants variants)
  | kind => kind

/-- A property keeps its own flag. -/
def clearNullBelow : List (String × Node) → List (String × Node)
  | [] => []
  | (name, ⟨kind, notes⟩) :: rest => (name, ⟨clearNullIn kind, notes⟩) :: clearNullBelow rest

def clearNullAdditional : Option Node → Option Node
  | none => none
  | some node => some node.clearNull

def clearNullVariants : List Node → List Node
  | [] => []
  | node :: rest => node.clearNull :: clearNullVariants rest

end

@[simp] theorem isEmpty_clearNullBelow (properties : List (String × Node)) :
    (clearNullBelow properties).isEmpty = properties.isEmpty := by
  match properties with
  | [] => rfl
  | (_, ⟨_, _⟩) :: _ => rfl

@[simp] theorem isNone_clearNullAdditional (additional : Option Node) :
    (clearNullAdditional additional).isNone = additional.isNone := by
  cases additional <;> simp [clearNullAdditional]

@[simp] theorem isModel_clearNull (node : Node) : node.clearNull.isModel = node.isModel := by
  obtain ⟨kind, notes⟩ := node
  cases kind <;> simp [clearNull, clearNullIn, isModel]

end Node

namespace Resolver

variable {conventions : Conventions} {follow : Follow}

/-- The type of a node does not depend on its own flag. -/
theorem typeOf_nullable (context : String) (kind : Kind Node) (notes : Notes) (flag : Bool) :
    typeOf conventions follow context ⟨kind, { notes with nullable := flag }⟩ =
      typeOf conventions follow context ⟨kind, notes⟩ := by
  cases kind <;> simp only [typeOf, enumModel]

mutual

theorem typeOf_clearNull (context : String) (node : Node) :
    typeOf conventions follow context node.clearNull = typeOf conventions follow context node := by
  match node with
  | ⟨.object ⟨properties, required, additional⟩, notes⟩ =>
    simp only [Node.clearNull, Node.clearNullIn, typeOf, Node.isEmpty_clearNullBelow,
      mapType_clearNull context additional, fieldsOf_clearNull required properties]
  | ⟨.array items, notes⟩ =>
    simp only [Node.clearNull, Node.clearNullIn, typeOf, typeOf_clearNull _ items]
  | ⟨.scalar shape, notes⟩ => exact typeOf_nullable context (.scalar shape) notes false
  | ⟨.reference path, notes⟩ => exact typeOf_nullable context (.reference path) notes false
  | ⟨.union variants, notes⟩ =>
    simp only [Node.clearNull, Node.clearNullIn, typeOf, typesOf_clearNull context variants]
  | ⟨.any, notes⟩ => exact typeOf_nullable context .any notes false

theorem mapType_clearNull (context : String) (additional : Option Node) :
    mapType conventions follow context (Node.clearNullAdditional additional) =
      mapType conventions follow context additional := by
  match additional with
  | none => rfl
  | some node => simp only [Node.clearNullAdditional, mapType, typeOf_clearNull context node]

theorem typesOf_clearNull (context : String) (variants : List Node) :
    typesOf conventions follow context (Node.clearNullVariants variants) =
      typesOf conventions follow context variants := by
  match variants with
  | [] => rfl
  | node :: rest =>
    simp only [Node.clearNullVariants, typesOf, typeOf_clearNull context node,
      typesOf_clearNull context rest]

theorem fieldsOf_clearNull (required : List String) (properties : List (String × Node)) :
    fieldsOf conventions follow required (Node.clearNullBelow properties) =
      fieldsOf conventions follow required properties := by
  match properties with
  | [] => rfl
  | (name, ⟨kind, notes⟩) :: rest =>
    have own := typeOf_clearNull (suggestedClassName name) ⟨kind, notes⟩
    rw [Node.clearNull, typeOf_nullable] at own
    simp only [Node.clearNullBelow, fieldsOf, own, fieldsOf_clearNull required rest]

end

/-- The same schemas with the flag of null taken off wherever it does not stand on a property. -/
def clearNull (resolver : Resolver) : Resolver :=
  { resolver with nodes := Entries.mapValues resolver.nodes Node.clearNull }

@[simp] theorem classRef_clearNull (resolver : Resolver) (name : String) :
    resolver.clearNull.classRef name = resolver.classRef name :=
  rfl

@[simp] theorem conventions_clearNull (resolver : Resolver) :
    resolver.clearNull.conventions = resolver.conventions :=
  rfl

theorem get?_clearNull (resolver : Resolver) (name : String) :
    Entries.get? resolver.clearNull.nodes name =
      (Entries.get? resolver.nodes name).map Node.clearNull :=
  Entries.get?_mapValues ..

theorem length_clearNull (resolver : Resolver) :
    resolver.clearNull.nodes.length = resolver.nodes.length :=
  List.length_map ..

@[simp] theorem isCollapsed_clearNull (resolver : Resolver) (node : Node) :
    resolver.clearNull.isCollapsed node.clearNull = resolver.isCollapsed node := by
  rw [isCollapsed, isCollapsed, Node.isModel_clearNull]
  rfl

/-- References are followed alike if what is replaced is replaced alike. -/
theorem reference_clearNull (resolver : Resolver) (current : String)
    {inline cleared : String → String → Node → Except DerivationError ModelType}
    (alike : ∀ target context node,
      cleared target context node.clearNull = inline target context node) :
    resolver.clearNull.reference current cleared = resolver.reference current inline := by
  funext path context
  unfold reference
  cases Reference.target path with
  | error error => rfl
  | ok target =>
    dsimp only
    rw [get?_clearNull]
    cases Entries.get? resolver.nodes target with
    | none => rfl
    | some node =>
      simp only [Option.map_some, Node.isModel_clearNull, alike]
      rfl

theorem followWithin_clearNull (resolver : Resolver) (current : String) (budget : Nat)
    (inlining : List String) :
    resolver.clearNull.followWithin current budget inlining =
      resolver.followWithin current budget inlining := by
  induction budget generalizing inlining with
  | zero => exact resolver.reference_clearNull current fun _ _ _ => rfl
  | succ budget ih =>
    refine resolver.reference_clearNull current fun target context node => ?_
    rw [typeWithin_eq, typeWithin_eq, ih, typeOf_clearNull]
    rfl

theorem follow_clearNull (resolver : Resolver) (current : String) :
    resolver.clearNull.follow current = resolver.follow current := by
  rw [follow_eq, follow_eq, length_clearNull, followWithin_clearNull]

theorem type_clearNull (resolver : Resolver) (current context : String) (node : Node) :
    resolver.clearNull.type current context node.clearNull =
      resolver.type current context node := by
  rw [type, type, typeWithin_eq, typeWithin_eq, length_clearNull, followWithin_clearNull]
  exact typeOf_clearNull context node

theorem declare_clearNull (resolver : Resolver) (name : String) (node : Node) :
    resolver.clearNull.declare name node.clearNull = resolver.declare name node := by
  obtain ⟨kind, notes⟩ := node
  have same_type := resolver.type_clearNull name (resolver.classRef name).name ⟨kind, notes⟩
  have same_model := Node.isModel_clearNull ⟨kind, notes⟩
  cases kind with
  | object shape =>
    obtain ⟨properties, required, additional⟩ := shape
    rw [Node.clearNull, Node.clearNullIn] at same_type same_model ⊢
    simp only [declare, classRef_clearNull, conventions_clearNull, follow_clearNull,
      fieldsOf_clearNull, same_type, same_model]
  | _ =>
    simp only [Node.clearNull, Node.clearNullIn] at same_type ⊢
    simp only [declare, classRef_clearNull, same_type, enumModel]

theorem model?_clearNull (resolver : Resolver) (name : String) :
    resolver.clearNull.model? name = resolver.model? name := by
  unfold model?
  rw [get?_clearNull]
  cases Entries.get? resolver.nodes name with
  | none => rfl
  | some node => simp only [Option.map_some, isCollapsed_clearNull, declare_clearNull]

end Resolver

namespace Derivation

theorem declarations_clearNull (resolver : Resolver) (names : List String) :
    declarations resolver.clearNull names = declarations resolver names := by
  induction names with
  | nil => rfl
  | cons name rest ih =>
    simp only [declarations, Resolver.model?_clearNull, ih]
    rfl

/-- Every declared schema is mirrored by its class. Wherever an object mirrors a schema, the field
of a property that is flagged is optional. -/
structure FlagsReachFields (resolver : Resolver) (modules : List Module) : Prop where
  mirrored : ∀ name node, Entries.get? resolver.nodes name = some node →
    resolver.isCollapsed node = false →
    resolver.Mirrors modules node (.ref (resolver.classRef name))
  optional : ∀ shape notes model, resolver.Mirrors modules ⟨.object shape, notes⟩ (.object model) →
    List.Forall₂ (fun property field =>
      property.2.notes.nullable = true → field.isOptional = true) shape.properties model.fields

theorem flagsReachFields {resolver : Resolver} {declared : List (ModulePath × Model)}
    (related : List.Forall₂ resolver.Declares
      ((Entries.keys resolver.nodes).filter resolver.isDeclared) declared) :
    FlagsReachFields resolver ((Module.group declared).map Module.promoteInline) where
  mirrored := by
    intro name node found kept
    obtain ⟨plain, declare, home, grouped, own, promoted, same_class, hoisted⟩ :=
      exists_promoted_declaration related found kept
    have among := @List.mem_map_of_mem _ _ _ home Module.promoteInline grouped
    rw [same_class]
    exact .named node home.promoteInline own among promoted
      (Resolver.mirrors_declare declare among hoisted)
  optional := fun _ _ _ mirrors => mirrors.isOptional

/-- A flag of null on a property reaches the field, and no other flag of null changes anything in
the modules. -/
theorem null_flag_reaches_fields_only {bucket : String} {conventions : Conventions}
    {collapse : Bool} {schemas : Entries String Json} {modules : List Module}
    (success : ofSchemas bucket conventions collapse schemas = .ok modules) :
    ∃ decoded, nodes conventions schemas = .ok decoded ∧
      FlagsReachFields ⟨bucket, decoded, conventions, collapse⟩ modules ∧
      ∀ others flagged, nodes conventions others = .ok flagged →
        Entries.mapValues flagged Node.clearNull = Entries.mapValues decoded Node.clearNull →
        ofSchemas bucket conventions collapse others = .ok modules := by
  obtain ⟨decoded, declared, known, related, rfl⟩ := ofSchemas_eq_ok success
  let resolver : Resolver := ⟨bucket, decoded, conventions, collapse⟩
  rw [← keys_nodes known] at related
  refine ⟨decoded, known, flagsReachFields related, ?_⟩
  intro others flagged known' alike
  let resolver' : Resolver := ⟨bucket, flagged, conventions, collapse⟩
  have same_cleared : resolver'.clearNull = resolver.clearNull := by
    simp only [Resolver.clearNull, resolver, resolver', alike]
  have same_keys : Entries.keys flagged = Entries.keys decoded := by
    rw [← Entries.keys_mapValues flagged Node.clearNull, alike, Entries.keys_mapValues]
  have same_declarations : declarations resolver' (Entries.keys flagged) =
      declarations resolver (Entries.keys decoded) := by
    rw [← declarations_clearNull, same_cleared, declarations_clearNull, same_keys]
  rw [← success, ofSchemas, ofSchemas, known, known']
  exact congrArg (fun declared => declared >>= fun declared =>
    .ok ((Module.group declared).map Module.promoteInline)) same_declarations

end Derivation

/-- Null itself, anything, or a union with null among its members. -/
def ModelType.admitsNull : ModelType → Bool
  | .any => true
  | type => type.isNullable

namespace Derivation.NullableItems

/-- A model whose one property is a list of texts; the flag is on the items. -/
def schema (nullable : Bool) : Json :=
  .object [("type", .string "object"), ("required", .array [.string "all"]),
    ("properties", .object [("all", .object [("type", .string "array"),
      ("items", .object [("type", .string "string"), ("nullable", .bool nullable)])])])]

def items (nullable : Bool) : Node := ⟨.scalar ⟨.string, none, []⟩, { nullable }⟩

def node (nullable : Bool) : Node :=
  .bare (.object ⟨[("all", .bare (.array (items nullable)))], ["all"], none⟩)

def modules : List Module :=
  [⟨["k8s", "models"],
    [.object ⟨"Names", none, [⟨"all", .array .string, true, false, none, none, false⟩]⟩]⟩]

theorem ofJson?_schema (nullable : Bool) :
    Node.ofJson? (schema nullable) = some (node nullable) := by
  cases nullable <;> rfl

theorem nodes_eq (nullable : Bool) :
    nodes .kubernetes [("Names", schema nullable)] = .ok [("Names", node nullable)] := by
  rw [nodes, ofJson?_schema]
  rfl

theorem ofSchemas_eq (nullable : Bool) :
    ofSchemas "k8s" .kubernetes true [("Names", schema nullable)] = .ok modules := by
  rw [ofSchemas, nodes_eq]
  cases nullable <;> rfl

theorem items_mirrored :
    ofSchemas "k8s" .kubernetes true [("Names", schema true)] = .ok modules ∧
      Resolver.Mirrors ⟨"k8s", [("Names", node true)], .kubernetes, true⟩ modules (node true)
        (.ref ⟨["k8s", "models"], "Names"⟩) ∧
      ofSchemas "k8s" .kubernetes true [("Names", schema false)] = .ok modules := by
  obtain ⟨decoded, known, reached, flags_dropped⟩ :=
    null_flag_reaches_fields_only (ofSchemas_eq true)
  cases (nodes_eq true).symm.trans known
  have unflagged := flags_dropped [("Names", schema false)] _ (nodes_eq false) rfl
  exact ⟨ofSchemas_eq true, reached.mirrored "Names" (node true) rfl rfl, unflagged⟩

/-- The items may be null, and the type at their position is neither null nor anything nor a union
with null. -/
theorem nullable_items_lost : ∃ shape items item, ∃ field : Field ModelType,
    nodes .kubernetes [("Names", schema true)] = .ok [("Names", .bare (.object shape))] ∧
      ("all", Node.bare (.array items)) ∈ shape.properties ∧ items.notes.nullable = true ∧
      ofSchemas "k8s" .kubernetes true [("Names", schema true)] =
        .ok [⟨["k8s", "models"], [.object ⟨"Names", none, [field]⟩]⟩] ∧
      field.name = "all" ∧ field.type = .array item ∧ item.admitsNull = false :=
  ⟨_, items true, .string, _, nodes_eq true, List.mem_singleton.mpr rfl, rfl, ofSchemas_eq true,
    rfl, rfl, rfl⟩

end Derivation.NullableItems

end ResourceModels

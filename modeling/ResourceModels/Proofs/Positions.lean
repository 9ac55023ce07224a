import Mathlib
import ResourceModels.Proofs.Acceptance
import ResourceModels.Proofs.Closure

/-!
# Where a schema stands in the derived types

`Mirrors` goes through a schema node and a derived type side by side: what stands below the node
has its position in the type, or in the class that promotion made of it. An object has one field
for each property, and the field is optional when the property may be null. The relation is kept
when a type is exchanged for the same one, when alternatives are joined and when a module is
promoted, so every declared schema is mirrored by its class.
-/

namespace ResourceModels

/-- The field has the name of the property, and may be left out or be null if the property need not
be there, may be null or has a type with null in it. -/
structure KeepsFlags (required : List String) (property : String × Node)
    (field : Field ModelType) : Prop where
  name : field.name = property.1
  optional : field.isOptional =
    (decide (property.1 ∉ required) || property.2.notes.nullable || field.type.isNullable)

theorem KeepsFlags.of_same {required : List String} {property : String × Node}
    {field other : Field ModelType} (keeps : KeepsFlags required property field)
    (equal : ModelType.SameField other field) : KeepsFlags required property other where
  name := equal.name.trans keeps.name
  optional := by rw [equal.isOptional, keeps.optional, ModelType.same_isNullable equal.type]

theorem KeepsFlags.hoisted {required : List String} {property : String × Node}
    {field : Field ModelType} (keeps : KeepsFlags required property field) {path : ModulePath}
    {made : List Model} {type : ModelType} (related : Promotion.Hoisted path made field.type type) :
    KeepsFlags required property { field with type } where
  name := keeps.name
  optional := by
    have before := keeps.optional
    unfold Field.isOptional at before ⊢
    rw [related.isNullable]
    exact before

theorem Resolver.keepsFlags_fieldOf (conventions : Conventions) (required : List String)
    (property : String × Node) (type : ModelType) :
    KeepsFlags required property (fieldOf conventions required property type) where
  name := Conventions.adjustField_name ..
  optional := by simp [fieldOf, Field.isOptional]

namespace ModelType

theorem ofScalar_ne_union (shape : ScalarShape) (members : List ModelType) :
    ofScalar shape ≠ .union members := by
  unfold ofScalar
  split <;> try split
  all_goals exact fun same => nomatch same

theorem eq_ofScalar_of_same {shape : ScalarShape} {first : ModelType}
    (equal : same first (ofScalar shape) = true) : first = ofScalar shape := by
  generalize scalar : ofScalar shape = type at equal
  unfold ofScalar at scalar
  split at scalar <;> try split at scalar
  all_goals
    subst scalar
    cases first <;> simp [same] at equal
    rfl

theorem exists_spread_same {first second member : ModelType} (equal : same first second = true)
    (present : member ∈ second.spread) : ∃ other ∈ first.spread, same other member = true :=
  exists_left_of_forall₂ (forall₂_spread equal) present

theorem mem_unite {types : List ModelType} {member : ModelType}
    (kept : member ∈ (types.flatMap spread).foldl pushNew []) :
    member = unite types ∨ member ∈ (unite types).spread := by
  unfold unite
  split
  next single only =>
    rw [only] at kept
    exact .inl (List.mem_singleton.mp kept)
  next => exact .inr kept

end ModelType

namespace Promotion.Hoisted

variable {path : ModulePath} {made : List Model}

theorem of_scalar {shape : ScalarShape} {after : ModelType}
    (related : Hoisted path made (.ofScalar shape) after) : after = .ofScalar shape := by
  generalize scalar : ModelType.ofScalar shape = type at related ⊢
  unfold ModelType.ofScalar at scalar
  split at scalar <;> try split at scalar
  all_goals
    subst scalar
    exact related

theorem exists_spread {before after member : ModelType} (related : Hoisted path made before after)
    (present : member ∈ before.spread) :
    ∃ other ∈ after.spread, Hoisted path made member other := by
  cases before with
  | union members =>
    obtain ⟨members', rfl, below⟩ := related
    exact exists_right_of_forall₂ (hoistedMembers_iff.mp below) present
  | _ =>
    obtain rfl := List.mem_singleton.mp present
    refine ⟨after, ?_, related⟩
    rcases after.spread_cases with ⟨members, rfl⟩ | single
    · simp [Hoisted] at related
    · simp [single]

end Promotion.Hoisted

namespace Resolver

/-- The type has a position for everything that stands below the node, where `modules` hold the
classes. A variant stands at a member of the union, or at the whole of it where it is a union
itself. A reference inside its own replacement ends at a type that admits anything. -/
inductive Mirrors (resolver : Resolver) (modules : List Module) : Node → ModelType → Prop
  | any (notes : Notes) : Mirrors resolver modules ⟨.any, notes⟩ .any
  | scalar (shape : ScalarShape) (notes : Notes) :
      Mirrors resolver modules ⟨.scalar shape, notes⟩ (.ofScalar shape)
  | enum (shape : ScalarShape) (notes : Notes) (model : EnumModel)
      (texts : model.variants = shape.variants) :
      Mirrors resolver modules ⟨.scalar shape, notes⟩ (.enum model)
  | array (items : Node) (notes : Notes) (item : ModelType)
      (below : Mirrors resolver modules items item) :
      Mirrors resolver modules ⟨.array items, notes⟩ (.array item)
  | map (shape : ObjectShape Node) (notes : Notes) (value : ModelType)
      (no_properties : shape.properties = [])
      (below : ∀ additional, shape.additional = some additional →
        Mirrors resolver modules additional value) :
      Mirrors resolver modules ⟨.object shape, notes⟩ (.map value)
  | object (shape : ObjectShape Node) (notes : Notes) (model : ObjectModel ModelType)
      (fields : List.Forall₂ (KeepsFlags shape.required) shape.properties model.fields)
      (below : ∀ property field, (property, field) ∈ shape.properties.zip model.fields →
        Mirrors resolver modules property.2 field.type) :
      Mirrors resolver modules ⟨.object shape, notes⟩ (.object model)
  | union (variants : List Node) (notes : Notes) (type : ModelType) (place : Node → ModelType)
      (inside : ∀ variant ∈ variants, place variant = type ∨ place variant ∈ type.spread)
      (below : ∀ variant ∈ variants, Mirrors resolver modules variant (place variant)) :
      Mirrors resolver modules ⟨.union variants, notes⟩ type
  | named (node : Node) (home : Module) (model : Model) (among : home ∈ modules)
      (listed : model ∈ home.models) (below : Mirrors resolver modules node model.asType) :
      Mirrors resolver modules node (.ref ⟨home.path, model.name⟩)
  | declared (path target : String) (notes : Notes) (node : Node)
      (valid : Reference.target path = .ok target)
      (found : Entries.get? resolver.nodes target = some node)
      (kept : resolver.isCollapsed node = false) :
      Mirrors resolver modules ⟨.reference path, notes⟩ (.ref (resolver.classRef target))
  | replaced (path target : String) (notes : Notes) (node : Node) (type : ModelType)
      (valid : Reference.target path = .ok target)
      (found : Entries.get? resolver.nodes target = some node)
      (collapsed : resolver.isCollapsed node = true)
      (below : Mirrors resolver modules node type) :
      Mirrors resolver modules ⟨.reference path, notes⟩ type
  | recursive (path target : String) (notes : Notes) (node : Node)
      (valid : Reference.target path = .ok target)
      (found : Entries.get? resolver.nodes target = some node)
      (collapsed : resolver.isCollapsed node = true) :
      Mirrors resolver modules ⟨.reference path, notes⟩ .any

variable {resolver : Resolver} {modules : List Module}

namespace Mirrors

open ModelType

theorem objectOf {shape : ObjectShape Node} {notes : Notes} {model : ObjectModel ModelType}
    (related : List.Forall₂ (fun property field => KeepsFlags shape.required property field ∧
      Mirrors resolver modules property.2 field.type) shape.properties model.fields) :
    Mirrors resolver modules ⟨.object shape, notes⟩ (.object model) := by
  refine .object shape notes model (related.imp fun _ _ both => both.1) ?_
  intro property field paired
  exact ((List.forall₂_iff_zip.mp related).2 paired).2

theorem unionOf {variants : List Node} {notes : Notes} {type : ModelType}
    (each : ∀ variant ∈ variants, ∃ place, (place = type ∨ place ∈ type.spread) ∧
      Mirrors resolver modules variant place) :
    Mirrors resolver modules ⟨.union variants, notes⟩ type := by
  choose! place placed using each
  exact .union variants notes type place (fun variant present => (placed variant present).1)
    fun variant present => (placed variant present).2

/-- The field of a property that may be null is optional, whatever its type. -/
theorem isOptional {shape : ObjectShape Node} {notes : Notes} {model : ObjectModel ModelType}
    (mirrors : Mirrors resolver modules ⟨.object shape, notes⟩ (.object model)) :
    List.Forall₂ (fun property field =>
        property.2.notes.nullable = true → field.isOptional = true)
      shape.properties model.fields := by
  cases mirrors with
  | object _ _ _ fields _ =>
    refine fields.imp fun property field keeps nullable => ?_
    rw [keeps.optional, nullable]
    simp

theorem of_same {node : Node} {first second : ModelType}
    (mirrors : Mirrors resolver modules node second) (equal : same first second = true) :
    Mirrors resolver modules node first := by
  induction mirrors generalizing first with
  | any notes =>
    cases first <;> simp [same] at equal
    exact .any notes
  | scalar shape notes =>
    rw [eq_ofScalar_of_same equal]
    exact .scalar shape notes
  | enum shape notes model texts =>
    cases first <;> simp only [same, Bool.false_eq_true, decide_eq_true_eq] at equal
    subst equal
    exact .enum shape notes _ texts
  | array items notes item _ ih =>
    cases first <;> simp only [same, Bool.false_eq_true] at equal
    exact .array items notes _ (ih equal)
  | map shape notes value no_properties _ ih =>
    cases first <;> simp only [same, Bool.false_eq_true] at equal
    exact .map shape notes _ no_properties fun additional given => ih additional given equal
  | object shape notes model fields _ ih =>
    cases first <;> simp only [same, Bool.false_eq_true, Bool.and_eq_true] at equal
    have alike := sameFields_iff.mp equal.2
    refine objectOf (forall₂_trans (forall₂_and_zip fields ih) alike.flip ?_)
    intro property field other both equal_field
    exact ⟨both.1.of_same equal_field, both.2 equal_field.type⟩
  | union variants notes type place inside _ ih =>
    refine unionOf fun variant present => ?_
    rcases inside variant present with whole | member
    · exact ⟨first, .inl rfl, ih variant present (whole ▸ equal)⟩
    · obtain ⟨other, among, alike⟩ := exists_spread_same equal member
      exact ⟨other, .inr among, ih variant present alike⟩
  | named node home model among listed below _ =>
    cases first <;> simp only [same, Bool.false_eq_true, decide_eq_true_eq] at equal
    subst equal
    exact .named node home model among listed below
  | declared path target notes node valid found kept =>
    cases first <;> simp only [same, Bool.false_eq_true, decide_eq_true_eq] at equal
    subst equal
    exact .declared path target notes node valid found kept
  | replaced path target notes node type valid found collapsed _ ih =>
    exact .replaced path target notes node first valid found collapsed (ih equal)
  | recursive path target notes node valid found collapsed =>
    cases first <;> simp [same] at equal
    exact .recursive path target notes node valid found collapsed

/-- A union may grow, and its members may be exchanged for the same ones. -/
theorem widen {node : Node} {members : List ModelType} {wide : ModelType}
    (mirrors : Mirrors resolver modules node (.union members))
    (covered : ∀ member ∈ members, ∃ kept, (kept = wide ∨ kept ∈ wide.spread) ∧
      (kept = member ∨ same kept member = true)) : Mirrors resolver modules node wide := by
  generalize narrow : ModelType.union members = type at mirrors
  induction mirrors with
  | scalar shape => exact absurd narrow.symm (ofScalar_ne_union shape members)
  | union variants notes type place inside below ih =>
    subst narrow
    refine unionOf fun variant present => ?_
    rcases inside variant present with whole | member
    · exact ⟨wide, .inl rfl, ih variant present whole.symm⟩
    · obtain ⟨kept, among, rfl | alike⟩ := covered _ member
      · exact ⟨_, among, below variant present⟩
      · exact ⟨kept, among, (below variant present).of_same alike⟩
  | replaced path target notes node type valid found collapsed _ ih =>
    exact .replaced path target notes node wide valid found collapsed (ih narrow)
  | _ => cases narrow

/-- An alternative keeps a position when it is joined with others. -/
theorem unite {node : Node} {type : ModelType} {types : List ModelType} (present : type ∈ types)
    (mirrors : Mirrors resolver modules node type) :
    ∃ place, (place = ModelType.unite types ∨ place ∈ (ModelType.unite types).spread) ∧
      Mirrors resolver modules node place := by
  have covered : ∀ member ∈ type.spread, ∃ kept,
      (kept = ModelType.unite types ∨ kept ∈ (ModelType.unite types).spread) ∧
      (kept = member ∨ same kept member = true) := by
    intro member part
    have spread_out : member ∈ types.flatMap spread := List.mem_flatMap.mpr ⟨type, present, part⟩
    obtain ⟨kept, among, alike⟩ := exists_kept (List.mem_append_right [] spread_out)
    exact ⟨kept, mem_unite among, alike⟩
  rcases type.spread_cases with ⟨members, rfl⟩ | single
  · exact ⟨ModelType.unite types, .inl rfl, mirrors.widen covered⟩
  · obtain ⟨kept, among, rfl | alike⟩ := covered type (by simp [single])
    · exact ⟨_, among, mirrors⟩
    · exact ⟨kept, among, mirrors.of_same alike⟩

theorem hoistedFields {home : Module} {required : List String}
    {properties : List (String × Node)} {fields fields' : List (Field ModelType)}
    (related : List.Forall₂ (fun property field => KeepsFlags required property field ∧
      ∀ {after}, Promotion.Hoisted home.path home.models field.type after →
        Mirrors resolver modules property.2 after) properties fields)
    (below : List.Forall₂ (Promotion.HoistedField home.path home.models) fields fields') :
    List.Forall₂ (fun property field => KeepsFlags required property field ∧
      Mirrors resolver modules property.2 field.type) properties fields' := by
  refine forall₂_trans related below fun property field after both hoisted => ?_
  obtain ⟨type, rfl, hoisted⟩ := hoisted
  exact ⟨both.1.hoisted hoisted, both.2 hoisted⟩

/-- What stood inline is mirrored by the declaration made for it. -/
theorem hoist {home : Module} (among : home ∈ modules) {node : Node} {before after : ModelType}
    (mirrors : Mirrors resolver modules node before)
    (related : Promotion.Hoisted home.path home.models before after) :
    Mirrors resolver modules node after := by
  induction mirrors generalizing after with
  | any notes =>
    cases related
    exact .any notes
  | scalar shape notes =>
    rw [related.of_scalar]
    exact .scalar shape notes
  | enum shape notes model texts =>
    obtain ⟨name, rfl, listed⟩ := related
    exact .named _ home _ among listed (.enum shape notes _ texts)
  | array items notes item _ ih =>
    obtain ⟨item', rfl, hoisted⟩ := related
    exact .array items notes item' (ih hoisted)
  | map shape notes value no_properties _ ih =>
    obtain ⟨value', rfl, hoisted⟩ := related
    exact .map shape notes value' no_properties fun additional given => ih additional given hoisted
  | object shape notes model fields _ ih =>
    obtain ⟨name, fields', rfl, listed, hoisted⟩ := related
    have each := forall₂_and_zip fields ih
    exact .named _ home _ among listed
      (objectOf (hoistedFields each (Promotion.hoistedFields_iff.mp hoisted)))
  | union variants notes type place inside _ ih =>
    refine unionOf fun variant present => ?_
    rcases inside variant present with whole | member
    · exact ⟨after, .inl rfl, ih variant present (whole ▸ related)⟩
    · obtain ⟨other, kept, hoisted⟩ := related.exists_spread member
      exact ⟨other, .inr kept, ih variant present hoisted⟩
  | named node home' model among' listed below _ =>
    cases related
    exact .named node home' model among' listed below
  | declared path target notes node valid found kept =>
    cases related
    exact .declared path target notes node valid found kept
  | replaced path target notes node type valid found collapsed _ ih =>
    exact .replaced path target notes node after valid found collapsed (ih related)
  | recursive path target notes node valid found collapsed =>
    cases related
    exact .recursive path target notes node valid found collapsed

end Mirrors

theorem mirrors_typeOf {conventions : Conventions} {follow : Follow}
    (follows : ∀ path notes context type, follow path context = .ok type →
      Mirrors resolver modules ⟨.reference path, notes⟩ type) {node : Node} {context : String}
    {type : ModelType} (success : typeOf conventions follow context node = .ok type) :
    Mirrors resolver modules node type := by
  induction node generalizing context type with
  | object shape notes properties_hold additional_holds =>
    obtain ⟨empty, value, found, rfl⟩ | ⟨fields, found, rfl⟩ := typeOf_object_eq_ok success
    · refine .map shape notes value empty fun additional given => ?_
      rw [given, mapType] at found
      exact additional_holds additional given found
    · refine Mirrors.objectOf (forall₂_imp_of_mem (fieldsOf_eq_ok_iff.mp found) ?_)
      rintro property inside field ⟨type, typed, rfl⟩
      refine ⟨keepsFlags_fieldOf .., ?_⟩
      rw [fieldOf, Conventions.adjustField_type]
      exact properties_hold property inside typed
  | array items notes ih =>
    obtain ⟨item, found, rfl⟩ := typeOf_array_eq_ok success
    exact .array items notes item (ih found)
  | scalar shape notes =>
    obtain rfl | ⟨-, rfl⟩ := typeOf_scalar_eq_ok success
    · exact .scalar shape notes
    · exact .enum shape notes _ rfl
  | reference path notes =>
    rw [typeOf] at success
    exact follows path notes context type success
  | union variants notes ih =>
    obtain ⟨types, found, rfl⟩ := typeOf_union_eq_ok success
    refine Mirrors.unionOf fun variant present => ?_
    obtain ⟨type, among, typed⟩ := exists_right_of_forall₂ found present
    exact (ih variant present typed).unite among
  | any notes =>
    rw [typeOf] at success
    cases success
    exact .any notes

theorem mirrors_followWithin {current : String} {budget : Nat} {inlining : List String}
    {path context : String} {type : ModelType}
    (success : resolver.followWithin current budget inlining path context = .ok type)
    (notes : Notes) : Mirrors resolver modules ⟨.reference path, notes⟩ type := by
  induction budget generalizing inlining path context type notes with
  | zero =>
    obtain ⟨target, node, valid, found, ⟨kept, rfl⟩ | ⟨collapsed, rfl | ⟨_, impossible, -⟩⟩⟩ :=
      followWithin_eq_ok success
    · exact .declared path target notes node valid found kept
    · exact .recursive path target notes node valid found collapsed
    · cases impossible
  | succ budget ih =>
    obtain ⟨target, node, valid, found, ⟨kept, rfl⟩ | ⟨collapsed, rfl | ⟨smaller, same, below⟩⟩⟩ :=
      followWithin_eq_ok success
    · exact .declared path target notes node valid found kept
    · exact .recursive path target notes node valid found collapsed
    · cases same
      refine .replaced path target notes node type valid found collapsed ?_
      exact mirrors_typeOf (fun _ notes _ _ followed => ih followed notes) below

/-- A declaration mirrors its schema once the module is promoted. -/
theorem mirrors_declare {name : String} {node : Node} {plain own : Model}
    (success : resolver.declare name node = .ok plain) {home : Module} (among : home ∈ modules)
    (related : Promotion.HoistedModel home.path home.models plain own) :
    Mirrors resolver modules node own.asType := by
  have follows : ∀ path notes context type,
      resolver.followWithin name resolver.nodes.length [] path context = .ok type →
      Mirrors resolver modules ⟨.reference path, notes⟩ type :=
    fun _ notes _ _ followed => mirrors_followWithin followed notes
  obtain ⟨kind, notes⟩ := node
  obtain ⟨shape, fields, rfl, -, found, rfl⟩ | ⟨shape, rfl, -, rfl⟩ | ⟨target, typed, rfl⟩ :=
    declare_eq_ok success
  · obtain ⟨new_name, fields', rfl, below⟩ := related
    rw [follow_eq] at found
    refine Mirrors.objectOf (Mirrors.hoistedFields ?_ below)
    refine (fieldsOf_eq_ok_iff.mp found).imp ?_
    rintro property field ⟨type, typed, rfl⟩
    refine ⟨keepsFlags_fieldOf .., fun hoisted => ?_⟩
    rw [fieldOf, Conventions.adjustField_type] at hoisted
    exact (mirrors_typeOf follows typed).hoist among hoisted
  · obtain ⟨new_name, rfl⟩ := related
    exact .enum shape notes _ rfl
  · obtain ⟨after, rfl, hoisted⟩ := related
    rw [Resolver.type, typeWithin_eq] at typed
    exact (mirrors_typeOf follows typed).hoist among hoisted

end Resolver

end ResourceModels

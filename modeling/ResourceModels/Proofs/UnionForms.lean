import Mathlib
import ResourceModels.Proofs.Adjusting
import ResourceModels.Proofs.Closure
import ResourceModels.Proofs.Decoded
import ResourceModels.Proofs.NormalTypes
import ResourceModels.Proofs.PromotedParts

/-!
# The form of unions

A union has several members, none of them a union, and no member twice. Joining types makes unions
of this form as long as there is something to join (`ModelType.normalUnions_unite`), and a decoded
schema never has a union of nothing. Promotion replaces members, but what it makes for two of them
never comes to one reference (`Promotion.Makes.different`), so the form is kept in all modules
(`Derivation.unions_normal`).
-/

namespace ResourceModels

namespace ModelType

mutual

/-- The members of every union in a type, outer unions first. -/
def unions : ModelType → List (List ModelType)
  | .array item => item.unions
  | .map value => value.unions
  | .union members => members :: unionsOfMembers members
  | .object model => unionsOfFields model.fields
  | _ => []

def unionsOfMembers : List ModelType → List (List ModelType)
  | [] => []
  | member :: rest => member.unions ++ unionsOfMembers rest

def unionsOfFields : List (Field ModelType) → List (List ModelType)
  | [] => []
  | field :: rest => field.type.unions ++ unionsOfFields rest

end

theorem mem_unionsOfMembers {types members : List ModelType} :
    members ∈ unionsOfMembers types ↔ ∃ type ∈ types, members ∈ type.unions := by
  induction types with
  | nil => simp [unionsOfMembers]
  | cons type rest ih => simp [unionsOfMembers, ih]

theorem mem_unionsOfFields {fields : List (Field ModelType)} {members : List ModelType} :
    members ∈ unionsOfFields fields ↔ ∃ field ∈ fields, members ∈ field.type.unions := by
  induction fields with
  | nil => simp [unionsOfFields]
  | cons field rest ih => simp [unionsOfFields, ih]

/-- The members of a union in normal form. -/
structure NormalMembers (members : List ModelType) : Prop where
  several : 2 ≤ members.length
  flat : ∀ member ∈ members, ∀ inner, member ≠ .union inner
  distinct : members.Pairwise fun first second => same first second = false

/-- Every union in the type has the normal form. -/
def NormalUnions (type : ModelType) : Prop := ∀ members ∈ type.unions, NormalMembers members

theorem normalUnions_union_iff {members : List ModelType} : NormalUnions (.union members) ↔
    NormalMembers members ∧ ∀ member ∈ members, member.NormalUnions := by
  simp only [NormalUnions, unions, List.forall_mem_cons, mem_unionsOfMembers]
  refine and_congr_right fun _ => ⟨fun holds member listed inner inside => ?_, ?_⟩
  · exact holds inner ⟨member, listed, inside⟩
  · rintro holds inner ⟨member, listed, inside⟩
    exact holds member listed inner inside

theorem normalUnions_object_iff {model : ObjectModel ModelType} : NormalUnions (.object model) ↔
    ∀ field ∈ model.fields, field.type.NormalUnions := by
  simp only [NormalUnions, unions, mem_unionsOfFields]
  constructor
  · exact fun holds field listed inner inside => holds inner ⟨field, listed, inside⟩
  · rintro holds inner ⟨field, listed, inside⟩
    exact holds field listed inner inside

theorem dropRepeats_pairwise (types : List ModelType) :
    (dropRepeats types).Pairwise fun first second => same first second = false := by
  induction types using List.reverseRecOn with
  | nil => exact .nil
  | append_singleton rest type ih =>
    rw [dropRepeats_concat, pushNew]
    split
    next => exact ih
    next unknown =>
      refine List.pairwise_append.mpr ⟨ih, List.pairwise_singleton _ _, ?_⟩
      intro earlier listed _ last
      obtain rfl := List.mem_singleton.mp last
      simpa using fun equal => unknown (List.any_eq_true.mpr ⟨earlier, listed, equal⟩)

theorem dropRepeats_ne_nil {types : List ModelType} (nonempty : types ≠ []) :
    dropRepeats types ≠ [] := by
  obtain ⟨type, listed⟩ := List.exists_mem_of_ne_nil types nonempty
  obtain ⟨kept, among, -⟩ := exists_kept (List.mem_append_right [] listed)
  exact List.ne_nil_of_mem among

theorem NormalUnions.of_mem_spread {type part : ModelType} (normal : type.NormalUnions)
    (inside : part ∈ type.spread) : part.NormalUnions ∧ ∀ inner, part ≠ .union inner := by
  cases type with
  | union members =>
    obtain ⟨form, below⟩ := normalUnions_union_iff.mp normal
    exact ⟨below part inside, form.flat part inside⟩
  | _ =>
    obtain rfl := List.mem_singleton.mp inside
    exact ⟨normal, nofun⟩

theorem NormalUnions.spread_ne_nil {type : ModelType} (normal : type.NormalUnions) :
    type.spread ≠ [] := by
  cases type with
  | union members =>
    have several := (normalUnions_union_iff.mp normal).1.several
    rintro rfl
    simp at several
  | _ => exact List.cons_ne_nil _ _

/-- Joining keeps the form, but joining nothing would make a union without members. -/
theorem normalUnions_unite {types : List ModelType} (nonempty : types ≠ [])
    (normal : ∀ type ∈ types, type.NormalUnions) : (unite types).NormalUnions := by
  have parts : ∀ part ∈ dropRepeats (types.flatMap spread),
      part.NormalUnions ∧ ∀ inner, part ≠ .union inner := by
    intro part inside
    obtain ⟨type, listed, part_of⟩ := List.mem_flatMap.mp (dropRepeats_subset _ inside)
    exact (normal type listed).of_mem_spread part_of
  have some_part : dropRepeats (types.flatMap spread) ≠ [] := by
    refine dropRepeats_ne_nil fun empty => ?_
    obtain ⟨type, listed⟩ := List.exists_mem_of_ne_nil types nonempty
    exact (normal type listed).spread_ne_nil (List.flatMap_eq_nil_iff.mp empty type listed)
  have distinct := dropRepeats_pairwise (types.flatMap spread)
  rw [unite_eq]
  generalize dropRepeats (types.flatMap spread) = members at parts some_part distinct
  rcases members with _ | ⟨first, _ | ⟨second, rest⟩⟩
  · exact absurd rfl some_part
  · exact (parts first (List.mem_singleton.mpr rfl)).1
  · refine normalUnions_union_iff.mpr ⟨⟨?_, fun part inside => (parts part inside).2, distinct⟩,
      fun part inside => (parts part inside).1⟩
    simp

theorem unions_ofScalar (shape : ScalarShape) : (ofScalar shape).unions = [] := by
  unfold ofScalar
  split
  · split <;> rfl
  all_goals rfl

theorem constructed_normalUnions : Constructed 1 NormalUnions where
  any := List.forall_mem_nil _
  scalar := fun shape members inside => by
    rw [unions_ofScalar] at inside
    cases inside
  enum := fun _ => List.forall_mem_nil _
  array := fun _ holds => holds
  map := fun _ holds => holds
  object := fun _ holds => normalUnions_object_iff.mpr holds
  unite := fun _ some_types holds =>
    normalUnions_unite (List.length_pos_iff.mp some_types) holds

/-- Types with nothing inline are the same only if they are equal. -/
theorem eq_of_same {first second : ModelType} (plain : first.hasInline = false)
    (equal : same first second = true) : first = second := by
  induction first generalizing second with
  | array item ih =>
    cases second <;> simp only [same, Bool.false_eq_true] at equal
    exact congrArg _ (ih plain equal)
  | map value ih =>
    cases second <;> simp only [same, Bool.false_eq_true] at equal
    exact congrArg _ (ih plain equal)
  | union members ih =>
    cases second <;> simp only [same, Bool.false_eq_true] at equal
    have each := anyHasInline_eq_false.mp plain
    have equal_members := forall₂_imp_of_mem (sameMembers_iff.mp equal) fun member listed _ =>
      ih member listed (each member listed)
    exact congrArg _ (List.forall₂_eq_eq_eq ▸ equal_members)
  | object model => cases plain
  | enum model => cases plain
  | _ => cases second <;> simp_all [same]

theorem same_self {type : ModelType} (plain : type.hasInline = false) : same type type = true := by
  refine same_refl ?_
  induction type with
  | array item ih => exact ih plain
  | map value ih => exact ih plain
  | union members ih =>
    exact settled_union_iff.mpr fun member listed =>
      ih member listed (anyHasInline_eq_false.mp plain member listed)
  | object model => cases plain
  | _ => trivial

theorem plain_of_mem_unions {type : ModelType} (plain : type.hasInline = false)
    {members : List ModelType} (inside : members ∈ type.unions) :
    ∀ member ∈ members, member.hasInline = false := by
  induction type with
  | array item ih => exact ih plain inside
  | map value ih => exact ih plain inside
  | union own ih =>
    have each := anyHasInline_eq_false.mp plain
    rcases List.mem_cons.mp inside with rfl | below
    · exact each
    · obtain ⟨member, listed, within⟩ := mem_unionsOfMembers.mp below
      exact ih member listed (each member listed) within
  | object model => cases plain
  | _ => cases inside

end ModelType

/-- No union at the node or below it is without variants. -/
def Node.Filled (node : Node) : Prop := node.Sound fun _ => True

theorem Node.filled_of_kind {kind : Kind Node} {notes : Notes}
    (sound : KindSound (fun _ => True) kind) : Filled ⟨kind, notes⟩ :=
  sound_iff.mpr ⟨sound, fun _ _ => trivial⟩

/-- The conventions leave no union without variants. -/
theorem Conventions.filled_adjustNode (conventions : Conventions) {node : Node}
    (filled : node.Filled) : (conventions.adjustNode node).Filled := by
  induction node with
  | object shape notes properties_hold additional_holds =>
    rw [adjustNode_object_eq]
    refine Node.filled_of_kind (Node.kindSound_object (fun property listed => ?_)
      fun node given => ?_)
    · obtain ⟨before, inside, rfl⟩ := List.mem_map.mp listed
      exact Node.filled_of_kind
        (properties_hold before inside (filled.properties before inside)).kind
    · obtain ⟨before, found, rfl⟩ := Option.map_eq_some_iff.mp given
      exact additional_holds before found (filled.additional before found)
  | array items notes ih =>
    rw [adjustNode_array]
    exact Node.filled_of_kind
      (Node.kindSound_array (ih (filled.of_postorder Node.postorder_items)))
  | union variants notes ih =>
    rw [adjustNode_union]
    refine Node.filled_of_kind (Node.kindSound_union ?_ fun variant listed => ?_)
    · intro empty
      exact filled.kind.filled (congrArg Kind.union (List.map_eq_nil_iff.mp empty))
    · obtain ⟨before, inside, rfl⟩ := List.mem_map.mp listed
      exact ih before inside (filled.of_postorder (Node.postorder_variant inside))
  | _ => exact filled

namespace Promotion

open ModelType

variable {path : ModulePath} {new newer : List Model} {before after : ModelType}

/-- Where nothing is made, nothing changes. -/
theorem Makes.eq_of_nil (made : Makes path before [] after) : after = before := by
  induction before generalizing after with
  | array item ih =>
    obtain ⟨item', rfl, below⟩ := made
    rw [ih below]
  | map value ih =>
    obtain ⟨value', rfl, below⟩ := made
    rw [ih below]
  | union members ih =>
    obtain ⟨members', rfl, below⟩ := made
    have same_members : List.Forall₂ (· = ·) members members' := by
      refine (makesMembers_iff.mp below).forall₂ fun member listed part member' none made => ?_
      obtain rfl := List.subset_nil.mp none
      exact (ih member listed made).symm
    rw [List.forall₂_eq_eq_eq] at same_members
    rw [same_members]
  | object model =>
    obtain ⟨name, fields, inner, made, -⟩ := made
    simp at made
  | enum model =>
    obtain ⟨name, made, -⟩ := made
    cases made
  | _ => exact made.2

/-- What is left of a type refers to some of what has been made for it. -/
theorem Makes.exists_root (made : Makes path before new after) (some_new : new ≠ []) :
    ∃ model ∈ new, model.classAt path ∈ after.refs := by
  induction before generalizing new after with
  | array item ih =>
    obtain ⟨item', rfl, below⟩ := made
    obtain ⟨model, inside, referred⟩ := ih below some_new
    exact ⟨model, inside, referred⟩
  | map value ih =>
    obtain ⟨value', rfl, below⟩ := made
    obtain ⟨model, inside, referred⟩ := ih below some_new
    exact ⟨model, inside, referred⟩
  | union members ih =>
    obtain ⟨members', rfl, below⟩ := made
    obtain ⟨first, inside⟩ := List.exists_mem_of_ne_nil new some_new
    obtain ⟨member, listed, part, member', listed', among, inside, made⟩ :=
      (makesMembers_iff.mp below).exists_part inside
    obtain ⟨model, inside, referred⟩ := ih member listed made (List.ne_nil_of_mem inside)
    exact ⟨model, among.subset inside, mem_refsOfMembers.mpr ⟨member', listed', referred⟩⟩
  | object model =>
    obtain ⟨name, fields, inner, rfl, rfl, -⟩ := made
    exact ⟨_, List.mem_append_right _ (List.mem_singleton.mpr rfl), List.mem_singleton.mpr rfl⟩
  | enum model =>
    obtain ⟨name, rfl, rfl⟩ := made
    exact ⟨_, List.mem_singleton.mpr rfl, List.mem_singleton.mpr rfl⟩
  | _ => exact absurd made.1 some_new

/-- The declarations are of different classes, and none of them is referred to already. -/
structure Fresh (path : ModulePath) (refs : List ClassRef) (new : List Model) : Prop where
  distinct : (new.map (Model.classAt path)).Nodup
  unknown : ∀ model ∈ new, model.classAt path ∉ refs

theorem Fresh.part {refs fewer : List ClassRef} {part : List Model} (fresh : Fresh path refs new)
    (among : part.Sublist new) (subset : fewer ⊆ refs) : Fresh path fewer part where
  distinct := fresh.distinct.sublist (among.map _)
  unknown := fun model inside referred =>
    fresh.unknown model (among.subset inside) (subset referred)

/-- What is made for two types leaves the same of both only if nothing is made for the first. -/
theorem Makes.nil_of_eq {first second : ModelType} (made : Makes path first new after)
    (made' : Makes path second newer after)
    (unknown : ∀ model ∈ new, model.classAt path ∉ second.refs)
    (apart : ∀ model ∈ new, model.classAt path ∉ newer.map (Model.classAt path)) : new = [] := by
  by_contra some_new
  obtain ⟨model, inside, referred⟩ := made.exists_root some_new
  rcases List.mem_append.mp (subset_of_refs_perm made'.refs_perm referred) with known | later
  · exact unknown model inside known
  · exact apart model inside later

/-- Different types are different after promotion. -/
theorem Makes.different {first second first' second' : ModelType}
    (made : Makes path first new first') (made' : Makes path second newer second')
    (fresh : Fresh path (first.refs ++ second.refs) (new ++ newer))
    (different : same first second = false) : same first' second' = false := by
  by_contra equal
  obtain rfl := eq_of_same made.hoisted.hasInline (Bool.eq_true_of_not_eq_false equal)
  have apart := fresh.distinct
  rw [List.map_append] at apart
  have apart := (List.nodup_append.mp apart).2.2
  have nothing : new = [] := made.nil_of_eq made'
    (fun model inside referred => fresh.unknown model (List.mem_append_left _ inside)
      (List.mem_append_right _ referred))
    fun model inside known => apart _ (List.mem_map_of_mem inside) _ known rfl
  have nothing' : newer = [] := made'.nil_of_eq made
    (fun model inside referred => fresh.unknown model (List.mem_append_right _ inside)
      (List.mem_append_left _ referred))
    fun model inside known => apart _ known _ (List.mem_map_of_mem inside) rfl
  subst nothing nothing'
  rw [← made.eq_of_nil, ← made'.eq_of_nil] at different
  exact equal different

/-- The unions in the declarations have the normal form. -/
def NormalModels (models : List Model) : Prop :=
  ∀ model ∈ models, ∀ type ∈ model.types, type.NormalUnions

theorem InTurn.normal {α β : Type} {R : α → List Model → β → Prop} {values : List α}
    {values' : List β} (related : InTurn R values new values') (type : β → ModelType)
    (each : ∀ value ∈ values, ∀ part value', part.Sublist new → R value part value' →
      (type value').NormalUnions ∧ NormalModels part) :
    (∀ value' ∈ values', (type value').NormalUnions) ∧ NormalModels new := by
  constructor
  · intro value' inside
    obtain ⟨value, listed, part, among, holds⟩ := related.exists_source inside
    exact (each value listed part value' among holds).1
  · intro model made
    obtain ⟨value, listed, part, value', -, among, inside, holds⟩ := related.exists_part made
    exact (each value listed part value' among holds).2 model inside

theorem InTurn.fields_normal {fields fields' : List (Field ModelType)}
    (related : InTurn (MakesField path) fields new fields')
    (each : ∀ field ∈ fields, ∀ part after, part.Sublist new → Makes path field.type part after →
      after.NormalUnions ∧ NormalModels part) :
    (∀ field' ∈ fields', field'.type.NormalUnions) ∧ NormalModels new := by
  refine related.normal Field.type fun field listed part field' among made => ?_
  obtain ⟨type, rfl, made⟩ := made
  exact each field listed part type among made

theorem Makes.not_union (made : Makes path before new after)
    (flat : ∀ inner, before ≠ .union inner) (inner : List ModelType) : after ≠ .union inner := by
  cases before with
  | union members => exact absurd rfl (flat members)
  | object model =>
    obtain ⟨name, fields, inner, rfl, rfl, -⟩ := made
    exact nofun
  | enum model =>
    obtain ⟨name, rfl, rfl⟩ := made
    exact nofun
  | array item =>
    obtain ⟨item', rfl, -⟩ := made
    exact nofun
  | map value =>
    obtain ⟨value', rfl, -⟩ := made
    exact nofun
  | _ =>
    obtain ⟨rfl, rfl⟩ := made
    exact flat inner

/-- The members of a union keep the normal form when they are promoted in turn. -/
theorem InTurn.normalMembers {members members' : List ModelType}
    (related : InTurn (Makes path) members new members')
    (fresh : Fresh path (refsOfMembers members) new) (normal : NormalMembers members) :
    NormalMembers members' where
  several := by
    have same_length := (related.forall₂ fun _ _ _ _ _ _ => trivial).length_eq
    exact same_length ▸ normal.several
  flat := by
    intro member' inside
    obtain ⟨member, listed, part, -, made⟩ := related.exists_source inside
    exact made.not_union (normal.flat member listed)
  distinct := by
    refine related.pairwise normal.distinct ?_
    intro first listed second listed' different part part' first' second' among made made'
    refine made.different made' (fresh.part among (List.append_subset.mpr ⟨?_, ?_⟩)) different
    · exact fun target referred => mem_refsOfMembers.mpr ⟨first, listed, referred⟩
    · exact fun target referred => mem_refsOfMembers.mpr ⟨second, listed', referred⟩

/-- Promotion keeps the normal form in a type, and its declarations have it. -/
theorem Makes.normal (made : Makes path before new after) (fresh : Fresh path before.refs new)
    (normal : before.NormalUnions) : after.NormalUnions ∧ NormalModels new := by
  induction before generalizing new after with
  | array item ih =>
    obtain ⟨item', rfl, below⟩ := made
    have kept := ih below fresh normal
    exact kept
  | map value ih =>
    obtain ⟨value', rfl, below⟩ := made
    have kept := ih below fresh normal
    exact kept
  | union members ih =>
    obtain ⟨members', rfl, below⟩ := made
    obtain ⟨form, each⟩ := normalUnions_union_iff.mp normal
    have related := makesMembers_iff.mp below
    obtain ⟨left, made_normal⟩ := related.normal id
      fun member listed part member' among made => ih member listed made
        (fresh.part among fun target referred => mem_refsOfMembers.mpr ⟨member, listed, referred⟩)
        (each member listed)
    exact ⟨normalUnions_union_iff.mpr ⟨related.normalMembers fresh form, left⟩, made_normal⟩
  | object model ih =>
    obtain ⟨name, fields, inner, rfl, rfl, below⟩ := made
    obtain ⟨left, made_normal⟩ := (makesFields_iff.mp below).fields_normal
      fun field listed part after among made => ih field listed made
        (fresh.part (among.trans (List.sublist_append_left _ _)) fun target referred =>
          mem_refsOfFields.mpr ⟨field, listed, referred⟩)
        (normalUnions_object_iff.mp normal field listed)
    refine ⟨List.forall_mem_nil _, List.forall_mem_append.mpr
      ⟨made_normal, List.forall_mem_singleton.mpr ?_⟩⟩
    exact List.forall_mem_map.mpr left
  | enum model =>
    obtain ⟨name, rfl, rfl⟩ := made
    exact ⟨normal, List.forall_mem_singleton.mpr (List.forall_mem_nil _)⟩
  | _ =>
    obtain ⟨rfl, rfl⟩ := made
    exact ⟨normal, List.forall_mem_nil _⟩

theorem MakesModel.normal {source own : Model} (made : MakesModel path source new own)
    (fresh : Fresh path source.refs new) (normal : ∀ type ∈ source.types, type.NormalUnions) :
    NormalModels (new ++ [own]) := by
  have left : (∀ type ∈ own.types, type.NormalUnions) ∧ NormalModels new := by
    cases source with
    | object model =>
      obtain ⟨fields, rfl, below⟩ := made
      obtain ⟨left, made_normal⟩ := below.fields_normal
        fun field listed part after among made => made.normal
          (fresh.part among fun target referred => mem_refsOfFields.mpr ⟨field, listed, referred⟩)
          (normal field.type (List.mem_map_of_mem listed))
      exact ⟨List.forall_mem_map.mpr left, made_normal⟩
    | enum model =>
      obtain ⟨rfl, rfl⟩ := made
      exact ⟨normal, List.forall_mem_nil _⟩
    | «alias» model =>
      obtain ⟨target, rfl, below⟩ := made
      obtain ⟨left, made_normal⟩ :=
        below.normal fresh (normal model.target (List.mem_singleton.mpr rfl))
      exact ⟨List.forall_mem_singleton.mpr left, made_normal⟩
  exact List.forall_mem_append.mpr ⟨left.2, List.forall_mem_singleton.mpr left.1⟩

end Promotion

/-- Promotion keeps the normal form in a module that declares what it refers to in its own
namespace. -/
theorem Module.promoteInline_normal (home : Module) (closed : home.Closed)
    (normal : Promotion.NormalModels home.models) :
    Promotion.NormalModels home.promoteInline.models := by
  obtain ⟨blocks, layout, arranged, makes⟩ := home.promoteInline_makes
  intro model present
  obtain ⟨block, among, inside⟩ := List.mem_flatMap.mp (layout ▸ present : model ∈ _)
  obtain ⟨source, listed, made⟩ := exists_left_of_forall₂ makes among
  refine made.normal ⟨?_, fun other inside referred => ?_⟩ (normal source listed) model inside
  · have part : block.1.Sublist (Promotion.madeIn blocks) := by
      rw [Promotion.madeIn, List.flatMap_def]
      exact List.sublist_flatten_of_mem (List.mem_map_of_mem among)
    exact arranged.made_nodup.sublist (part.map _)
  · exact arranged.fresh other (List.mem_flatMap.mpr ⟨block, among, inside⟩)
      (closed source listed _ referred rfl)

namespace Derivation

theorem filled_of_nodes {conventions : Conventions} {schemas : Entries String Json}
    {decoded : Entries String Node} (success : nodes conventions schemas = .ok decoded) :
    ∀ entry ∈ decoded, entry.2.Filled := by
  intro entry listed
  obtain ⟨schema, -, -, read⟩ := exists_left_of_forall₂ (nodes_eq_ok success) listed
  obtain ⟨node, read, adjusted⟩ := Option.map_eq_some_iff.mp read
  rw [← adjusted]
  have anything : Json.Hereditary fun _ => True := ⟨fun _ _ _ _ => trivial, fun _ _ _ _ => trivial⟩
  exact conventions.filled_adjustNode (Node.sound_of_ofJson? anything trivial read)

/-- The unions in what is declared for a schema have the normal form. -/
theorem declare_normal {resolver : Resolver} (filled : ∀ entry ∈ resolver.nodes, entry.2.Filled)
    {name : String} {entry : ModulePath × Model} (declares : resolver.Declares name entry) :
    ∀ type ∈ entry.2.types, type.NormalUnions := by
  have wide : ∀ target node, Entries.get? resolver.nodes target = some node → node.Branches 1 :=
    fun target node known => (filled _ (Entries.mem_of_get? known)).branches
  obtain ⟨-, node, known, -, success⟩ := declares
  intro type listed
  refine Resolver.declare_induction ModelType.constructed_normalUnions wide
    (fun _ _ _ _ => ?_) (wide name node known) success listed
  exact List.forall_mem_nil _

/-- What the declarations of a namespace refer to in it is among them. -/
theorem closed_of_mem_group {resolver : Resolver} {names : List String}
    {declared : List (ModulePath × Model)}
    (related : List.Forall₂ resolver.Declares (names.filter resolver.isDeclared) declared)
    (complete : names = Entries.keys resolver.nodes) {home : Module}
    (present : home ∈ Module.group declared) : home.Closed := by
  intro model inside target referred here
  obtain ⟨other, grouped, same_path, found, listed, named⟩ :=
    exists_declared related complete present inside referred
  obtain rfl : other = home := List.inj_on_of_nodup_map (Module.group_paths_nodup declared)
    grouped present (same_path.trans here)
  exact named ▸ List.mem_map_of_mem listed

/-- Wherever a union occurs in the modules of a document, it has several members, none of them a
union, and no member twice. -/
theorem unions_normal {bucket : String} {conventions : Conventions} {collapse : Bool}
    {schemas : Entries String Json} {modules : List Module}
    (success : ofSchemas bucket conventions collapse schemas = .ok modules) :
    ∀ home ∈ modules, ∀ model ∈ home.models, ∀ type ∈ model.types, ∀ members ∈ type.unions,
      ModelType.NormalMembers members ∧ members.Nodup := by
  obtain ⟨decoded, declared, known, related, rfl⟩ := ofSchemas_eq_ok success
  rw [← keys_nodes known] at related
  intro home present
  obtain ⟨plain, grouped, rfl⟩ := List.mem_map.mp present
  have normal : Promotion.NormalModels plain.models := by
    intro model inside
    obtain ⟨name, -, declares⟩ :=
      exists_left_of_forall₂ related (Module.mem_of_mem_group grouped inside)
    exact declare_normal (filled_of_nodes known) declares
  intro model inside type listed members within
  have form := plain.promoteInline_normal (closed_of_mem_group related rfl grouped) normal
    model inside type listed members within
  have members_plain := ModelType.plain_of_mem_unions
    (plain.promoteInline_plain model inside type listed) within
  refine ⟨form, form.distinct.imp_of_mem fun {first second} listed _ different => ?_⟩
  rintro rfl
  rw [ModelType.same_self (members_plain first listed)] at different
  cases different

/-- A port by number, by name or in one of two forms of its own. The first alternative is itself a
union, in a schema that is replaced, and has the second one among its members. -/
def portSchemas : Entries String Json :=
  [("Rule", .object [("type", .string "object"), ("properties", .object [
      ("port", .object [("oneOf", .array [
        .object [("$ref", .string "#/components/schemas/IntOrString")],
        .object [("type", .string "integer")],
        .object [("type", .string "object"), ("properties", .object [
          ("name", .object [("type", .string "string")])])],
        .object [("type", .string "object"), ("properties", .object [
          ("number", .object [("type", .string "integer")])])]])])])]),
    ("IntOrString", .object [("oneOf", .array [
      .object [("type", .string "integer")], .object [("type", .string "string")]])])]

def portModules : List Module :=
  let field (name : String) (type : ModelType) : Field ModelType :=
    ⟨name, type, false, false, none, none, false⟩
  [⟨["k8s", "models"], [
    .object ⟨"Port", none, [field "name" .string]⟩,
    .object ⟨"PortModel", none, [field "number" .integer]⟩,
    .object ⟨"Rule", none, [field "port" (.union [.integer, .string,
      .ref ⟨["k8s", "models"], "Port"⟩, .ref ⟨["k8s", "models"], "PortModel"⟩])]⟩]⟩]

theorem port_union_normal :
    ofSchemas "k8s" .kubernetes true portSchemas = .ok portModules ∧
      ∀ home ∈ portModules, ∀ model ∈ home.models, ∀ type ∈ model.types,
        ∀ members ∈ type.unions, ModelType.NormalMembers members ∧ members.Nodup :=
  ⟨rfl, unions_normal (rfl : ofSchemas "k8s" .kubernetes true portSchemas = .ok portModules)⟩

end Derivation

end ResourceModels

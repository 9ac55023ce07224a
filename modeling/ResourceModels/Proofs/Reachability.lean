import Mathlib
import ResourceModels.Proofs.Collapse
import ResourceModels.Proofs.Values

/-!
# The nodes that a derivation reaches

The derivation goes from the body of a declared schema to the nodes inside, and from a reference to
the body of the schema that replaces it. `Reaches` says this without saying where the derivation
stops: inside the replacement of a schema it does not replace that schema again. Nothing is missed
by that. A node that can be reached is come upon with replacements nested that are pairwise
different (`exists_comesUpon`), so the budget for them suffices, and a declaration that succeeds
has a type for every node reached from its schema (`typed_of_comesUpon`).
-/

namespace ResourceModels

/-- The nodes inside a node. What is said of open keys counts only in an object without
properties. -/
inductive Node.Holds : Node → Node → Prop
  | property (shape : ObjectShape Node) (notes : Notes) (property : String × Node)
      (inside : property ∈ shape.properties) : Holds ⟨.object shape, notes⟩ property.2
  | additional (shape : ObjectShape Node) (notes : Notes) (node : Node)
      (no_properties : shape.properties = []) (given : shape.additional = some node) :
      Holds ⟨.object shape, notes⟩ node
  | items (items : Node) (notes : Notes) : Holds ⟨.array items, notes⟩ items
  | variant (variants : List Node) (notes : Notes) (variant : Node) (inside : variant ∈ variants) :
      Holds ⟨.union variants, notes⟩ variant

/-- One step of the derivation through the schemas of a document. -/
inductive Next (collapse : Bool) (nodes : Entries String Node) : Node → Node → Prop
  | inside (outer inner : Node) (holds : outer.Holds inner) : Next collapse nodes outer inner
  /-- A reference to a schema that is replaced where it is used. -/
  | replaced (path : String) (notes : Notes) (target : String) (node : Node)
      (collapsing : collapse = true) (valid : Reference.target path = .ok target)
      (known : Entries.get? nodes target = some node) (no_model : node.isModel = false) :
      Next collapse nodes ⟨.reference path, notes⟩ node

abbrev Reaches (collapse : Bool) (nodes : Entries String Node) : Node → Node → Prop :=
  Relation.ReflTransGen (Next collapse nodes)

/-- The named schema gets a declaration, and its body leads to the node. -/
def ReachedFrom (collapse : Bool) (nodes : Entries String Node) (name : String) (node : Node) :
    Prop :=
  ∃ body, Entries.get? nodes name = some body ∧ (collapse = true → body.isModel = true) ∧
    Reaches collapse nodes body node

theorem ReachedFrom.tail {collapse : Bool} {nodes : Entries String Node} {name : String}
    {before after : Node} (reached : ReachedFrom collapse nodes name before)
    (next : Next collapse nodes before after) : ReachedFrom collapse nodes name after := by
  obtain ⟨body, known, kept, reaches⟩ := reached
  exact ⟨body, known, kept, Relation.ReflTransGen.tail reaches next⟩

namespace Resolver

variable {resolver : Resolver}

theorem isCollapsed_eq_true_iff {node : Node} : resolver.isCollapsed node = true ↔
    resolver.collapse = true ∧ node.isModel = false := by
  rw [isCollapsed, Bool.and_eq_true, Bool.not_eq_true']

theorem isCollapsed_eq_false_iff {node : Node} : resolver.isCollapsed node = false ↔
    (resolver.collapse = true → node.isModel = true) := by
  rw [isCollapsed, Bool.and_eq_false_imp]
  simp

/-- The nodes that come up when the type of `start` is made, each with the schemas that are being
replaced there, the innermost one first. -/
inductive ComesUpon (resolver : Resolver) (start : Node) : List String → Node → Prop
  | start : ComesUpon resolver start [] start
  | inside (inlining : List String) (outer inner : Node)
      (above : ComesUpon resolver start inlining outer) (holds : outer.Holds inner) :
      ComesUpon resolver start inlining inner
  | replaced (inlining : List String) (path : String) (notes : Notes) (target : String)
      (node : Node) (above : ComesUpon resolver start inlining ⟨.reference path, notes⟩)
      (valid : Reference.target path = .ok target)
      (known : Entries.get? resolver.nodes target = some node)
      (collapsed : resolver.isCollapsed node = true) (fresh : target ∉ inlining) :
      ComesUpon resolver start (target :: inlining) node

variable {start : Node}

namespace ComesUpon

/-- What is being replaced has come up before. -/
theorem body_of_mem {inlining : List String} {node : Node}
    (comes : resolver.ComesUpon start inlining node) {target : String}
    (listed : target ∈ inlining) : ∃ outer body, Entries.get? resolver.nodes target = some body ∧
      resolver.ComesUpon start outer body := by
  induction comes with
  | start => cases listed
  | inside inlining outer inner above holds ih => exact ih listed
  | replaced inlining path notes name node above valid known collapsed fresh ih =>
    rcases List.mem_cons.mp listed with rfl | listed
    · exact ⟨_, node, known, .replaced inlining path notes _ node above valid known collapsed fresh⟩
    · exact ih listed

theorem distinct {inlining : List String} {node : Node}
    (comes : resolver.ComesUpon start inlining node) :
    inlining.Nodup ∧ inlining ⊆ Entries.keys resolver.nodes := by
  induction comes with
  | start => exact ⟨List.nodup_nil, List.nil_subset _⟩
  | inside inlining outer inner above holds ih => exact ih
  | replaced inlining path notes name node above valid known collapsed fresh ih =>
    exact ⟨List.nodup_cons.mpr ⟨fresh, ih.1⟩,
      List.cons_subset.mpr ⟨Entries.mem_keys_of_get? known, ih.2⟩⟩

theorem length_le {inlining : List String} {node : Node}
    (comes : resolver.ComesUpon start inlining node) :
    inlining.length ≤ resolver.nodes.length := by
  obtain ⟨distinct, schemas⟩ := comes.distinct
  have bound := (List.subperm_of_subset distinct schemas).length_le
  rwa [Entries.keys, List.length_map] at bound

/-- Where the derivation would replace a schema inside itself, it has been at the body before. -/
theorem next {inlining : List String} {before after : Node}
    (comes : resolver.ComesUpon start inlining before)
    (next : Next resolver.collapse resolver.nodes before after) :
    ∃ inlining', resolver.ComesUpon start inlining' after := by
  cases next with
  | inside _ _ holds => exact ⟨inlining, .inside inlining before after comes holds⟩
  | replaced path notes target node collapsing valid known no_model =>
    by_cases within : target ∈ inlining
    · -- The cut hides nothing: the body came up when its replacement began.
      obtain ⟨outer, body, found, body_comes⟩ := comes.body_of_mem within
      cases known.symm.trans found
      exact ⟨outer, body_comes⟩
    · have collapsed := isCollapsed_eq_true_iff.mpr ⟨collapsing, no_model⟩
      exact ⟨_, .replaced inlining path notes target after comes valid known collapsed within⟩

end ComesUpon

/-- Every node that can be reached comes up. -/
theorem exists_comesUpon {node : Node}
    (reaches : Reaches resolver.collapse resolver.nodes start node) :
    ∃ inlining, resolver.ComesUpon start inlining node := by
  induction reaches with
  | refl => exact ⟨[], .start⟩
  | tail reaches next ih =>
    obtain ⟨inlining, comes⟩ := ih
    exact comes.next next

end Resolver

namespace ModelType

/-- Every object among some declarations is among others, or one that is the same. -/
def ObjectsKept (before after : List Model) : Prop :=
  ∀ model, Model.object model ∈ before →
    ∃ kept, Model.object kept ∈ after ∧ (kept = model ∨ same (.object kept) (.object model) = true)

theorem ObjectsKept.of_subset {before after : List Model} (subset : before ⊆ after) :
    ObjectsKept before after :=
  fun model listed => ⟨model, subset listed, .inl rfl⟩

theorem ObjectsKept.trans {first second third : List Model} (left : ObjectsKept first second)
    (right : ObjectsKept second third) : ObjectsKept first third := by
  intro model listed
  obtain ⟨between, among, alike⟩ := left model listed
  obtain ⟨kept, present, alike'⟩ := right between among
  refine ⟨kept, present, ?_⟩
  obtain rfl | alike := alike
  · exact alike'
  · obtain rfl | alike' := alike'
    · exact .inr alike
    · exact .inr (same_trans alike' alike)

/-- The same objects stand inline in types that are the same. -/
theorem objectsKept_of_same {kept type : ModelType} (equal : same kept type = true) :
    ObjectsKept type.inlineModels kept.inlineModels := by
  induction kept generalizing type with
  | array item ih =>
    cases type <;> simp only [same, Bool.false_eq_true] at equal
    have below := ih equal
    exact below
  | map value ih =>
    cases type <;> simp only [same, Bool.false_eq_true] at equal
    have below := ih equal
    exact below
  | union members ih =>
    cases type <;> simp only [same, Bool.false_eq_true] at equal
    next others =>
      intro model listed
      obtain ⟨other, among, inside⟩ := mem_inlineModelsOfMembers.mp listed
      obtain ⟨member, present, alike⟩ := exists_left_of_forall₂ (sameMembers_iff.mp equal) among
      obtain ⟨found, within, same_model⟩ := ih member present alike model inside
      exact ⟨found, mem_inlineModelsOfMembers.mpr ⟨member, present, within⟩, same_model⟩
  | object object ih =>
    cases type with
    | object other =>
      intro model listed
      rcases List.mem_cons.mp listed with itself | listed
      · cases itself
        exact ⟨object, List.mem_cons_self, .inr equal⟩
      · obtain ⟨field, among, inside⟩ := mem_inlineModelsOfFields.mp listed
        rw [same, Bool.and_eq_true] at equal
        obtain ⟨before, present, alike⟩ :=
          exists_left_of_forall₂ (sameFields_iff.mp equal.2) among
        obtain ⟨found, within, same_model⟩ := ih before present alike.type model inside
        have deeper := mem_inlineModelsOfFields.mpr ⟨before, present, within⟩
        exact ⟨found, List.mem_cons_of_mem _ deeper, same_model⟩
    | _ => cases equal
  | enum enum =>
    cases type <;> simp only [same, Bool.false_eq_true] at equal
    intro model listed
    cases List.mem_singleton.mp listed
  | _ =>
    cases type <;> simp only [same, Bool.false_eq_true] at equal
    exact fun _ absent => absurd absent List.not_mem_nil

theorem inlineModels_subset_unite {types : List ModelType} {kept : ModelType}
    (among : kept ∈ (types.flatMap spread).foldl pushNew []) :
    kept.inlineModels ⊆ (unite types).inlineModels := by
  intro model listed
  unfold unite
  split
  next type only =>
    rw [only] at among
    exact List.mem_singleton.mp among ▸ listed
  next => exact mem_inlineModelsOfMembers.mpr ⟨kept, among, listed⟩

/-- An alternative that is dropped is the same as one that stays. -/
theorem objectsKept_unite {types : List ModelType} {type : ModelType} (present : type ∈ types) :
    ObjectsKept type.inlineModels (unite types).inlineModels := by
  have of_part : ∀ part ∈ type.spread,
      ObjectsKept part.inlineModels (unite types).inlineModels := by
    intro part inside
    have spread_out : part ∈ types.flatMap spread := List.mem_flatMap.mpr ⟨type, present, inside⟩
    obtain ⟨kept, among, alike⟩ := exists_kept (List.mem_append_right [] spread_out)
    have stays := ObjectsKept.of_subset (inlineModels_subset_unite among)
    obtain rfl | alike := alike
    · exact stays
    · exact (objectsKept_of_same alike).trans stays
  obtain ⟨members, rfl⟩ | whole := spread_cases type
  · intro model listed
    obtain ⟨member, among, inside⟩ := mem_inlineModelsOfMembers.mp listed
    exact of_part member among model inside
  · exact of_part type (whole ▸ List.mem_singleton.mpr rfl)

end ModelType

namespace Resolver

open ModelType

variable {resolver : Resolver} {conventions : Conventions} {follow : Follow} {start : Node}

/-- A node inside another has a type where that has one, and what stands inline there stands inline
in the whole. -/
theorem typeOf_holds {outer inner : Node} (holds : outer.Holds inner) {context : String}
    {type : ModelType} (success : typeOf conventions follow context outer = .ok type) :
    ∃ context' part, typeOf conventions follow context' inner = .ok part ∧
      ObjectsKept part.inlineModels type.inlineModels := by
  cases holds with
  | property shape notes property inside =>
    obtain ⟨empty, -⟩ | ⟨fields, found, rfl⟩ := typeOf_object_eq_ok success
    · rw [empty] at inside
      cases inside
    · obtain ⟨field, listed, part, typed, rfl⟩ :=
        exists_right_of_forall₂ (fieldsOf_eq_ok_iff.mp found) inside
      refine ⟨_, part, typed, .of_subset fun model within => ?_⟩
      refine List.mem_cons_of_mem _ (mem_inlineModelsOfFields.mpr ⟨_, listed, ?_⟩)
      rwa [fieldOf, Conventions.adjustField_type]
  | additional shape notes node no_properties given =>
    rw [typeOf_object, no_properties, given, List.isEmpty_nil, if_pos rfl] at success
    obtain ⟨part, typed, rfl⟩ := map_eq_ok success
    exact ⟨context, part, typed, .of_subset (List.Subset.refl _)⟩
  | items items notes =>
    obtain ⟨part, typed, rfl⟩ := typeOf_array_eq_ok success
    exact ⟨_, part, typed, .of_subset (List.Subset.refl _)⟩
  | variant variants notes variant inside =>
    obtain ⟨types, found, rfl⟩ := typeOf_union_eq_ok success
    obtain ⟨part, listed, typed⟩ := exists_right_of_forall₂ found inside
    exact ⟨context, part, typed, objectsKept_unite listed⟩

/-- Where the start has a type, everything that comes up has one. The budget left over has room for
every schema that is not being replaced. -/
theorem typed_of_comesUpon {current context : String} {whole : ModelType}
    (success : typeOf resolver.conventions
      (resolver.followWithin current resolver.nodes.length []) context start = .ok whole)
    {inlining : List String} {node : Node} (comes : resolver.ComesUpon start inlining node) :
    ∃ context' type, typeOf resolver.conventions (resolver.followWithin current
        (resolver.nodes.length - inlining.length) inlining) context' node = .ok type ∧
      ObjectsKept type.inlineModels whole.inlineModels := by
  induction comes with
  | start => exact ⟨context, whole, success, .of_subset (List.Subset.refl _)⟩
  | inside inlining outer inner above holds ih =>
    obtain ⟨context', type, typed, kept⟩ := ih
    obtain ⟨context'', part, part_typed, part_kept⟩ := typeOf_holds holds typed
    exact ⟨context'', part, part_typed, part_kept.trans kept⟩
  | replaced inlining path notes target node above valid known collapsed fresh ih =>
    obtain ⟨context', type, typed, kept⟩ := ih
    have longer := (ComesUpon.replaced inlining path notes target node above valid known
      collapsed fresh).length_le
    have room : resolver.nodes.length - inlining.length =
        resolver.nodes.length - (target :: inlining).length + 1 := by
      rw [List.length_cons] at longer ⊢
      omega
    rw [typeOf, room, followWithin_of_collapsed valid known collapsed fresh] at typed
    exact ⟨context', type, typed, kept⟩

end Resolver

end ResourceModels

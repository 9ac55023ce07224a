import Mathlib
import ResourceModels.Derivation.Promotion
import ResourceModels.Proofs.Types

/-!
# What promotion makes of a module

`Hoisted` relates a type to its form after promotion: the same tree, where every inline object and
enumeration has become a reference to one of the declarations made for them. The declarations of
one step are new ones, under names that nothing else has. `promote_spec` says both of `promote`,
and `promoteInline_spec` says of a module that it is its own declarations in their order, each after
those made for it.
-/

namespace ResourceModels

namespace Promotion

theorem toString_injective : Function.Injective (fun n : Nat => toString n) := by
  intro a b same
  have digits : Nat.toDigits 10 a = Nat.toDigits 10 b := by
    simpa using congrArg String.toList same
  simpa using congrArg (fun digits => Nat.ofDigitChars 10 digits 0) digits

/-- Different numbers behind a text give different names. -/
theorem numbered_injective (base : String) :
    Function.Injective fun number : Nat => base ++ toString number := by
  intro a b same
  exact toString_injective ((String.append_right_inj _).mp same)

theorem length_toString_pos (number : Nat) : 0 < (toString number).length := by
  rw [Nat.toString_eq_repr]
  exact Nat.length_repr_pos

theorem candidates_nodup (base : String) (numbered : Nat) : (candidates base numbered).Nodup := by
  have lengths : ("Model" : String).length = 5 := by decide
  have numbers :
      ((List.range numbered).map fun i => base ++ "Model" ++ toString (i + 1)).Nodup :=
    List.nodup_range.map ((numbered_injective (base ++ "Model")).comp Nat.succ_injective)
  refine List.nodup_cons.mpr ⟨?_, List.nodup_cons.mpr ⟨?_, numbers⟩⟩
  · intro taken
    rcases List.mem_cons.mp taken with same | taken
    · have := congrArg String.length same
      rw [String.length_append] at this
      omega
    · obtain ⟨i, -, same⟩ := List.mem_map.mp taken
      have := congrArg String.length same
      rw [String.length_append, String.length_append] at this
      omega
  · intro taken
    obtain ⟨i, -, same⟩ := List.mem_map.mp taken
    have longer := congrArg String.length same
    have positive := length_toString_pos (i + 1)
    rw [String.length_append _ (toString (i + 1))] at longer
    omega

/-- There are more candidates than taken names, so one of them is free. -/
theorem freeName_not_mem (used : List String) (base : String) : freeName used base ∉ used := by
  have more : used.length < (candidates base used.length).length := by
    simp only [candidates, List.length_cons, List.length_map, List.length_range]
    omega
  obtain ⟨name, found⟩ := exists_free (candidates_nodup base used.length) more
  rw [freeName, found]
  simpa using List.find?_some found

theorem freeName_mem_candidates (used : List String) (base : String) :
    freeName used base ∈ candidates base used.length := by
  unfold freeName
  cases found : (candidates base used.length).find? (· ∉ used) with
  | some name => exact List.mem_of_find?_eq_some found
  | none => exact List.mem_cons_self

mutual

/-- The second type is the first with everything inline replaced by references to declarations
of the module at `path` that are among `made`. -/
def Hoisted (path : ModulePath) (made : List Model) : ModelType → ModelType → Prop
  | .object model, after =>
    ∃ name fields, after = .ref ⟨path, name⟩ ∧ .object { model with name, fields } ∈ made ∧
      HoistedFields path made model.fields fields
  | .enum model, after => ∃ name, after = .ref ⟨path, name⟩ ∧ .enum { model with name } ∈ made
  | .array item, after => ∃ item', after = .array item' ∧ Hoisted path made item item'
  | .map value, after => ∃ value', after = .map value' ∧ Hoisted path made value value'
  | .union members, after =>
    ∃ members', after = .union members' ∧ HoistedMembers path made members members'
  | type, after => after = type

def HoistedMembers (path : ModulePath) (made : List Model) :
    List ModelType → List ModelType → Prop
  | [], after => after = []
  | member :: rest, after =>
    ∃ member' rest', after = member' :: rest' ∧ Hoisted path made member member' ∧
      HoistedMembers path made rest rest'

def HoistedFields (path : ModulePath) (made : List Model) :
    List (Field ModelType) → List (Field ModelType) → Prop
  | [], after => after = []
  | field :: rest, after =>
    ∃ type rest', after = { field with type } :: rest' ∧ Hoisted path made field.type type ∧
      HoistedFields path made rest rest'

end

/-- A field with the type that promotion leaves in it. -/
def HoistedField (path : ModulePath) (made : List Model) (before after : Field ModelType) : Prop :=
  ∃ type, after = { before with type } ∧ Hoisted path made before.type type

theorem hoistedMembers_iff {path : ModulePath} {made : List Model} {before after : List ModelType} :
    HoistedMembers path made before after ↔ List.Forall₂ (Hoisted path made) before after := by
  induction before generalizing after with
  | nil => simp [HoistedMembers]
  | cons member rest ih =>
    constructor
    · rintro ⟨member', rest', rfl, first, others⟩
      exact .cons first (ih.mp others)
    · intro related
      cases related with
      | cons first others => exact ⟨_, _, rfl, first, ih.mpr others⟩

theorem hoistedFields_iff {path : ModulePath} {made : List Model}
    {before after : List (Field ModelType)} :
    HoistedFields path made before after ↔ List.Forall₂ (HoistedField path made) before after := by
  induction before generalizing after with
  | nil => simp [HoistedFields]
  | cons field rest ih =>
    constructor
    · rintro ⟨type, rest', rfl, first, others⟩
      exact .cons ⟨type, rfl, first⟩ (ih.mp others)
    · intro related
      cases related with
      | cons first others =>
        obtain ⟨type, rfl, first⟩ := first
        exact ⟨_, _, rfl, first, ih.mpr others⟩

/-- More declarations do no harm. -/
theorem Hoisted.mono {path : ModulePath} {made more : List Model} (grown : made ⊆ more)
    {before after : ModelType} (related : Hoisted path made before after) :
    Hoisted path more before after := by
  induction before generalizing after with
  | array item ih =>
    obtain ⟨item', rfl, below⟩ := related
    exact ⟨_, rfl, ih below⟩
  | map value ih =>
    obtain ⟨value', rfl, below⟩ := related
    exact ⟨_, rfl, ih below⟩
  | union members ih =>
    obtain ⟨members', rfl, below⟩ := related
    refine ⟨_, rfl, hoistedMembers_iff.mpr ?_⟩
    exact forall₂_imp_of_mem (hoistedMembers_iff.mp below) fun member present _ => ih member present
  | object model ih =>
    obtain ⟨name, fields, rfl, present, below⟩ := related
    refine ⟨name, fields, rfl, grown present, hoistedFields_iff.mpr ?_⟩
    refine forall₂_imp_of_mem (hoistedFields_iff.mp below) fun field inside _ => ?_
    rintro ⟨type, rfl, hoisted⟩
    exact ⟨type, rfl, ih field inside hoisted⟩
  | enum model =>
    obtain ⟨name, rfl, present⟩ := related
    exact ⟨_, rfl, grown present⟩
  | _ => exact related

theorem HoistedField.mono {path : ModulePath} {made more : List Model} (grown : made ⊆ more)
    {before after : Field ModelType} (related : HoistedField path made before after) :
    HoistedField path more before after := by
  obtain ⟨type, rfl, hoisted⟩ := related
  exact ⟨type, rfl, hoisted.mono grown⟩

/-- Nothing inline is left. -/
theorem Hoisted.hasInline {path : ModulePath} {made : List Model} {before after : ModelType}
    (related : Hoisted path made before after) : after.hasInline = false := by
  induction before generalizing after with
  | array item ih =>
    obtain ⟨item', rfl, below⟩ := related
    rw [ModelType.hasInline]
    exact ih below
  | map value ih =>
    obtain ⟨value', rfl, below⟩ := related
    rw [ModelType.hasInline]
    exact ih below
  | union members ih =>
    obtain ⟨members', rfl, below⟩ := related
    rw [ModelType.hasInline, ModelType.anyHasInline_eq_false]
    intro member' present'
    obtain ⟨member, present, hoisted⟩ :=
      exists_left_of_forall₂ (hoistedMembers_iff.mp below) present'
    exact ih member present hoisted
  | object model ih =>
    obtain ⟨name, fields, rfl, -⟩ := related
    rfl
  | enum model =>
    obtain ⟨name, rfl, -⟩ := related
    rfl
  | _ =>
    cases related
    rfl

/-- References are kept, and the new ones lead to declarations that have been made. -/
theorem Hoisted.refs {path : ModulePath} {made : List Model} {before after : ModelType}
    (related : Hoisted path made before after) {target : ClassRef} (present : target ∈ after.refs) :
    target ∈ before.refs ∨ ∃ model ∈ made, target = ⟨path, model.name⟩ := by
  induction before generalizing after with
  | array item ih =>
    obtain ⟨item', rfl, below⟩ := related
    exact ih below present
  | map value ih =>
    obtain ⟨value', rfl, below⟩ := related
    exact ih below present
  | union members ih =>
    obtain ⟨members', rfl, below⟩ := related
    obtain ⟨member', inside', present⟩ := ModelType.mem_refsOfMembers.mp present
    obtain ⟨member, inside, hoisted⟩ := exists_left_of_forall₂ (hoistedMembers_iff.mp below) inside'
    rcases ih member inside hoisted present with kept | new
    · exact .inl (ModelType.mem_refsOfMembers.mpr ⟨member, inside, kept⟩)
    · exact .inr new
  | object model ih =>
    obtain ⟨name, fields, rfl, declared, -⟩ := related
    exact .inr ⟨_, declared, List.mem_singleton.mp present⟩
  | enum model =>
    obtain ⟨name, rfl, declared⟩ := related
    exact .inr ⟨_, declared, List.mem_singleton.mp present⟩
  | _ =>
    cases related
    exact .inl present

theorem Hoisted.isMap {path : ModulePath} {made : List Model} {before after : ModelType}
    (related : Hoisted path made before after) : after.isMap = before.isMap := by
  cases before with
  | object model =>
    obtain ⟨name, fields, rfl, -⟩ := related
    rfl
  | enum model =>
    obtain ⟨name, rfl, -⟩ := related
    rfl
  | array item =>
    obtain ⟨item', rfl, -⟩ := related
    rfl
  | map value =>
    obtain ⟨value', rfl, -⟩ := related
    rfl
  | union members =>
    obtain ⟨members', rfl, -⟩ := related
    rfl
  | _ =>
    cases related
    rfl

/-- The second declaration is the first with its types hoisted, possibly under another name. -/
def HoistedModel (path : ModulePath) (made : List Model) : Model → Model → Prop
  | .object model, after =>
    ∃ name fields, after = .object { model with name, fields } ∧
      List.Forall₂ (HoistedField path made) model.fields fields
  | .enum model, after => ∃ name, after = .enum { model with name }
  | .alias model, after =>
    ∃ target, after = .alias { model with target } ∧ Hoisted path made model.target target

theorem HoistedModel.mono {path : ModulePath} {made more : List Model} (grown : made ⊆ more)
    {before after : Model} (related : HoistedModel path made before after) :
    HoistedModel path more before after := by
  cases before with
  | object model =>
    obtain ⟨name, fields, rfl, below⟩ := related
    exact ⟨name, fields, rfl, below.imp fun _ _ => HoistedField.mono grown⟩
  | enum model => exact related
  | «alias» model =>
    obtain ⟨target, rfl, below⟩ := related
    exact ⟨target, rfl, below.mono grown⟩

/-- Every type of the result is the hoisted form of a type of the source. -/
theorem HoistedModel.types {path : ModulePath} {made : List Model} {before after : Model}
    (related : HoistedModel path made before after) {type : ModelType}
    (present : type ∈ after.types) : ∃ source ∈ before.types, Hoisted path made source type := by
  cases before with
  | object model =>
    obtain ⟨name, fields, rfl, below⟩ := related
    obtain ⟨field', inside', rfl⟩ := List.mem_map.mp present
    obtain ⟨field, inside, type, rfl, hoisted⟩ := exists_left_of_forall₂ below inside'
    exact ⟨field.type, List.mem_map.mpr ⟨field, inside, rfl⟩, hoisted⟩
  | enum model =>
    obtain ⟨name, rfl⟩ := related
    cases present
  | «alias» model =>
    obtain ⟨target, rfl, below⟩ := related
    obtain rfl := List.mem_singleton.mp present
    exact ⟨model.target, List.mem_singleton.mpr rfl, below⟩

theorem HoistedModel.refs {path : ModulePath} {made : List Model} {before after : Model}
    (related : HoistedModel path made before after) {target : ClassRef}
    (present : target ∈ after.refs) :
    target ∈ before.refs ∨ ∃ model ∈ made, target = ⟨path, model.name⟩ := by
  obtain ⟨type, inside, present⟩ := Model.mem_refs.mp present
  obtain ⟨source, inside, hoisted⟩ := related.types inside
  rcases hoisted.refs present with kept | new
  · exact .inl (Model.mem_refs.mpr ⟨source, inside, kept⟩)
  · exact .inr new

/-- Whatever stands inline has been declared. -/
theorem Hoisted.exists_declaration {path : ModulePath} {made : List Model}
    {before after : ModelType} (related : Hoisted path made before after) {inner : Model}
    (inside : inner ∈ before.inlineModels) :
    ∃ own ∈ made, HoistedModel path made inner own := by
  induction before generalizing after with
  | array item ih =>
    obtain ⟨item', rfl, below⟩ := related
    exact ih below inside
  | map value ih =>
    obtain ⟨value', rfl, below⟩ := related
    exact ih below inside
  | union members ih =>
    obtain ⟨members', rfl, below⟩ := related
    obtain ⟨member, listed, inside⟩ := ModelType.mem_inlineModelsOfMembers.mp inside
    obtain ⟨member', -, hoisted⟩ := exists_right_of_forall₂ (hoistedMembers_iff.mp below) listed
    exact ih member listed hoisted inside
  | object model ih =>
    obtain ⟨name, fields, rfl, declared, below⟩ := related
    have hoisted_fields := hoistedFields_iff.mp below
    rcases List.mem_cons.mp inside with rfl | inside
    · exact ⟨_, declared, name, fields, rfl, hoisted_fields⟩
    · obtain ⟨field, listed, inside⟩ := ModelType.mem_inlineModelsOfFields.mp inside
      obtain ⟨field', -, type, rfl, hoisted⟩ := exists_right_of_forall₂ hoisted_fields listed
      exact ih field listed hoisted inside
  | enum model =>
    obtain ⟨name, rfl, declared⟩ := related
    obtain rfl := List.mem_singleton.mp inside
    exact ⟨_, declared, name, rfl⟩
  | _ => cases inside

theorem HoistedModel.exists_declaration {path : ModulePath} {made : List Model}
    {before after : Model} (related : HoistedModel path made before after) {inner : Model}
    (inside : inner ∈ before.inlineModels) : ∃ own ∈ made, HoistedModel path made inner own := by
  obtain ⟨type, listed, inside⟩ := Model.mem_inlineModels.mp inside
  cases before with
  | object model =>
    obtain ⟨name, fields, rfl, below⟩ := related
    obtain ⟨field, among, rfl⟩ := List.mem_map.mp listed
    obtain ⟨field', -, type, rfl, hoisted⟩ := exists_right_of_forall₂ below among
    exact hoisted.exists_declaration inside
  | enum model => cases listed
  | «alias» model =>
    obtain ⟨target, rfl, below⟩ := related
    obtain rfl := List.mem_singleton.mp listed
    exact below.exists_declaration inside

/-- The second declaration is made for the first, which stands inline, under one of the names that
are tried for it. -/
structure MadeFor (path : ModulePath) (made : List Model) (before after : Model) : Prop where
  hoisted : HoistedModel path made before after
  named : ∃ numbered, after.name ∈ candidates before.name numbered

theorem MadeFor.mono {path : ModulePath} {made more : List Model} (grown : made ⊆ more)
    {before after : Model} (related : MadeFor path made before after) :
    MadeFor path more before after :=
  ⟨related.hoisted.mono grown, related.named⟩

/-- Declarations have been added, under pairwise different names that were not in use. -/
structure Adds (before after : Promotion) (new : List Model) : Prop where
  made : after.made = before.made ++ new
  distinct : (new.map Model.name).Nodup
  fresh : ∀ model ∈ new, model.name ∉ before.used
  used : ∀ name, name ∈ before.used ∨ name ∈ new.map Model.name → name ∈ after.used

theorem Adds.refl (promotion : Promotion) : Adds promotion promotion [] where
  made := (List.append_nil _).symm
  distinct := List.nodup_nil
  fresh := fun _ absent => absurd absent List.not_mem_nil
  used := fun _ known => known.resolve_right List.not_mem_nil

theorem Adds.trans {first second third : Promotion} {new newer : List Model}
    (before : Adds first second new) (after : Adds second third newer) :
    Adds first third (new ++ newer) where
  made := by rw [after.made, before.made, List.append_assoc]
  distinct := by
    rw [List.map_append, List.nodup_append]
    refine ⟨before.distinct, after.distinct, fun name old name' later same => ?_⟩
    subst same
    obtain ⟨model, present, rfl⟩ := List.mem_map.mp later
    exact after.fresh model present (before.used _ (.inr old))
  fresh := by
    intro model present
    rcases List.mem_append.mp present with old | later
    · exact before.fresh model old
    · exact fun known => after.fresh model later (before.used _ (.inl known))
  used := by
    intro name known
    rw [List.map_append, List.mem_append, ← or_assoc] at known
    exact after.used name (known.imp_left (before.used name))

/-- A name is taken, declarations are made for what stands below, and the declaration of that name
comes last. -/
theorem Adds.declare {before inner : Promotion} {new : List Model} {model : Model}
    (free : model.name ∉ before.used) (below : Adds (before.take model.name) inner new) :
    Adds before (inner.add model) (new ++ [model]) where
  made := by
    change inner.made ++ [model] = _
    rw [below.made, List.append_assoc]
    rfl
  distinct := by
    rw [List.map_append, List.nodup_append]
    refine ⟨below.distinct, List.nodup_singleton _, fun name earlier name' last same => ?_⟩
    subst same
    obtain ⟨other, present, named⟩ := List.mem_map.mp earlier
    obtain rfl := List.mem_singleton.mp last
    exact below.fresh other present (named ▸ List.mem_cons_self)
  fresh := by
    intro other present
    rcases List.mem_append.mp present with earlier | last
    · exact fun known => below.fresh other earlier (List.mem_cons_of_mem _ known)
    · exact List.mem_singleton.mp last ▸ free
  used := by
    intro name known
    rw [List.map_append, List.mem_append] at known
    rcases known with known | earlier | last
    · exact below.used name (.inl (List.mem_cons_of_mem _ known))
    · exact below.used name (.inr earlier)
    · obtain rfl := List.mem_singleton.mp last
      exact below.used _ (.inl List.mem_cons_self)

/-- What promotion does to a row of types: they are hoisted into the new declarations, and each new
declaration is made for something that stood in them. -/
structure Promotes (path : ModulePath) (before : Promotion) (types : List ModelType)
    (after : Promotion) (hoisted : List ModelType) (new : List Model) : Prop
    extends Adds before after new where
  related : List.Forall₂ (Hoisted path new) types hoisted
  sources : ∀ model ∈ new, ∃ type ∈ types, ∃ source ∈ type.inlineModels,
    MadeFor path new source model

theorem Promotes.nil (path : ModulePath) (promotion : Promotion) :
    Promotes path promotion [] promotion [] [] where
  toAdds := .refl promotion
  related := .nil
  sources := fun _ absent => absurd absent List.not_mem_nil

theorem Promotes.append {path : ModulePath} {first second third : Promotion}
    {types types' more more' : List ModelType} {new newer : List Model}
    (before : Promotes path first types second types' new)
    (after : Promotes path second more third more' newer) :
    Promotes path first (types ++ more) third (types' ++ more') (new ++ newer) where
  toAdds := before.toAdds.trans after.toAdds
  related := by
    refine List.rel_append ?_ ?_
    · exact before.related.imp fun _ _ => Hoisted.mono (List.subset_append_left _ _)
    · exact after.related.imp fun _ _ => Hoisted.mono (List.subset_append_right _ _)
  sources := by
    intro model present
    rcases List.mem_append.mp present with old | later
    · obtain ⟨type, listed, source, inside, made⟩ := before.sources model old
      exact ⟨type, List.mem_append_left _ listed, source, inside,
        made.mono (List.subset_append_left _ _)⟩
    · obtain ⟨type, listed, source, inside, made⟩ := after.sources model later
      exact ⟨type, List.mem_append_right _ listed, source, inside,
        made.mono (List.subset_append_right _ _)⟩

/-- One type inside another: the same step, seen from outside. -/
theorem Promotes.wrap {path : ModulePath} {before after : Promotion} {inner inner' : List ModelType}
    {outer outer' : ModelType} {new : List Model}
    (below : Promotes path before inner after inner' new) (hoisted : Hoisted path new outer outer')
    (parts : ∀ type ∈ inner, type.inlineModels ⊆ outer.inlineModels) :
    Promotes path before [outer] after [outer'] new where
  toAdds := below.toAdds
  related := .cons hoisted .nil
  sources := by
    intro model present
    obtain ⟨type, listed, source, inside, made⟩ := below.sources model present
    exact ⟨outer, List.mem_singleton.mpr rfl, source, parts type listed inside, made⟩

/-- A type that promotion leaves alone. -/
theorem Promotes.leaf {path : ModulePath} (promotion : Promotion) {type : ModelType}
    (same : Hoisted path [] type type) : Promotes path promotion [type] promotion [type] [] where
  toAdds := .refl promotion
  related := .cons same .nil
  sources := fun _ absent => absurd absent List.not_mem_nil

theorem promoteMembers_spec (path : ModulePath) {members : List ModelType}
    (each : ∀ member ∈ members, ∀ promotion : Promotion, ∃ new,
      Promotes path promotion [member] (promote path promotion member).1
        [(promote path promotion member).2] new) (promotion : Promotion) :
    ∃ new, Promotes path promotion members (promoteMembers path promotion members).1
      (promoteMembers path promotion members).2 new := by
  induction members generalizing promotion with
  | nil => exact ⟨[], .nil path promotion⟩
  | cons member rest ih =>
    obtain ⟨new, first⟩ := each member List.mem_cons_self promotion
    obtain ⟨newer, others⟩ := ih (fun other present => each other (List.mem_cons_of_mem _ present))
      (promote path promotion member).1
    exact ⟨new ++ newer, first.append others⟩

theorem promoteFields_spec (path : ModulePath) {fields : List (Field ModelType)}
    (each : ∀ field ∈ fields, ∀ promotion : Promotion, ∃ new,
      Promotes path promotion [field.type] (promote path promotion field.type).1
        [(promote path promotion field.type).2] new) (promotion : Promotion) :
    ∃ new, Promotes path promotion (fields.map Field.type) (promoteFields path promotion fields).1
        ((promoteFields path promotion fields).2.map Field.type) new ∧
      List.Forall₂ (HoistedField path new) fields (promoteFields path promotion fields).2 := by
  induction fields generalizing promotion with
  | nil => exact ⟨[], .nil path promotion, .nil⟩
  | cons field rest ih =>
    obtain ⟨new, first⟩ := each field List.mem_cons_self promotion
    obtain ⟨newer, others, related⟩ :=
      ih (fun other present => each other (List.mem_cons_of_mem _ present))
        (promote path promotion field.type).1
    refine ⟨new ++ newer, first.append others, .cons ⟨_, rfl, ?_⟩ ?_⟩
    · exact (List.forall₂_cons.mp first.related).1.mono (List.subset_append_left _ _)
    · exact related.imp fun _ _ => HoistedField.mono (List.subset_append_right _ _)

/-- Promotion hoists a type. An object takes its name before anything inside it, and its
declaration follows those made for its fields. -/
theorem promote_spec (path : ModulePath) (type : ModelType) (promotion : Promotion) :
    ∃ new, Promotes path promotion [type] (promote path promotion type).1
      [(promote path promotion type).2] new := by
  induction type generalizing promotion with
  | array item ih =>
    obtain ⟨new, below⟩ := ih promotion
    have hoisted := (List.forall₂_cons.mp below.related).1
    exact ⟨new, below.wrap ⟨_, rfl, hoisted⟩ (by simp [ModelType.inlineModels])⟩
  | map value ih =>
    obtain ⟨new, below⟩ := ih promotion
    have hoisted := (List.forall₂_cons.mp below.related).1
    exact ⟨new, below.wrap ⟨_, rfl, hoisted⟩ (by simp [ModelType.inlineModels])⟩
  | union members ih =>
    obtain ⟨new, below⟩ := promoteMembers_spec path ih promotion
    refine ⟨new, below.wrap ⟨_, rfl, hoistedMembers_iff.mpr below.related⟩ ?_⟩
    intro member present model inside
    exact ModelType.mem_inlineModelsOfMembers.mpr ⟨member, present, inside⟩
  | object model ih =>
    let name := freeName promotion.used model.name
    let fields := (promoteFields path (promotion.take name) model.fields).2
    have free : name ∉ promotion.used := freeName_not_mem promotion.used model.name
    obtain ⟨new, below, related⟩ := promoteFields_spec path ih (promotion.take name)
    refine ⟨new ++ [.object { model with name, fields }], ⟨?_, .cons ?_ .nil, ?_⟩⟩
    · exact Adds.declare free below.toAdds
    · refine ⟨_, _, rfl, List.mem_append_right _ (List.mem_singleton.mpr rfl), ?_⟩
      exact hoistedFields_iff.mpr
        (related.imp fun _ _ => HoistedField.mono (List.subset_append_left _ _))
    · intro declared present
      refine ⟨_, List.mem_singleton.mpr rfl, ?_⟩
      rcases List.mem_append.mp present with inner | last
      · obtain ⟨type, among, source, inside, made⟩ := below.sources declared inner
        obtain ⟨field, listed, rfl⟩ := List.mem_map.mp among
        have within := ModelType.mem_inlineModelsOfFields.mpr ⟨field, listed, inside⟩
        exact ⟨source, List.mem_cons_of_mem _ within, made.mono (List.subset_append_left _ _)⟩
      · obtain rfl := List.mem_singleton.mp last
        refine ⟨.object model, List.mem_cons_self, ⟨_, _, rfl, ?_⟩, ?_⟩
        · exact related.imp fun _ _ => HoistedField.mono (List.subset_append_left _ _)
        · exact ⟨_, freeName_mem_candidates promotion.used model.name⟩
  | enum model =>
    let name := freeName promotion.used model.name
    have free : name ∉ promotion.used := freeName_not_mem promotion.used model.name
    refine ⟨[.enum { model with name }], ⟨?_, .cons ?_ .nil, ?_⟩⟩
    · exact @Adds.declare _ _ [] (.enum { model with name }) free (.refl (promotion.take name))
    · exact ⟨_, rfl, List.mem_singleton.mpr rfl⟩
    · intro declared present
      obtain rfl := List.mem_singleton.mp present
      exact ⟨.enum model, List.mem_singleton.mpr rfl, .enum model, List.mem_singleton.mpr rfl,
        ⟨_, rfl⟩, _, freeName_mem_candidates promotion.used model.name⟩
  | _ => exact ⟨[], .leaf promotion rfl⟩

/-- A declaration of the module, after those made for what stood inline in it. -/
theorem promoteModel_spec (path : ModulePath) (promotion : Promotion) (model : Model) :
    ∃ inner new own, Promotes path promotion model.types inner own.types new ∧
      promoteModel path promotion model = inner.add own ∧ own.name = model.name ∧
      HoistedModel path new model own := by
  cases model with
  | object model =>
    let fields := (promoteFields path promotion model.fields).2
    obtain ⟨new, below, related⟩ :=
      @promoteFields_spec path model.fields (fun field _ => promote_spec path field.type) promotion
    exact ⟨_, new, .object { model with fields }, below, rfl, rfl, ⟨_, _, rfl, related⟩⟩
  | enum model => exact ⟨promotion, [], .enum model, .nil path promotion, rfl, rfl, ⟨_, rfl⟩⟩
  | «alias» model =>
    let target := (promote path promotion model.target).2
    obtain ⟨new, below⟩ := promote_spec path model.target promotion
    have hoisted := (List.forall₂_cons.mp below.related).1
    exact ⟨_, new, .alias { model with target }, below, rfl, rfl, ⟨_, rfl, hoisted⟩⟩

/-- The declarations of a module in blocks: what was made for a declaration, and then the
declaration itself. -/
structure Blocks (path : ModulePath) (used : List String) (models : List Model)
    (blocks : List (List Model × Model)) : Prop where
  own : List.Forall₂ (fun model block =>
    block.2.name = model.name ∧ HoistedModel path block.1 model block.2) models blocks
  distinct : ((blocks.flatMap Prod.fst).map Model.name).Nodup
  fresh : ∀ model ∈ blocks.flatMap Prod.fst, model.name ∉ used
  sources : ∀ block ∈ blocks, ∀ model ∈ block.1, ∃ owner ∈ models,
    ∃ source ∈ owner.inlineModels, MadeFor path block.1 source model

/-- All declarations in blocks, as one list. -/
def laidOut (blocks : List (List Model × Model)) : List Model :=
  blocks.flatMap fun block => block.1 ++ [block.2]

theorem Blocks.cons {path : ModulePath} {before inner : Promotion} {model own : Model}
    {new : List Model} {rest : List Model} {blocks : List (List Model × Model)}
    (first : Promotes path before model.types inner own.types new)
    (same_name : own.name = model.name) (hoisted : HoistedModel path new model own)
    (others : Blocks path inner.used rest blocks) :
    Blocks path before.used (model :: rest) ((new, own) :: blocks) where
  own := .cons ⟨same_name, hoisted⟩ others.own
  distinct := by
    rw [List.flatMap_cons, List.map_append, List.nodup_append]
    refine ⟨first.distinct, others.distinct, fun name earlier name' later same => ?_⟩
    subst same
    obtain ⟨made, present, rfl⟩ := List.mem_map.mp later
    exact others.fresh made present (first.used _ (.inr earlier))
  fresh := by
    intro made present
    rw [List.flatMap_cons, List.mem_append] at present
    rcases present with earlier | later
    · exact first.fresh made earlier
    · exact fun known => others.fresh made later (first.used _ (.inl known))
  sources := by
    intro block among made present
    rcases List.mem_cons.mp among with rfl | among
    · obtain ⟨type, listed, source, inside, made⟩ := first.sources made present
      exact ⟨model, List.mem_cons_self, source, Model.mem_inlineModels.mpr ⟨type, listed, inside⟩,
        made⟩
    · obtain ⟨owner, listed, found⟩ := others.sources block among made present
      exact ⟨owner, List.mem_cons_of_mem _ listed, found⟩

theorem promoteModels_spec (path : ModulePath) (models : List Model) (promotion : Promotion) :
    ∃ blocks, (models.foldl (promoteModel path) promotion).made = promotion.made ++ laidOut blocks ∧
      Blocks path promotion.used models blocks := by
  induction models generalizing promotion with
  | nil =>
    refine ⟨[], (List.append_nil _).symm, .nil, List.nodup_nil, ?_, ?_⟩
    · exact fun _ absent => absurd absent List.not_mem_nil
    · exact fun _ absent => absurd absent List.not_mem_nil
  | cons model rest ih =>
    obtain ⟨inner, new, own, first, step, same_name, hoisted⟩ :=
      promoteModel_spec path promotion model
    obtain ⟨blocks, made, others⟩ := ih (inner.add own)
    refine ⟨(new, own) :: blocks, ?_, .cons first same_name hoisted others⟩
    rw [List.foldl_cons, step, made]
    change (inner.made ++ [own]) ++ laidOut blocks =
      promotion.made ++ (new ++ [own] ++ laidOut blocks)
    rw [first.made]
    simp only [List.append_assoc]

end Promotion

namespace Module

open Promotion

/-- A module after promotion is its own declarations, each in a block of its own. -/
theorem promoteInline_spec (home : Module) :
    ∃ blocks, home.promoteInline.models = laidOut blocks ∧
      Blocks home.path (home.models.map Model.name) home.models blocks := by
  obtain ⟨blocks, made, arranged⟩ :=
    promoteModels_spec home.path home.models ⟨home.models.map Model.name, []⟩
  exact ⟨blocks, made, arranged⟩

theorem block_subset_laidOut {blocks : List (List Model × Model)} {block : List Model × Model}
    (among : block ∈ blocks) : block.1 ++ [block.2] ⊆ laidOut blocks :=
  fun _ present => List.mem_flatMap.mpr ⟨block, among, present⟩

/-- Every declaration after promotion is a declaration from before, or made for what stands inline
in one. -/
theorem exists_origin (home : Module) {model : Model}
    (present : model ∈ home.promoteInline.models) : ∃ owner ∈ home.models,
      (model.name = owner.name ∧
        HoistedModel home.path home.promoteInline.models owner model) ∨
      ∃ source ∈ owner.inlineModels, MadeFor home.path home.promoteInline.models source model := by
  obtain ⟨blocks, layout, arranged⟩ := home.promoteInline_spec
  rw [layout] at present ⊢
  obtain ⟨block, among, present⟩ := List.mem_flatMap.mp present
  have made_inside : block.1 ⊆ laidOut blocks :=
    List.Subset.trans (List.subset_append_left _ _) (block_subset_laidOut among)
  rcases List.mem_append.mp present with made | own
  · obtain ⟨owner, listed, source, inside, made⟩ := arranged.sources block among model made
    exact ⟨owner, listed, .inr ⟨source, inside, made.mono made_inside⟩⟩
  · obtain rfl := List.mem_singleton.mp own
    obtain ⟨owner, listed, same_name, related⟩ := exists_left_of_forall₂ arranged.own among
    exact ⟨owner, listed, .inl ⟨same_name, related.mono made_inside⟩⟩

/-- Every declaration after promotion is the hoisted form of something that refers to no more than
the declarations before. -/
theorem exists_source (home : Module) {model : Model}
    (present : model ∈ home.promoteInline.models) :
    ∃ source, HoistedModel home.path home.promoteInline.models source model ∧
      ∀ target ∈ source.refs, ∃ owner ∈ home.models, target ∈ owner.refs := by
  obtain ⟨owner, listed, ⟨-, related⟩ | ⟨source, inside, made⟩⟩ := home.exists_origin present
  · exact ⟨owner, related, fun target referred => ⟨owner, listed, referred⟩⟩
  · exact ⟨source, made.hoisted, fun target referred =>
      ⟨owner, listed, Model.refs_subset_of_mem_inlineModels inside referred⟩⟩

/-- Every declaration is still there, hoisted and under its name. -/
theorem exists_promoted (home : Module) {model : Model} (present : model ∈ home.models) :
    ∃ own ∈ home.promoteInline.models, own.name = model.name ∧
      HoistedModel home.path home.promoteInline.models model own := by
  obtain ⟨blocks, layout, arranged⟩ := home.promoteInline_spec
  obtain ⟨block, among, same_name, related⟩ := exists_right_of_forall₂ arranged.own present
  have inside := block_subset_laidOut among
  rw [layout]
  refine ⟨block.2, inside (List.mem_append_right _ (List.mem_singleton.mpr rfl)), same_name, ?_⟩
  exact related.mono (List.Subset.trans (List.subset_append_left _ _) inside)

theorem own_names {path : ModulePath} {used : List String} {models : List Model}
    {blocks : List (List Model × Model)} (arranged : Blocks path used models blocks) :
    (blocks.map Prod.snd).map Model.name = models.map Model.name := by
  rw [List.map_map]
  exact map_eq_map_of_forall₂ arranged.own fun _ _ related => related.1

/-- Promotion gives no name twice. -/
theorem promoteInline_nodup (home : Module) (distinct : (home.models.map Model.name).Nodup) :
    (home.promoteInline.models.map Model.name).Nodup := by
  obtain ⟨blocks, layout, arranged⟩ := home.promoteInline_spec
  have apart : (blocks.flatMap Prod.fst ++ blocks.map Prod.snd).Perm (laidOut blocks) := by
    rw [List.map_eq_flatMap]
    exact List.flatMap_append_perm blocks Prod.fst fun block => [block.2]
  rw [layout, ← (apart.map Model.name).nodup_iff, List.map_append, own_names arranged,
    List.nodup_append]
  refine ⟨arranged.distinct, distinct, fun name made name' own same => ?_⟩
  obtain ⟨model, present, named⟩ := List.mem_map.mp made
  exact arranged.fresh model present (named ▸ same ▸ own)

/-- Leaving out what has been made, the declarations of the module remain. What has been made is
known by its name, which no declaration of the module has. -/
theorem own_part {path : ModulePath} {models : List Model} {blocks : List (List Model × Model)}
    (arranged : Blocks path (models.map Model.name) models blocks) :
    (laidOut blocks).filter (fun model => decide (model.name ∈ models.map Model.name)) =
      blocks.map Prod.snd := by
  have each : ∀ block ∈ blocks, (block.1 ++ [block.2]).filter (fun model =>
      decide (model.name ∈ models.map Model.name)) = [block.2] := by
    intro block among
    have none_made : block.1.filter (fun model =>
        decide (model.name ∈ models.map Model.name)) = [] := by
      rw [List.filter_eq_nil_iff]
      intro model present
      simpa using arranged.fresh model (List.mem_flatMap.mpr ⟨block, among, present⟩)
    have own_kept : block.2.name ∈ models.map Model.name := by
      rw [← own_names arranged]
      exact List.mem_map_of_mem (List.mem_map_of_mem among)
    rw [List.filter_append, none_made, List.filter_cons_of_pos (by simpa using own_kept)]
    rfl
  rw [laidOut, List.filter_flatMap, List.flatMap_congr each]
  exact List.map_eq_flatMap.symm

/-- The declarations of the module that remain are hoisted and in their order. -/
theorem declared_part (home : Module) :
    List.Forall₂ (fun model own => own.name = model.name ∧
        HoistedModel home.path home.promoteInline.models model own) home.models
      (home.promoteInline.models.filter fun model =>
        decide (model.name ∈ home.models.map Model.name)) := by
  obtain ⟨blocks, layout, arranged⟩ := home.promoteInline_spec
  rw [layout, own_part arranged, List.forall₂_map_right_iff]
  refine forall₂_imp_of_mem arranged.own.flip (fun block among model related => ?_) |>.flip
  exact ⟨related.1, related.2.mono
    (List.Subset.trans (List.subset_append_left _ _) (block_subset_laidOut among))⟩

end Module

end ResourceModels

import Mathlib
import ResourceModels.Proofs.NormalTypes
import ResourceModels.Proofs.PromotedParts

/-!
# Promotion loses nothing

`restore` undoes promotion. It knows the names of the declarations a module had, takes every other
one for made, and puts it back in the place of the reference to it. For that it goes through the
module once: no declaration comes before what has been made for it. What comes back is the module
as it was, except for the names of what stands inline, which promotion may have changed
(`promoteInline_lossless`).
-/

namespace ResourceModels

namespace ModelType

/-- The type with what is known put in the place of references into the module at `path`. -/
def putBack (path : ModulePath) (known : Entries String ModelType) : ModelType → ModelType :=
  substitute fun target =>
    if target.path = path then (Entries.get? known target.name).getD (.ref target)
    else .ref target

mutual

/-- The type without the names of what stands inline. -/
def unnamed : ModelType → ModelType
  | .array item => .array item.unnamed
  | .map value => .map value.unnamed
  | .union members => .union (unnamedMembers members)
  | .object model => .object ⟨"", model.description, unnamedFields model.fields⟩
  | .enum model => .enum { model with name := "" }
  | type => type

def unnamedMembers : List ModelType → List ModelType
  | [] => []
  | member :: rest => member.unnamed :: unnamedMembers rest

def unnamedFields : List (Field ModelType) → List (Field ModelType)
  | [] => []
  | field :: rest => { field with type := field.type.unnamed } :: unnamedFields rest

end

theorem unnamed_union (members : List ModelType) :
    (union members).unnamed = union (members.map unnamed) := by
  have members_eq : unnamedMembers members = members.map unnamed := by
    induction members with
    | nil => rfl
    | cons member rest ih => rw [unnamedMembers, ih, List.map_cons]
  rw [unnamed, members_eq]

theorem unnamed_object (model : ObjectModel ModelType) : (object model).unnamed =
    .object ⟨"", model.description,
      model.fields.map fun field => { field with type := field.type.unnamed }⟩ := by
  have fields_eq : ∀ fields, unnamedFields fields =
      fields.map fun field => { field with type := field.type.unnamed } := by
    intro fields
    induction fields with
    | nil => rfl
    | cons field rest ih => rw [unnamedFields, ih, List.map_cons]
  rw [unnamed, fields_eq]

theorem putBack_union (path : ModulePath) (known : Entries String ModelType)
    (members : List ModelType) :
    (union members).putBack path known = union (members.map (putBack path known)) := by
  rw [putBack, substitute, substituteMembers_eq]

theorem putBack_ref (path : ModulePath) (known : Entries String ModelType) (name : String) :
    (ref ⟨path, name⟩).putBack path known = (Entries.get? known name).getD (ref ⟨path, name⟩) :=
  if_pos rfl

end ModelType

namespace Model

/-- A declaration with something done to its types. -/
def onTypes (change : ModelType → ModelType) : Model → Model
  | .object model =>
    .object { model with
      fields := model.fields.map fun field => { field with type := change field.type } }
  | .enum model => .enum model
  | .alias model => .alias { model with target := change model.target }

theorem onTypes_congr {change change' : ModelType → ModelType} {model : Model}
    (same : ∀ type ∈ model.types, change type = change' type) :
    model.onTypes change = model.onTypes change' := by
  cases model with
  | object model =>
    rw [onTypes, onTypes]
    congr 2
    refine List.map_congr_left fun field listed => ?_
    rw [same field.type (List.mem_map_of_mem listed)]
  | enum model => rfl
  | «alias» model => rw [onTypes, onTypes, same model.target (List.mem_singleton.mpr rfl)]

/-- What a declaration says, to stand in the place of a reference to it. -/
def inPlace : Model → ModelType
  | .object model => .object model
  | .enum model => .enum model
  | .alias model => model.target

end Model

namespace Promotion

variable {path : ModulePath} {own : List String}

/-- The declarations with one of the names `own`, each with what has been made for it back in its
place. Any other declaration has been made for a later one and is known from there on. -/
def restore (path : ModulePath) (own : List String) (known : Entries String ModelType) :
    List Model → List Model
  | [] => []
  | model :: rest =>
    let whole := model.onTypes (ModelType.putBack path known)
    if model.name ∈ own then whole :: restore path own known rest
    else restore path own (Entries.insert known model.name whole.inPlace) rest

/-- What is known after all declarations. -/
def remember (path : ModulePath) (own : List String) (known : Entries String ModelType) :
    List Model → Entries String ModelType
  | [] => known
  | model :: rest =>
    if model.name ∈ own then remember path own known rest
    else
      let whole := model.onTypes (ModelType.putBack path known)
      remember path own (Entries.insert known model.name whole.inPlace) rest

theorem get?_remember {known : Entries String ModelType} {models : List Model} {name : String}
    (other : ∀ model ∈ models, model.name ∉ own → model.name ≠ name) :
    Entries.get? (remember path own known models) name = Entries.get? known name := by
  induction models generalizing known with
  | nil => rfl
  | cons model rest ih =>
    have others := fun later listed => other later (List.mem_cons_of_mem _ listed)
    rw [remember]
    split
    next => exact ih others
    next made =>
      rw [ih others, Entries.get?_insert, if_neg (other model List.mem_cons_self made)]

/-- Everything made is known as it stands with all that is known back in its place. -/
def Consistent (path : ModulePath) (known : Entries String ModelType) (made : List Model) : Prop :=
  ∀ model ∈ made, Entries.get? known model.name =
    some (model.onTypes (ModelType.putBack path known)).inPlace

/-- Where declarations refer back, what is known at the end could have been put back from the
start. -/
theorem restore_spec {models : List Model} {refs : List ClassRef}
    (back : RefersBack path refs models) (distinct : (models.map Model.name).Nodup)
    (fresh : ∀ model ∈ models, model.name ∉ own → model.classAt path ∉ refs)
    (known : Entries String ModelType) :
    restore path own known models = (models.filter fun model => decide (model.name ∈ own)).map
        (Model.onTypes (ModelType.putBack path (remember path own known models))) ∧
      Consistent path (remember path own known models)
        (models.filter fun model => decide (model.name ∉ own)) := by
  induction models generalizing refs known with
  | nil => exact ⟨rfl, List.forall_mem_nil _⟩
  | cons model rest ih =>
    obtain ⟨backward, back⟩ := back
    obtain ⟨apart, distinct⟩ := List.nodup_cons.mp distinct
    have fresh_rest : ∀ later ∈ rest, later.name ∉ own →
        later.classAt path ∉ refs ++ [model.classAt path] := by
      intro later listed made known
      rcases List.mem_append.mp known with earlier | here
      · exact fresh later (List.mem_cons_of_mem _ listed) made earlier
      · have same : later.name = model.name := congrArg ClassRef.name (List.mem_singleton.mp here)
        exact apart (same ▸ List.mem_map_of_mem listed)
    -- what the declaration refers to is not among what is still to be made
    have settled : model.onTypes (ModelType.putBack path known) =
        model.onTypes (ModelType.putBack path (remember path own known (model :: rest))) := by
      refine Model.onTypes_congr fun type listed => ?_
      refine ModelType.substitute_congr fun target refers => ?_
      split
      next here =>
        rw [get?_remember]
        rintro later among made same_name
        refine fresh later among made (backward (Model.mem_refs.mpr ⟨type, listed, ?_⟩))
        rwa [Model.classAt, same_name, ← here]
      next => rfl
    by_cases kept : model.name ∈ own
    · obtain ⟨restored, consistent⟩ := ih back distinct fresh_rest known
      have remembered : remember path own known (model :: rest) = remember path own known rest := by
        rw [remember, if_pos kept]
      rw [restore, if_pos kept, settled, remembered, restored,
        List.filter_cons_of_pos (by simpa using kept),
        List.filter_cons_of_neg (by simpa using kept)]
      exact ⟨rfl, consistent⟩
    · let more := Entries.insert known model.name
        (model.onTypes (ModelType.putBack path known)).inPlace
      obtain ⟨restored, consistent⟩ := ih back distinct fresh_rest more
      have remembered : remember path own known (model :: rest) = remember path own more rest := by
        rw [remember, if_neg kept]
      have found : Entries.get? (remember path own more rest) model.name =
          some (model.onTypes (ModelType.putBack path known)).inPlace := by
        rw [get?_remember, Entries.get?_insert, if_pos rfl]
        exact fun later listed _ same => apart (same ▸ List.mem_map_of_mem listed)
      rw [remembered] at settled ⊢
      rw [restore, if_neg kept, restored, List.filter_cons_of_neg (by simpa using kept),
        List.filter_cons_of_pos (by simpa using kept)]
      exact ⟨rfl, List.forall_mem_cons.mpr ⟨settled ▸ found, consistent⟩⟩

/-- References to nothing that has been made are left as they are. -/
def Clear (path : ModulePath) (known : Entries String ModelType) (refs : List ClassRef) : Prop :=
  ∀ target ∈ refs, target.path = path → Entries.get? known target.name = none

theorem InTurn.fields_unnamed {known : Entries String ModelType}
    {fields fields' : List (Field ModelType)} {new : List Model}
    (related : InTurn (MakesField path) fields new fields') (consistent : Consistent path known new)
    (each : ∀ field ∈ fields, ∀ part after, Makes path field.type part after →
      Consistent path known part → (after.putBack path known).unnamed = field.type.unnamed) :
    (fields'.map fun field =>
        { field with type := (field.type.putBack path known).unnamed }) =
      fields.map fun field => { field with type := field.type.unnamed } := by
  refine map_eq_map_of_forall₂ (related.forall₂ ?_) fun _ _ same => same
  rintro field listed part _ among ⟨type, rfl, made⟩
  rw [each field listed part type made fun model inside => consistent model (among inside)]

/-- With what has been made back in its place a type is what it was, but for names. -/
theorem Makes.restored {known : Entries String ModelType} {new : List Model}
    {before after : ModelType} (made : Makes path before new after)
    (consistent : Consistent path known new) (clear : Clear path known before.refs) :
    (after.putBack path known).unnamed = before.unnamed := by
  induction before generalizing new after with
  | array item ih =>
    obtain ⟨item', rfl, below⟩ := made
    exact congrArg ModelType.array (ih below consistent clear)
  | map value ih =>
    obtain ⟨value', rfl, below⟩ := made
    exact congrArg ModelType.map (ih below consistent clear)
  | union members ih =>
    obtain ⟨members', rfl, below⟩ := made
    rw [ModelType.putBack_union, ModelType.unnamed_union, ModelType.unnamed_union, List.map_map]
    refine congrArg ModelType.union (map_eq_map_of_forall₂
      ((makesMembers_iff.mp below).forall₂ ?_) fun _ _ same => same)
    intro member listed part member' among made
    exact ih member listed made (fun model inside => consistent model (among inside))
      fun target referred => clear target (ModelType.mem_refsOfMembers.mpr ⟨_, listed, referred⟩)
  | object model ih =>
    obtain ⟨name, fields, inner, rfl, rfl, below⟩ := made
    have found := consistent _ (List.mem_append_right inner (List.mem_singleton.mpr rfl))
    have same_fields := (makesFields_iff.mp below).fields_unnamed
      (fun model inside => consistent model (List.mem_append_left _ inside))
      fun field listed part after made settled => ih field listed made settled
        fun target referred => clear target (ModelType.mem_refsOfFields.mpr ⟨_, listed, referred⟩)
    rw [ModelType.putBack_ref]
    change ((Entries.get? known name).getD _).unnamed = _
    rw [show Entries.get? known name = _ from found, Option.getD_some, Model.onTypes, Model.inPlace,
      ModelType.unnamed_object, ModelType.unnamed_object, List.map_map]
    exact congrArg (fun fields => ModelType.object ⟨"", model.description, fields⟩) same_fields
  | enum model =>
    obtain ⟨name, rfl, rfl⟩ := made
    have found := consistent _ (List.mem_singleton.mpr rfl)
    rw [ModelType.putBack_ref, show Entries.get? known name = _ from found]
    rfl
  | ref target =>
    obtain ⟨rfl, rfl⟩ := made
    rw [ModelType.putBack, ModelType.substitute]
    split
    next here => rw [clear target (List.mem_singleton.mpr rfl) here, Option.getD_none]
    next => rfl
  | _ =>
    obtain ⟨rfl, rfl⟩ := made
    rfl

theorem MakesModel.restored {known : Entries String ModelType} {new : List Model}
    {before after : Model} (made : MakesModel path before new after)
    (consistent : Consistent path known new) (clear : Clear path known before.refs) :
    (after.onTypes (ModelType.putBack path known)).onTypes ModelType.unnamed =
      before.onTypes ModelType.unnamed := by
  cases before with
  | object model =>
    obtain ⟨fields, rfl, below⟩ := made
    have same_fields := below.fields_unnamed consistent fun field listed part after made settled =>
      made.restored settled fun target referred =>
        clear target (ModelType.mem_refsOfFields.mpr ⟨field, listed, referred⟩)
    rw [Model.onTypes, Model.onTypes, Model.onTypes, List.map_map]
    exact congrArg (fun fields => Model.object { model with fields }) same_fields
  | enum model =>
    obtain ⟨rfl, rfl⟩ := made
    rfl
  | «alias» model =>
    obtain ⟨target, rfl, below⟩ := made
    exact congrArg (fun target => Model.alias { model with target })
      (below.restored consistent clear)

/-- Without anything inline there is nothing to do. -/
theorem promote_of_plain (path : ModulePath) {type : ModelType} (plain : type.hasInline = false)
    (promotion : Promotion) : promote path promotion type = (promotion, type) := by
  induction type with
  | array item ih => rw [promote, ih plain]
  | map value ih => rw [promote, ih plain]
  | union members ih =>
    have each := ModelType.anyHasInline_eq_false.mp plain
    have unchanged : promoteMembers path promotion members = (promotion, members) := by
      clear plain
      induction members with
      | nil => rfl
      | cons member rest ih_rest =>
        rw [promoteMembers, ih member List.mem_cons_self (each member List.mem_cons_self)]
        dsimp only
        rw [ih_rest (fun other listed => ih other (List.mem_cons_of_mem _ listed))
          fun other listed => each other (List.mem_cons_of_mem _ listed)]
    rw [promote, unchanged]
  | object model => cases plain
  | enum model => cases plain
  | _ => rfl

theorem promoteFields_of_plain (path : ModulePath) {fields : List (Field ModelType)}
    (plain : ∀ field ∈ fields, field.type.hasInline = false) (promotion : Promotion) :
    promoteFields path promotion fields = (promotion, fields) := by
  induction fields with
  | nil => rfl
  | cons field rest ih =>
    rw [promoteFields, promote_of_plain path (plain field List.mem_cons_self)]
    dsimp only
    rw [ih fun other listed => plain other (List.mem_cons_of_mem _ listed)]

theorem promoteModel_of_plain (path : ModulePath) {model : Model}
    (plain : ∀ type ∈ model.types, type.hasInline = false) (promotion : Promotion) :
    promoteModel path promotion model = promotion.add model := by
  cases model with
  | object model =>
    rw [promoteModel, promoteFields_of_plain path fun field listed =>
      plain field.type (List.mem_map_of_mem listed)]
  | enum model => rfl
  | «alias» model =>
    rw [promoteModel, promote_of_plain path (plain model.target (List.mem_singleton.mpr rfl))]

theorem promoteModels_of_plain (path : ModulePath) {models : List Model}
    (plain : ∀ model ∈ models, ∀ type ∈ model.types, type.hasInline = false)
    (promotion : Promotion) :
    (models.foldl (promoteModel path) promotion).made = promotion.made ++ models := by
  induction models generalizing promotion with
  | nil => exact (List.append_nil _).symm
  | cons model rest ih =>
    rw [List.foldl_cons, promoteModel_of_plain path (plain model List.mem_cons_self),
      ih fun other listed => plain other (List.mem_cons_of_mem _ listed)]
    exact List.append_assoc _ [model] rest

end Promotion

namespace Module

open Promotion

/-- Promotion loses nothing of a module. -/
structure Lossless (home promoted : Module) : Prop where
  path : promoted.path = home.path
  distinct : (promoted.models.map Model.name).Nodup
  /-- The declarations of the module are there, in their order and with their names. -/
  originals : (promoted.models.filter fun model =>
    decide (model.name ∈ home.models.map Model.name)).map Model.name = home.models.map Model.name
  plain : ∀ model ∈ promoted.models, ∀ type ∈ model.types, type.hasInline = false
  /-- There is one reference to each declaration that has been added, in one that comes after. -/
  referredOnce : ∀ before added after, promoted.models = before ++ added :: after →
    added.name ∉ home.models.map Model.name →
    added.classAt home.path ∉ (before ++ [added]).flatMap Model.refs ∧
      (after.flatMap Model.refs).count (added.classAt home.path) = 1
  /-- With these declarations back in their places the module is what it was, but for the names of
  what stands inline. -/
  restored : (restore home.path (home.models.map Model.name) [] promoted.models).map
    (Model.onTypes ModelType.unnamed) = home.models.map (Model.onTypes ModelType.unnamed)
  again : promoted.promoteInline = promoted

section

variable {home : Module} (distinct : (home.models.map Model.name).Nodup) (closed : home.Closed)

include distinct closed

theorem referred_once {before after : List Model} {added : Model}
    (split : home.promoteInline.models = before ++ added :: after)
    (new : added.name ∉ home.models.map Model.name) :
    added.classAt home.path ∉ (before ++ [added]).flatMap Model.refs ∧
      (after.flatMap Model.refs).count (added.classAt home.path) = 1 := by
  obtain ⟨blocks, layout, arranged, makes⟩ := home.promoteInline_makes
  have laid_out : laidOut blocks = before ++ [added] ++ after := by
    rw [← layout, split, List.append_cons]
  have among : added ∈ madeIn blocks := by
    have present : added ∈ laidOut blocks := by simp [laid_out]
    rw [(laidOut_perm blocks).mem_iff, List.mem_append] at present
    exact present.resolve_right fun own => new (own_names arranged ▸ List.mem_map_of_mem own)
  have absent : added.classAt home.path ∉ (before ++ [added]).flatMap Model.refs := by
    have back := makes.refersBack
    rw [laid_out, refersBack_append] at back
    refine back.1.absent (closed.unknown new) fun earlier => ?_
    have apart := home.promoteInline_nodup distinct
    rw [split, List.map_append, List.map_cons] at apart
    exact (List.nodup_append.mp apart).2.2 _ earlier _ List.mem_cons_self rfl
  have total := makes.count_made arranged among (closed.unknown new)
  rw [laid_out, List.flatMap_append, List.count_append, List.count_eq_zero_of_not_mem absent,
    Nat.zero_add] at total
  exact ⟨absent, total⟩

theorem restore_promoted :
    (restore home.path (home.models.map Model.name) [] home.promoteInline.models).map
      (Model.onTypes ModelType.unnamed) = home.models.map (Model.onTypes ModelType.unnamed) := by
  obtain ⟨blocks, layout, arranged, makes⟩ := home.promoteInline_makes
  have apart := home.promoteInline_nodup distinct
  rw [layout] at apart ⊢
  obtain ⟨restored, consistent⟩ :=
    restore_spec makes.refersBack apart (fun _ _ new => closed.unknown new) []
  rw [restored, own_part arranged, List.map_map, List.map_map]
  refine map_eq_map_of_forall₂ (forall₂_imp_of_members makes
    fun model listed block among made => And.intro (And.intro listed among) made) ?_
  rintro model block ⟨⟨listed, among⟩, made⟩
  refine made.restored (fun inner inside => consistent inner ?_) fun target referred here => ?_
  · have inside : inner ∈ madeIn blocks := List.mem_flatMap.mpr ⟨block, among, inside⟩
    have present := (laidOut_perm blocks).mem_iff.mpr (List.mem_append_left _ inside)
    exact List.mem_filter.mpr ⟨present, by simpa using arranged.fresh inner inside⟩
  · rw [get?_remember, Entries.get?_nil]
    exact fun other _ new same => new (same ▸ closed model listed target referred here)

end

/-- A module loses nothing where its names are pairwise different, and where what it refers to in
its own namespace is declared in it. -/
theorem promoteInline_lossless (home : Module) (distinct : (home.models.map Model.name).Nodup)
    (closed : home.Closed) : Lossless home home.promoteInline where
  path := rfl
  distinct := home.promoteInline_nodup distinct
  originals := by
    obtain ⟨blocks, layout, arranged⟩ := home.promoteInline_spec
    rw [layout, own_part arranged, own_names arranged]
  plain := home.promoteInline_plain
  referredOnce := fun _ _ _ split new => referred_once distinct closed split new
  restored := restore_promoted distinct closed
  again := by
    have unchanged := promoteModels_of_plain home.path home.promoteInline_plain
      ⟨home.promoteInline.models.map Model.name, []⟩
    exact congrArg (fun models => { home with models }) unchanged

/-- A policy with two forms of a property, both to be named like the class that stands beside it. -/
def policies : Module :=
  let field (name : String) (type : ModelType) : Field ModelType :=
    ⟨name, type, false, false, some name, some .null, false⟩
  let spec (fields : List (Field ModelType)) : ObjectModel ModelType := ⟨"Spec", none, fields⟩
  ⟨["crd", "v1"], [
    .object ⟨"Policy", some "A policy.", [field "spec" (.union [
      .object (spec [field "kind" (.enum ⟨"Kind", none, ["Allow", "Deny"]⟩)]),
      .object (spec [field "next" (.array (.ref ⟨["crd", "v1"], "Policy"⟩))])])]⟩,
    .object (spec [field "meta" (.ref ⟨["meta"], "Spec"⟩)])]⟩

theorem policies_lossless : (policies.models.map Model.name).Nodup ∧
    policies.Closed ∧
    policies.promoteInline.models.map Model.name =
      ["Kind", "SpecModel", "SpecModel1", "Policy", "Spec"] ∧
    Lossless policies policies.promoteInline :=
  ⟨by decide, by decide, by decide,
    promoteInline_lossless policies (by decide) (by decide)⟩

end Module

end ResourceModels

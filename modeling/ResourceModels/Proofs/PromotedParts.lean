import Mathlib
import ResourceModels.Proofs.Promotion

/-!
# What promotion makes for each part

`Makes` relates a type to its form after promotion and to the very declarations made for it, in
their order: those for its parts one after the other, and for an inline object those for its fields
and then its own. This is finer than `Promotion.Hoisted`, where declarations only have to be among
those made. Two facts follow for a type, a row of types and a module. Promotion moves references
about, and adds one for each new declaration (`MakesBlocks.refs_perm`); and what it makes refers
only to what the module refers to anyway and to what has been made before
(`MakesBlocks.refersBack`).
-/

namespace ResourceModels

/-- The class that a declaration of the module at `path` declares. -/
def Model.classAt (path : ModulePath) (model : Model) : ClassRef := ⟨path, model.name⟩

namespace ModelType

theorem refsOfMembers_eq (members : List ModelType) :
    refsOfMembers members = members.flatMap refs := by
  induction members with
  | nil => rfl
  | cons member rest ih => rw [refsOfMembers, ih, List.flatMap_cons]

theorem refsOfFields_eq (fields : List (Field ModelType)) :
    refsOfFields fields = fields.flatMap fun field => field.type.refs := by
  induction fields with
  | nil => rfl
  | cons field rest ih => rw [refsOfFields, ih, List.flatMap_cons]

end ModelType

namespace Promotion

open scoped List

/-- Each member of a row is related to what is made for it and to its partner. All that is made
stands in the order of the members. -/
inductive InTurn {α β : Type} (R : α → List Model → β → Prop) :
    List α → List Model → List β → Prop
  | nil : InTurn R [] [] []
  | cons {new newer : List Model} {first : α} {first' : β} {rest : List α} {rest' : List β} :
      R first new first' → InTurn R rest newer rest' →
        InTurn R (first :: rest) (new ++ newer) (first' :: rest')

namespace InTurn

variable {α β : Type} {R : α → List Model → β → Prop} {values : List α} {new : List Model}
  {values' : List β}

theorem exists_source (related : InTurn R values new values') {value' : β}
    (inside : value' ∈ values') :
    ∃ value ∈ values, ∃ part, part.Sublist new ∧ R value part value' := by
  induction related with
  | nil => cases inside
  | cons first others ih =>
    rcases List.mem_cons.mp inside with rfl | inside
    · exact ⟨_, List.mem_cons_self, _, List.sublist_append_left _ _, first⟩
    · obtain ⟨value, listed, part, among, holds⟩ := ih inside
      exact ⟨value, List.mem_cons_of_mem _ listed, part,
        among.trans (List.sublist_append_right _ _), holds⟩

theorem exists_part (related : InTurn R values new values') {model : Model} (made : model ∈ new) :
    ∃ value ∈ values, ∃ part, ∃ value' ∈ values', part.Sublist new ∧ model ∈ part ∧
      R value part value' := by
  induction related with
  | nil => cases made
  | cons first others ih =>
    rcases List.mem_append.mp made with here | later
    · exact ⟨_, List.mem_cons_self, _, _, List.mem_cons_self, List.sublist_append_left _ _, here,
        first⟩
    · obtain ⟨value, listed, part, value', listed', among, inside, holds⟩ := ih later
      exact ⟨value, List.mem_cons_of_mem _ listed, part, value', List.mem_cons_of_mem _ listed',
        among.trans (List.sublist_append_right _ _), inside, holds⟩

/-- What relates each member to its partner, given what is made for it, relates the rows. -/
theorem forall₂ {S : α → β → Prop} (related : InTurn R values new values')
    (each : ∀ value ∈ values, ∀ part value', part ⊆ new → R value part value' → S value value') :
    List.Forall₂ S values values' := by
  induction related with
  | nil => exact .nil
  | cons first others ih =>
    refine .cons (each _ List.mem_cons_self _ _ (List.subset_append_left _ _) first) (ih ?_)
    intro value listed part value' among made
    exact each value (List.mem_cons_of_mem _ listed) part value'
      (List.subset_append_of_subset_right _ among) made

/-- What is made for an earlier member stands before what is made for a later one. -/
theorem pairwise {P : α → α → Prop} {Q : β → β → Prop} (related : InTurn R values new values')
    (before : values.Pairwise P)
    (step : ∀ first ∈ values, ∀ second ∈ values, P first second → ∀ part part' first' second',
      (part ++ part').Sublist new → R first part first' → R second part' second' →
        Q first' second') : values'.Pairwise Q := by
  induction related with
  | nil => exact .nil
  | cons first others ih =>
    obtain ⟨first_before, rest_before⟩ := List.pairwise_cons.mp before
    refine List.pairwise_cons.mpr ⟨fun second' inside => ?_, ih rest_before ?_⟩
    · obtain ⟨second, listed, part', among, holds⟩ := others.exists_source inside
      exact step _ List.mem_cons_self second (List.mem_cons_of_mem _ listed)
        (first_before second listed) _ part' _ second' (among.append_left _) first holds
    · intro second listed third listed' holds part part' second' third' among
      exact step second (List.mem_cons_of_mem _ listed) third (List.mem_cons_of_mem _ listed') holds
        part part' second' third' (among.trans (List.sublist_append_right _ _))

end InTurn

mutual

/-- Promotion makes the declarations `new`, and no others, for a type, and leaves the second type
in its place. -/
def Makes (path : ModulePath) : ModelType → List Model → ModelType → Prop
  | .object model, new, after =>
    ∃ name fields inner, new = inner ++ [.object { model with name, fields }] ∧
      after = .ref ⟨path, name⟩ ∧ MakesFields path model.fields inner fields
  | .enum model, new, after =>
    ∃ name, new = [.enum { model with name }] ∧ after = .ref ⟨path, name⟩
  | .array item, new, after => ∃ item', after = .array item' ∧ Makes path item new item'
  | .map value, new, after => ∃ value', after = .map value' ∧ Makes path value new value'
  | .union members, new, after =>
    ∃ members', after = .union members' ∧ MakesMembers path members new members'
  | type, new, after => new = [] ∧ after = type

def MakesMembers (path : ModulePath) : List ModelType → List Model → List ModelType → Prop
  | [], new, after => new = [] ∧ after = []
  | member :: rest, new, after =>
    ∃ first others member' rest', new = first ++ others ∧ after = member' :: rest' ∧
      Makes path member first member' ∧ MakesMembers path rest others rest'

def MakesFields (path : ModulePath) :
    List (Field ModelType) → List Model → List (Field ModelType) → Prop
  | [], new, after => new = [] ∧ after = []
  | field :: rest, new, after =>
    ∃ first others type rest', new = first ++ others ∧ after = { field with type } :: rest' ∧
      Makes path field.type first type ∧ MakesFields path rest others rest'

end

/-- The same for the type of a field. -/
def MakesField (path : ModulePath) (before : Field ModelType) (new : List Model)
    (after : Field ModelType) : Prop :=
  ∃ type, after = { before with type } ∧ Makes path before.type new type

theorem makesMembers_iff {path : ModulePath} {new : List Model} {before after : List ModelType} :
    MakesMembers path before new after ↔ InTurn (Makes path) before new after := by
  induction before generalizing new after with
  | nil =>
    constructor
    · rintro ⟨rfl, rfl⟩
      exact .nil
    · intro related
      cases related
      exact ⟨rfl, rfl⟩
  | cons member rest ih =>
    constructor
    · rintro ⟨first, others, member', rest', rfl, rfl, made, more⟩
      exact .cons made (ih.mp more)
    · intro related
      cases related with
      | cons made more => exact ⟨_, _, _, _, rfl, rfl, made, ih.mpr more⟩

theorem makesFields_iff {path : ModulePath} {new : List Model}
    {before after : List (Field ModelType)} :
    MakesFields path before new after ↔ InTurn (MakesField path) before new after := by
  induction before generalizing new after with
  | nil =>
    constructor
    · rintro ⟨rfl, rfl⟩
      exact .nil
    · intro related
      cases related
      exact ⟨rfl, rfl⟩
  | cons field rest ih =>
    constructor
    · rintro ⟨first, others, type, rest', rfl, rfl, made, more⟩
      exact .cons ⟨type, rfl, made⟩ (ih.mp more)
    · intro related
      cases related with
      | cons made more =>
        obtain ⟨type, rfl, made⟩ := made
        exact ⟨_, _, _, _, rfl, rfl, made, ih.mpr more⟩

/-- What is made for a type is what its inline parts are hoisted to. -/
theorem Makes.hoisted {path : ModulePath} {new : List Model} {before after : ModelType}
    (made : Makes path before new after) : Hoisted path new before after := by
  induction before generalizing new after with
  | array item ih =>
    obtain ⟨item', rfl, below⟩ := made
    exact ⟨_, rfl, ih below⟩
  | map value ih =>
    obtain ⟨value', rfl, below⟩ := made
    exact ⟨_, rfl, ih below⟩
  | union members ih =>
    obtain ⟨members', rfl, below⟩ := made
    refine ⟨_, rfl, hoistedMembers_iff.mpr ?_⟩
    exact (makesMembers_iff.mp below).forall₂ fun member listed part member' among made =>
      (ih member listed made).mono among
  | object model ih =>
    obtain ⟨name, fields, inner, rfl, rfl, below⟩ := made
    refine ⟨name, fields, rfl, List.mem_append_right _ (List.mem_singleton.mpr rfl), ?_⟩
    refine hoistedFields_iff.mpr ((makesFields_iff.mp below).forall₂ ?_)
    rintro field listed part _ among ⟨type, rfl, made⟩
    exact ⟨type, rfl, (ih field listed made).mono (List.subset_append_of_subset_left _ among)⟩
  | enum model =>
    obtain ⟨name, rfl, rfl⟩ := made
    exact ⟨name, rfl, List.mem_singleton.mpr rfl⟩
  | _ => exact made.2

/-- What is made for a declaration, and what is left of it. It keeps its name. -/
def MakesModel (path : ModulePath) : Model → List Model → Model → Prop
  | .object model, new, after =>
    ∃ fields, after = .object { model with fields } ∧
      InTurn (MakesField path) model.fields new fields
  | .enum model, new, after => new = [] ∧ after = .enum model
  | .alias model, new, after =>
    ∃ target, after = .alias { model with target } ∧ Makes path model.target new target

theorem promoteMembers_makes (path : ModulePath) {members : List ModelType}
    (each : ∀ member ∈ members, ∀ promotion : Promotion, ∃ new,
      (promote path promotion member).1.made = promotion.made ++ new ∧
      Makes path member new (promote path promotion member).2) (promotion : Promotion) :
    ∃ new, (promoteMembers path promotion members).1.made = promotion.made ++ new ∧
      MakesMembers path members new (promoteMembers path promotion members).2 := by
  induction members generalizing promotion with
  | nil => exact ⟨[], (List.append_nil _).symm, rfl, rfl⟩
  | cons member rest ih =>
    obtain ⟨first, others⟩ := List.forall_mem_cons.mp each
    obtain ⟨new, grown, made⟩ := first promotion
    obtain ⟨newer, grown', more⟩ := ih others (promote path promotion member).1
    refine ⟨new ++ newer, ?_, _, _, _, _, rfl, rfl, made, more⟩
    rw [← List.append_assoc, ← grown, ← grown']
    rfl

theorem promoteFields_makes (path : ModulePath) {fields : List (Field ModelType)}
    (each : ∀ field ∈ fields, ∀ promotion : Promotion, ∃ new,
      (promote path promotion field.type).1.made = promotion.made ++ new ∧
      Makes path field.type new (promote path promotion field.type).2) (promotion : Promotion) :
    ∃ new, (promoteFields path promotion fields).1.made = promotion.made ++ new ∧
      MakesFields path fields new (promoteFields path promotion fields).2 := by
  induction fields generalizing promotion with
  | nil => exact ⟨[], (List.append_nil _).symm, rfl, rfl⟩
  | cons field rest ih =>
    obtain ⟨first, others⟩ := List.forall_mem_cons.mp each
    obtain ⟨new, grown, made⟩ := first promotion
    obtain ⟨newer, grown', more⟩ := ih others (promote path promotion field.type).1
    refine ⟨new ++ newer, ?_, _, _, _, _, rfl, rfl, made, more⟩
    rw [← List.append_assoc, ← grown, ← grown']
    rfl

theorem promote_makes (path : ModulePath) (type : ModelType) (promotion : Promotion) :
    ∃ new, (promote path promotion type).1.made = promotion.made ++ new ∧
      Makes path type new (promote path promotion type).2 := by
  induction type generalizing promotion with
  | array item ih =>
    obtain ⟨new, grown, made⟩ := ih promotion
    exact ⟨new, grown, _, rfl, made⟩
  | map value ih =>
    obtain ⟨new, grown, made⟩ := ih promotion
    exact ⟨new, grown, _, rfl, made⟩
  | union members ih =>
    obtain ⟨new, grown, made⟩ := promoteMembers_makes path ih promotion
    exact ⟨new, grown, _, rfl, made⟩
  | object model ih =>
    let name := freeName promotion.used model.name
    let fields := (promoteFields path (promotion.take name) model.fields).2
    obtain ⟨inner, grown, made⟩ := promoteFields_makes path ih (promotion.take name)
    refine ⟨inner ++ [.object { model with name, fields }], ?_, name, fields, inner, rfl, rfl, made⟩
    rw [← List.append_assoc]
    exact congrArg (· ++ [_]) grown
  | enum model => exact ⟨[_], rfl, _, rfl, rfl⟩
  | _ => exact ⟨[], (List.append_nil _).symm, rfl, rfl⟩

theorem promoteModel_makes (path : ModulePath) (promotion : Promotion) (model : Model) :
    ∃ new own, (promoteModel path promotion model).made = promotion.made ++ (new ++ [own]) ∧
      MakesModel path model new own := by
  cases model with
  | object model =>
    obtain ⟨new, grown, made⟩ := @promoteFields_makes path model.fields
      (fun field _ => promote_makes path field.type) promotion
    refine ⟨new, _, ?_, _, rfl, makesFields_iff.mp made⟩
    rw [← List.append_assoc, ← grown]
    rfl
  | enum model => exact ⟨[], .enum model, rfl, rfl, rfl⟩
  | «alias» model =>
    obtain ⟨new, grown, made⟩ := promote_makes path model.target promotion
    refine ⟨new, _, ?_, _, rfl, made⟩
    rw [← List.append_assoc, ← grown]
    rfl

/-- The declarations in blocks, what is made for each of them before it. -/
def MakesBlocks (path : ModulePath) (models : List Model) (blocks : List (List Model × Model)) :
    Prop :=
  List.Forall₂ (fun model block => MakesModel path model block.1 block.2) models blocks

/-- The blocks of a module, with just what is made for each declaration. -/
theorem promoteModels_makes (path : ModulePath) (models : List Model) (promotion : Promotion) :
    ∃ blocks, (models.foldl (promoteModel path) promotion).made = promotion.made ++ laidOut blocks ∧
      Blocks path promotion.used models blocks ∧ MakesBlocks path models blocks := by
  induction models generalizing promotion with
  | nil =>
    refine ⟨[], (List.append_nil _).symm, ⟨.nil, List.nodup_nil, ?_, ?_⟩, .nil⟩
    · exact List.forall_mem_nil _
    · exact List.forall_mem_nil _
  | cons model rest ih =>
    obtain ⟨inner, new, own, first, step, same_name, hoisted⟩ :=
      promoteModel_spec path promotion model
    obtain ⟨new', own', grown, made⟩ := promoteModel_makes path promotion model
    obtain ⟨blocks, grown', arranged, others⟩ := ih (inner.add own)
    -- both lemmas speak of the same declarations
    have grown_own : (inner.add own).made = promotion.made ++ (new ++ [own]) := by
      change inner.made ++ [own] = _
      rw [first.made, List.append_assoc]
    have same : new ++ [own] = new' ++ [own'] :=
      List.append_cancel_left (grown_own.symm.trans (step ▸ grown))
    obtain ⟨rfl, same_own⟩ := List.append_inj' same rfl
    obtain rfl := List.singleton_inj.mp same_own
    refine ⟨(new, own) :: blocks, ?_, .cons first same_name hoisted arranged, .cons made others⟩
    rw [List.foldl_cons, step, grown', grown_own, List.append_assoc]
    rfl

theorem perm_pairs {α : Type} (first second third fourth : List α) :
    (first ++ second ++ (third ++ fourth)).Perm (first ++ third ++ (second ++ fourth)) := by
  rw [List.append_assoc, List.append_assoc]
  exact (List.perm_append_comm_assoc second third fourth).append_left first

theorem InTurn.refs_perm {α β : Type} {R : α → List Model → β → Prop} {path : ModulePath}
    {f : α → List ClassRef} {g : β → List ClassRef} {values : List α} {new : List Model}
    {values' : List β} (related : InTurn R values new values')
    (each : ∀ value ∈ values, ∀ new value', R value new value' →
      (g value' ++ new.flatMap Model.refs).Perm (f value ++ new.map (Model.classAt path))) :
    (values'.flatMap g ++ new.flatMap Model.refs).Perm
      (values.flatMap f ++ new.map (Model.classAt path)) := by
  induction related with
  | nil => exact .refl _
  | cons first others ih =>
    have first_perm := each _ List.mem_cons_self _ _ first
    have others_perm := ih fun value listed => each value (List.mem_cons_of_mem _ listed)
    rw [List.flatMap_cons, List.flatMap_cons, List.flatMap_append, List.map_append]
    exact (perm_pairs _ _ _ _).trans ((first_perm.append others_perm).trans (perm_pairs _ _ _ _))

theorem InTurn.field_refs_perm {path : ModulePath} {fields fields' : List (Field ModelType)}
    {new : List Model} (made : InTurn (MakesField path) fields new fields')
    (each : ∀ field ∈ fields, ∀ new after, Makes path field.type new after →
      (after.refs ++ new.flatMap Model.refs).Perm
        (field.type.refs ++ new.map (Model.classAt path))) :
    (ModelType.refsOfFields fields' ++ new.flatMap Model.refs).Perm
      (ModelType.refsOfFields fields ++ new.map (Model.classAt path)) := by
  rw [ModelType.refsOfFields_eq, ModelType.refsOfFields_eq]
  refine made.refs_perm fun field listed new field' made => ?_
  obtain ⟨type, rfl, made⟩ := made
  exact each field listed new type made

/-- All references are kept, and there is one more for each declaration that is made. -/
theorem Makes.refs_perm {path : ModulePath} {new : List Model} {before after : ModelType}
    (made : Makes path before new after) :
    (after.refs ++ new.flatMap Model.refs).Perm
      (before.refs ++ new.map (Model.classAt path)) := by
  induction before generalizing new after with
  | array item ih =>
    obtain ⟨item', rfl, below⟩ := made
    have moved := ih below
    exact moved
  | map value ih =>
    obtain ⟨value', rfl, below⟩ := made
    have moved := ih below
    exact moved
  | union members ih =>
    obtain ⟨members', rfl, below⟩ := made
    simp only [ModelType.refs, ModelType.refsOfMembers_eq]
    exact (makesMembers_iff.mp below).refs_perm fun member listed new after => ih member listed
  | object model ih =>
    obtain ⟨name, fields, inner, rfl, rfl, below⟩ := made
    have moved := (makesFields_iff.mp below).field_refs_perm
      fun field listed new after => ih field listed
    let own : Model := .object { model with name, fields }
    calc [own.classAt path] ++ (inner ++ [own]).flatMap Model.refs
      _ = [own.classAt path] ++ (inner.flatMap Model.refs ++ ModelType.refsOfFields fields) := by
        simp [own, Model.refs]
      _ ~ (ModelType.refsOfFields fields ++ inner.flatMap Model.refs) ++ [own.classAt path] :=
        List.perm_append_comm.trans (List.perm_append_comm.append_right _)
      _ ~ (ModelType.refsOfFields model.fields ++ inner.map (Model.classAt path)) ++
          [own.classAt path] := moved.append_right _
      _ = (ModelType.object model).refs ++ (inner ++ [own]).map (Model.classAt path) := by
        simp [ModelType.refs]
  | enum model =>
    obtain ⟨name, rfl, rfl⟩ := made
    exact .refl _
  | _ =>
    obtain ⟨rfl, rfl⟩ := made
    exact .refl _

theorem MakesModel.refs_perm {path : ModulePath} {new : List Model} {before after : Model}
    (made : MakesModel path before new after) :
    (after.refs ++ new.flatMap Model.refs).Perm
      (before.refs ++ new.map (Model.classAt path)) := by
  cases before with
  | object model =>
    obtain ⟨fields, rfl, below⟩ := made
    exact below.field_refs_perm fun field listed new after => Makes.refs_perm
  | enum model =>
    obtain ⟨rfl, rfl⟩ := made
    exact .refl _
  | «alias» model =>
    obtain ⟨target, rfl, below⟩ := made
    exact below.refs_perm

/-- What has been made for the declarations of a module. -/
def madeIn (blocks : List (List Model × Model)) : List Model := blocks.flatMap Prod.fst

/-- Classes that are made for a module are different. -/
theorem Blocks.made_nodup {path : ModulePath} {used : List String} {models : List Model}
    {blocks : List (List Model × Model)} (arranged : Blocks path used models blocks) :
    ((madeIn blocks).map (Model.classAt path)).Nodup := by
  refine List.Nodup.of_map ClassRef.name ?_
  rw [List.map_map]
  exact arranged.distinct

theorem laidOut_perm (blocks : List (List Model × Model)) :
    (laidOut blocks).Perm (madeIn blocks ++ blocks.map Prod.snd) := by
  rw [List.map_eq_flatMap]
  exact (List.flatMap_append_perm blocks Prod.fst fun block => [block.2]).symm

theorem MakesBlocks.refs_perm {path : ModulePath} {models : List Model}
    {blocks : List (List Model × Model)} (made : MakesBlocks path models blocks) :
    ((laidOut blocks).flatMap Model.refs).Perm
      (models.flatMap Model.refs ++ (madeIn blocks).map (Model.classAt path)) := by
  induction made with
  | nil => exact .refl _
  | @cons model block models blocks first others ih =>
    change ((block.1 ++ [block.2] ++ laidOut blocks).flatMap Model.refs).Perm
      (model.refs ++ models.flatMap Model.refs ++
        (block.1 ++ madeIn blocks).map (Model.classAt path))
    rw [List.flatMap_append, List.flatMap_append, List.map_append]
    refine List.Perm.trans ?_ (perm_pairs _ _ _ _)
    refine List.Perm.append ?_ ih
    simpa using List.perm_append_comm.trans first.refs_perm

/-- What has been made is referred to once. -/
theorem MakesBlocks.count_made {path : ModulePath} {used : List String} {models : List Model}
    {blocks : List (List Model × Model)} (makes : MakesBlocks path models blocks)
    (arranged : Blocks path used models blocks) {made : Model} (among : made ∈ madeIn blocks)
    (unknown : made.classAt path ∉ models.flatMap Model.refs) :
    ((laidOut blocks).flatMap Model.refs).count (made.classAt path) = 1 := by
  rw [makes.refs_perm.count_eq, List.count_append, List.count_eq_zero_of_not_mem unknown,
    List.count_eq_one_of_mem arranged.made_nodup (List.mem_map_of_mem among)]

/-- Every declaration refers only to what is known before it. -/
def RefersBack (path : ModulePath) (known : List ClassRef) : List Model → Prop
  | [] => True
  | model :: rest =>
    model.refs ⊆ known ∧ RefersBack path (known ++ [model.classAt path]) rest

theorem RefersBack.mono {path : ModulePath} {known more : List ClassRef} {models : List Model}
    (settled : RefersBack path known models) (grown : known ⊆ more) :
    RefersBack path more models := by
  induction models generalizing known more with
  | nil => trivial
  | cons model rest ih =>
    exact ⟨List.Subset.trans settled.1 grown,
      ih settled.2 (List.append_subset.mpr
        ⟨List.subset_append_of_subset_left _ grown, List.subset_append_right _ _⟩)⟩

theorem refersBack_append {path : ModulePath} {known : List ClassRef} {first second : List Model} :
    RefersBack path known (first ++ second) ↔ RefersBack path known first ∧
      RefersBack path (known ++ first.map (Model.classAt path)) second := by
  induction first generalizing known with
  | nil => simp [RefersBack]
  | cons model rest ih =>
    rw [List.cons_append, RefersBack, RefersBack, ih, and_assoc, List.map_cons, List.append_assoc,
      List.singleton_append]

theorem refersBack_concat {path : ModulePath} {known : List ClassRef} {first : List Model}
    {last : Model} : RefersBack path known (first ++ [last]) ↔ RefersBack path known first ∧
      last.refs ⊆ known ++ first.map (Model.classAt path) := by
  rw [refersBack_append]
  simp [RefersBack]

theorem RefersBack.refs_subset {path : ModulePath} {known : List ClassRef} {models : List Model}
    (back : RefersBack path known models) :
    models.flatMap Model.refs ⊆ known ++ models.map (Model.classAt path) := by
  induction models generalizing known with
  | nil => exact List.nil_subset _
  | cons model rest ih =>
    rw [List.flatMap_cons, List.map_cons, List.append_cons]
    refine List.append_subset.mpr ⟨fun target referred => ?_, ih back.2⟩
    simp [back.1 referred]

/-- A declaration that is new is not referred to until it has been made. -/
theorem RefersBack.absent {path : ModulePath} {known : List ClassRef} {before : List Model}
    {last : Model} (back : RefersBack path known (before ++ [last]))
    (unknown : last.classAt path ∉ known) (new : last.name ∉ before.map Model.name) :
    last.classAt path ∉ (before ++ [last]).flatMap Model.refs := by
  obtain ⟨back, last_back⟩ := refersBack_concat.mp back
  intro referred
  rw [List.flatMap_append, List.flatMap_singleton] at referred
  have reached : last.classAt path ∈ known ++ before.map (Model.classAt path) :=
    List.append_subset.mpr ⟨back.refs_subset, last_back⟩ referred
  have earlier := (List.mem_append.mp reached).resolve_left unknown
  obtain ⟨other, listed, same⟩ := List.mem_map.mp earlier
  have same_name : other.name = last.name := congrArg ClassRef.name same
  exact new (same_name ▸ List.mem_map_of_mem listed)

theorem InTurn.refersBack {α β : Type} {R : α → List Model → β → Prop} {path : ModulePath}
    {f : α → List ClassRef} {values : List α} {new : List Model} {values' : List β}
    (related : InTurn R values new values')
    (each : ∀ value ∈ values, ∀ new value', R value new value' → RefersBack path (f value) new) :
    RefersBack path (values.flatMap f) new := by
  induction related with
  | nil => trivial
  | cons first others ih =>
    rw [List.flatMap_cons, refersBack_append]
    constructor
    · exact (each _ List.mem_cons_self _ _ first).mono (List.subset_append_left _ _)
    · refine (ih fun value listed => each value (List.mem_cons_of_mem _ listed)).mono ?_
      exact List.subset_append_of_subset_left _ (List.subset_append_right _ _)

theorem InTurn.field_refersBack {path : ModulePath} {fields fields' : List (Field ModelType)}
    {new : List Model} (made : InTurn (MakesField path) fields new fields')
    (each : ∀ field ∈ fields, ∀ new after, Makes path field.type new after →
      RefersBack path field.type.refs new) :
    RefersBack path (ModelType.refsOfFields fields) new := by
  rw [ModelType.refsOfFields_eq]
  refine made.refersBack fun field listed new field' made => ?_
  obtain ⟨type, rfl, made⟩ := made
  exact each field listed new type made

/-- What is left refers to nothing but what was referred to before and what has been made. -/
theorem subset_of_refs_perm {path : ModulePath} {refs refs' : List ClassRef} {new : List Model}
    (moved : (refs' ++ new.flatMap Model.refs).Perm (refs ++ new.map (Model.classAt path))) :
    refs' ⊆ refs ++ new.map (Model.classAt path) :=
  fun _ listed => moved.subset (List.mem_append_left _ listed)

theorem Makes.refersBack {path : ModulePath} {new : List Model} {before after : ModelType}
    (made : Makes path before new after) : RefersBack path before.refs new := by
  induction before generalizing new after with
  | array item ih =>
    obtain ⟨item', rfl, below⟩ := made
    exact ih below
  | map value ih =>
    obtain ⟨value', rfl, below⟩ := made
    exact ih below
  | union members ih =>
    obtain ⟨members', rfl, below⟩ := made
    simp only [ModelType.refs, ModelType.refsOfMembers_eq]
    exact (makesMembers_iff.mp below).refersBack fun member listed new after => ih member listed
  | object model ih =>
    obtain ⟨name, fields, inner, rfl, rfl, below⟩ := made
    have below := makesFields_iff.mp below
    refine refersBack_concat.mpr ⟨?_, ?_⟩
    · exact below.field_refersBack fun field listed new after => ih field listed
    · exact subset_of_refs_perm (below.field_refs_perm fun _ _ _ _ => Makes.refs_perm)
  | enum model =>
    obtain ⟨name, rfl, rfl⟩ := made
    exact ⟨List.nil_subset _, trivial⟩
  | _ =>
    obtain ⟨rfl, rfl⟩ := made
    trivial

theorem MakesModel.refersBack {path : ModulePath} {new : List Model} {before after : Model}
    (made : MakesModel path before new after) :
    RefersBack path before.refs (new ++ [after]) := by
  refine refersBack_concat.mpr ⟨?_, subset_of_refs_perm made.refs_perm⟩
  cases before with
  | object model =>
    obtain ⟨fields, rfl, below⟩ := made
    exact below.field_refersBack fun _ _ _ _ => Makes.refersBack
  | enum model =>
    obtain ⟨rfl, rfl⟩ := made
    trivial
  | «alias» model =>
    obtain ⟨target, rfl, below⟩ := made
    exact below.refersBack

theorem MakesBlocks.refersBack {path : ModulePath} {models : List Model}
    {blocks : List (List Model × Model)} (made : MakesBlocks path models blocks) :
    RefersBack path (models.flatMap Model.refs) (laidOut blocks) := by
  induction made with
  | nil => trivial
  | @cons model block models blocks first others ih =>
    change RefersBack path (model.refs ++ models.flatMap Model.refs)
      (block.1 ++ [block.2] ++ laidOut blocks)
    refine refersBack_append.mpr ⟨first.refersBack.mono (List.subset_append_left _ _), ih.mono ?_⟩
    exact List.subset_append_of_subset_left _ (List.subset_append_right _ _)

end Promotion

namespace Module

open Promotion

/-- A module after promotion, block by block. -/
theorem promoteInline_makes (home : Module) : ∃ blocks,
    home.promoteInline.models = laidOut blocks ∧
      Blocks home.path (home.models.map Model.name) home.models blocks ∧
      MakesBlocks home.path home.models blocks :=
  promoteModels_makes home.path home.models ⟨home.models.map Model.name, []⟩

/-- Nothing that stands inline is left in a module. -/
theorem promoteInline_plain (home : Module) :
    ∀ model ∈ home.promoteInline.models, ∀ type ∈ model.types, type.hasInline = false := by
  intro model present type listed
  obtain ⟨source, related, -⟩ := home.exists_source present
  obtain ⟨before, -, hoisted⟩ := related.types listed
  exact hoisted.hasInline

/-- What a module refers to in its own namespace is declared in it. -/
def Closed (home : Module) : Prop :=
  ∀ model ∈ home.models, ∀ target ∈ model.refs, target.path = home.path →
    target.name ∈ home.models.map Model.name

instance (home : Module) : Decidable home.Closed :=
  inferInstanceAs (Decidable (∀ model ∈ home.models, ∀ target ∈ model.refs,
    target.path = home.path → target.name ∈ home.models.map Model.name))

theorem Closed.unknown {home : Module} (closed : home.Closed) {model : Model}
    (new : model.name ∉ home.models.map Model.name) :
    model.classAt home.path ∉ home.models.flatMap Model.refs := by
  intro known
  obtain ⟨owner, listed, referred⟩ := List.mem_flatMap.mp known
  exact new (closed owner listed _ referred rfl)

end Module

end ResourceModels

import Mathlib
import ResourceModels.Proofs.Sameness

/-!
# Normal forms of types

A type in normal form has no nested unions, no repeated members, no unions of one member and no
names for what stands inline. Joining alternatives opens unions and drops repetitions as well, but
only at one level and with the names still there. A map of types that joins the images of a union's
members does not see whether they were joined before (`JoinsUnions.image_unite`), so it makes no
difference how often types have been joined on the way to their normal form.
-/

namespace ResourceModels

namespace ModelType

/-- The types without those that repeat an earlier one. -/
def dropRepeats (types : List ModelType) : List ModelType := types.foldl pushNew []

/-- A union, or its only member. -/
def ofMembers : List ModelType → ModelType
  | [type] => type
  | members => .union members

theorem unite_eq (types : List ModelType) :
    unite types = ofMembers (dropRepeats (types.flatMap spread)) := by
  unfold unite ofMembers dropRepeats
  generalize (types.flatMap spread).foldl pushNew [] = members
  rcases members with _ | ⟨first, _ | ⟨second, rest⟩⟩ <;> rfl

theorem dropRepeats_concat (types : List ModelType) (type : ModelType) :
    dropRepeats (types ++ [type]) = pushNew (dropRepeats types) type :=
  List.foldl_concat ..

theorem dropRepeats_append (first second : List ModelType) :
    dropRepeats (first ++ second) = second.foldl pushNew (dropRepeats first) :=
  List.foldl_append ..

theorem dropRepeats_subset (types : List ModelType) : dropRepeats types ⊆ types := by
  induction types using List.reverseRecOn with
  | nil => exact List.Subset.refl _
  | append_singleton rest type ih =>
    rw [dropRepeats_concat, pushNew]
    split
    · exact List.subset_append_of_subset_left _ ih
    · exact List.append_subset.mpr ⟨List.subset_append_of_subset_left _ ih,
        List.subset_append_right _ _⟩

theorem pushNew_of_known {types : List ModelType} {type known : ModelType} (listed : known ∈ types)
    (equal : same known type = true) : pushNew types type = types := by
  rw [pushNew, if_pos (List.any_eq_true.mpr ⟨known, listed, equal⟩)]

/-- Types that repeat what is there add nothing. -/
theorem foldl_pushNew_of_known {start types : List ModelType}
    (known : ∀ type ∈ types, ∃ other ∈ start, same other type = true) :
    types.foldl pushNew start = start := by
  induction types with
  | nil => rfl
  | cons type rest ih =>
    obtain ⟨⟨other, listed, equal⟩, known⟩ := List.forall_mem_cons.mp known
    rw [List.foldl_cons, pushNew_of_known listed equal, ih known]

/-- What repeats a type repeats one of those that stay. -/
theorem exists_kept_of_same {start types : List ModelType} {type other : ModelType}
    (listed : type ∈ start ++ types) (equal : same type other = true) :
    ∃ kept ∈ types.foldl pushNew start, same kept other = true := by
  obtain ⟨kept, among, rfl | alike⟩ := exists_kept listed
  · exact ⟨kept, among, equal⟩
  · exact ⟨kept, among, same_trans alike equal⟩

/-- Repetitions may be dropped before. -/
theorem foldl_dropRepeats (start types : List ModelType) :
    (dropRepeats types).foldl pushNew start = types.foldl pushNew start := by
  induction types using List.reverseRecOn with
  | nil => rfl
  | append_singleton rest type ih =>
    rw [dropRepeats_concat, List.foldl_concat, ← ih]
    by_cases known : (dropRepeats rest).any (same · type) = true
    · obtain ⟨other, listed, equal⟩ := List.any_eq_true.mp known
      rw [pushNew_of_known listed equal]
      obtain ⟨kept, among, alike⟩ :=
        exists_kept_of_same (List.mem_append_right start listed) equal
      exact (pushNew_of_known among alike).symm
    · rw [pushNew, if_neg known, List.foldl_concat]

theorem dropRepeats_idem (types : List ModelType) :
    dropRepeats (dropRepeats types) = dropRepeats types :=
  foldl_dropRepeats [] types

/-- Repetitions may be dropped in each part before. -/
theorem dropRepeats_flatMap {α : Type} (parts : α → List ModelType) (items : List α) :
    dropRepeats (items.flatMap fun item => dropRepeats (parts item)) =
      dropRepeats (items.flatMap parts) := by
  induction items using List.reverseRecOn with
  | nil => rfl
  | append_singleton rest item ih =>
    rw [List.flatMap_append, List.flatMap_append, dropRepeats_append, dropRepeats_append, ih,
      List.flatMap_singleton, List.flatMap_singleton, foldl_dropRepeats]

/-- Repetitions may be dropped before types are taken to their parts, if those of the same types
are the same. -/
theorem dropRepeats_flatMap_dropRepeats {parts : ModelType → List ModelType}
    {types : List ModelType}
    (alike : ∀ a ∈ types, ∀ b ∈ types, same a b = true →
      List.Forall₂ (fun a b => same a b = true) (parts a) (parts b)) :
    dropRepeats ((dropRepeats types).flatMap parts) = dropRepeats (types.flatMap parts) := by
  induction types using List.reverseRecOn with
  | nil => rfl
  | append_singleton rest type ih =>
    have ih := ih fun a inside b inside' => alike a (List.mem_append_left _ inside) b
      (List.mem_append_left _ inside')
    rw [dropRepeats_concat, List.flatMap_append, List.flatMap_singleton, dropRepeats_append]
    by_cases known : (dropRepeats rest).any (same · type) = true
    · obtain ⟨other, listed, equal⟩ := List.any_eq_true.mp known
      rw [pushNew_of_known listed equal, ih]
      have other_listed := dropRepeats_subset rest listed
      have parts_alike := alike other (List.mem_append_left _ other_listed) type
        (List.mem_append_right _ (List.mem_singleton.mpr rfl)) equal
      refine (foldl_pushNew_of_known fun part inside => ?_).symm
      obtain ⟨earlier, part_of, equal_part⟩ := exists_left_of_forall₂ parts_alike inside
      have inside_rest : earlier ∈ [] ++ rest.flatMap parts :=
        List.mem_flatMap.mpr ⟨other, other_listed, part_of⟩
      exact exists_kept_of_same inside_rest equal_part
    · rw [pushNew, if_neg known, List.flatMap_append, List.flatMap_singleton, dropRepeats_append,
        ih]

/-- The type is not changed by being joined, alone or as a part. -/
structure Joined (type : ModelType) : Prop where
  flat : ∀ part ∈ type.spread, part.spread = [part]
  distinct : dropRepeats type.spread = type.spread
  alone : ofMembers type.spread = type

theorem joined_of_spread {type : ModelType} (whole : type.spread = [type]) : Joined type := by
  refine ⟨fun part inside => ?_, by rw [whole]; rfl, by rw [whole]; rfl⟩
  rw [whole] at inside
  rw [List.mem_singleton.mp inside, whole]

theorem spread_ofMembers {members : List ModelType}
    (flat : ∀ member ∈ members, member.spread = [member]) :
    (ofMembers members).spread = members := by
  unfold ofMembers
  split
  next type => exact flat type (List.mem_singleton.mpr rfl)
  next => rfl

variable {types : List ModelType}

theorem spread_unite (joined : ∀ type ∈ types, Joined type) :
    (unite types).spread = dropRepeats (types.flatMap spread) := by
  rw [unite_eq]
  refine spread_ofMembers fun part inside => ?_
  obtain ⟨type, listed, part_of⟩ := List.mem_flatMap.mp (dropRepeats_subset _ inside)
  exact (joined type listed).flat part part_of

theorem joined_unite (joined : ∀ type ∈ types, Joined type) : Joined (unite types) := by
  have parts := spread_unite joined
  refine ⟨fun part inside => ?_, ?_, ?_⟩
  · rw [parts] at inside
    obtain ⟨type, listed, part_of⟩ := List.mem_flatMap.mp (dropRepeats_subset _ inside)
    exact (joined type listed).flat part part_of
  · rw [parts, dropRepeats_idem]
  · rw [parts, ← unite_eq]

/-- A map of types that joins the images of a union's members. Types in `P` that are the same have
the same images. -/
structure JoinsUnions (P : ModelType → Prop) (image : ModelType → ModelType) : Prop where
  union : ∀ members, image (.union members) = unite (members.map image)
  joined : ∀ type, Joined (image type)
  respects : ∀ a b, P a → P b → same a b = true → same (image a) (image b) = true

namespace JoinsUnions

variable {P : ModelType → Prop} {image : ModelType → ModelType}

theorem spread_image (joins : JoinsUnions P image) (type : ModelType) :
    (image type).spread = dropRepeats (type.spread.flatMap fun part => (image part).spread) := by
  obtain ⟨members, rfl⟩ | whole := type.spread_cases
  · have all_joined : ∀ type ∈ members.map image, Joined type := by
      intro type listed
      obtain ⟨member, -, rfl⟩ := List.mem_map.mp listed
      exact joins.joined member
    rw [joins.union, spread_unite all_joined, List.flatMap_map]
    rfl
  · rw [whole, List.flatMap_singleton, (joins.joined type).distinct]

theorem image_ofMembers (joins : JoinsUnions P image) (members : List ModelType) :
    image (ofMembers members) =
      ofMembers (dropRepeats (members.flatMap fun part => (image part).spread)) := by
  have of_union : image (.union members) =
      ofMembers (dropRepeats (members.flatMap fun part => (image part).spread)) := by
    rw [joins.union, unite_eq, List.flatMap_map]
  rcases members with _ | ⟨type, _ | ⟨next, rest⟩⟩
  · exact of_union
  · have joined := joins.joined type
    rw [List.flatMap_singleton, joined.distinct, joined.alone]
    rfl
  · exact of_union

/-- Joining types first makes no difference to their image. -/
theorem image_unite (joins : JoinsUnions P image)
    (within : ∀ type ∈ types, ∀ part ∈ type.spread, P part) :
    image (unite types) = unite (types.map image) := by
  have all_within : ∀ part ∈ types.flatMap spread, P part := by
    intro part inside
    obtain ⟨type, listed, part_of⟩ := List.mem_flatMap.mp inside
    exact within type listed part part_of
  calc image (unite types)
      = ofMembers (dropRepeats ((dropRepeats (types.flatMap spread)).flatMap
          fun part => (image part).spread)) := by rw [unite_eq, joins.image_ofMembers]
    _ = ofMembers (dropRepeats ((types.flatMap spread).flatMap
          fun part => (image part).spread)) := by
        rw [dropRepeats_flatMap_dropRepeats fun a inside b inside' equal =>
          forall₂_spread (joins.respects a b (all_within a inside) (all_within b inside') equal)]
    _ = ofMembers (dropRepeats (types.flatMap fun type => (image type).spread)) := by
        rw [List.flatMap_assoc, ← dropRepeats_flatMap]
        simp only [← joins.spread_image]
    _ = unite (types.map image) := by rw [unite_eq, List.flatMap_map]

end JoinsUnions

mutual

/-- Unions are joined with everything below them, and what stands inline loses its name. -/
def normal : ModelType → ModelType
  | .array item => .array item.normal
  | .map value => .map value.normal
  | .union members => unite (normalMembers members)
  | .object model => .object ⟨"", model.description, normalFields model.fields⟩
  | .enum model => .enum { model with name := "" }
  | type => type

def normalMembers : List ModelType → List ModelType
  | [] => []
  | member :: rest => member.normal :: normalMembers rest

def normalFields : List (Field ModelType) → List (Field ModelType)
  | [] => []
  | field :: rest => { field with type := field.type.normal } :: normalFields rest

end

theorem normalMembers_eq (members : List ModelType) :
    normalMembers members = members.map normal := by
  induction members with
  | nil => rfl
  | cons member rest ih => rw [normalMembers, ih, List.map_cons]

theorem normalFields_eq (fields : List (Field ModelType)) :
    normalFields fields = fields.map fun field => { field with type := field.type.normal } := by
  induction fields with
  | nil => rfl
  | cons field rest ih => rw [normalFields, ih, List.map_cons]

theorem normal_union (members : List ModelType) :
    normal (.union members) = unite (members.map normal) := by
  rw [normal, normalMembers_eq]

theorem joined_normal (type : ModelType) : Joined type.normal := by
  induction type with
  | union members ih =>
    rw [normal_union]
    refine joined_unite fun type listed => ?_
    obtain ⟨member, inside, rfl⟩ := List.mem_map.mp listed
    exact ih member inside
  | _ => exact joined_of_spread rfl

theorem settled_of_mem_spread {type part : ModelType} (settled : type.Settled)
    (inside : part ∈ type.spread) : part.Settled := by
  obtain ⟨members, rfl⟩ | whole := type.spread_cases
  · exact settled_union_iff.mp settled part inside
  · rw [whole] at inside
    exact List.mem_singleton.mp inside ▸ settled

theorem settled_unite (settled : ∀ type ∈ types, type.Settled) : (unite types).Settled := by
  have parts : ∀ part ∈ dropRepeats (types.flatMap spread), part.Settled := by
    intro part inside
    obtain ⟨type, listed, part_of⟩ := List.mem_flatMap.mp (dropRepeats_subset _ inside)
    exact settled_of_mem_spread (settled type listed) part_of
  rw [unite_eq]
  unfold ofMembers
  split
  next type single => exact parts type (single ▸ List.mem_singleton.mpr rfl)
  next => exact settled_union_iff.mpr parts

theorem settled_normal {type : ModelType} (settled : type.Settled) : type.normal.Settled := by
  induction type with
  | array item ih => exact ih settled
  | map value ih => exact ih settled
  | union members ih =>
    rw [normal_union]
    refine settled_unite fun type listed => ?_
    obtain ⟨member, inside, rfl⟩ := List.mem_map.mp listed
    exact ih member inside (settled_union_iff.mp settled member inside)
  | object model ih =>
    rw [normal, normalFields_eq]
    refine settled_object_iff.mpr fun field listed => ?_
    obtain ⟨before, inside, rfl⟩ := List.mem_map.mp listed
    exact (settled_object_iff.mp settled before inside).imp_left (ih before inside)
  | _ => trivial

section

variable {first second start start' : List ModelType}

/-- Both lists drop the same members. -/
theorem forall₂_foldl_pushNew (alike : List.Forall₂ (fun a b => same a b = true) start start')
    (equal : List.Forall₂ (fun a b => same a b = true) first second)
    (settled : ∀ type ∈ start ++ first, type.Settled)
    (settled' : ∀ type ∈ start' ++ second, type.Settled) :
    List.Forall₂ (fun a b => same a b = true) (first.foldl pushNew start)
      (second.foldl pushNew start') := by
  induction equal generalizing start start' with
  | nil => exact alike
  | @cons a b rest rest' head _ ih =>
    have known_iff : start.any (same · a) = start'.any (same · b) := by
      rw [Bool.eq_iff_iff, List.any_eq_true, List.any_eq_true]
      have both : List.Forall₂ (fun x y => same x a = true ↔ same y b = true) start start' := by
        refine forall₂_imp_of_members alike fun x inside y inside' xy => ?_
        have yx := same_symm (settled x (by simp [inside])) (settled' y (by simp [inside'])) xy
        have ba := same_symm (settled a (by simp)) (settled' b (by simp)) head
        exact ⟨fun xa => same_trans (same_trans yx xa) head,
          fun yb => same_trans (same_trans xy yb) ba⟩
      constructor
      · rintro ⟨x, inside, known⟩
        obtain ⟨y, inside', same_known⟩ := exists_right_of_forall₂ both inside
        exact ⟨y, inside', same_known.mp known⟩
      · rintro ⟨y, inside', known⟩
        obtain ⟨x, inside, same_known⟩ := exists_left_of_forall₂ both inside'
        exact ⟨x, inside, same_known.mpr known⟩
    rw [List.foldl_cons, List.foldl_cons]
    by_cases known : start.any (same · a) = true
    · rw [pushNew, if_pos known, pushNew, if_pos (known_iff ▸ known)]
      refine ih alike (fun type listed => settled type ?_) fun type listed => settled' type ?_
      all_goals
        rw [List.mem_append] at listed ⊢
        exact listed.imp_right (List.mem_cons_of_mem _)
    · rw [pushNew, if_neg known, pushNew, if_neg (known_iff ▸ known)]
      refine ih (List.rel_append alike (.cons head .nil)) ?_ ?_
      · rwa [List.append_assoc]
      · rwa [List.append_assoc]

theorem same_unite (equal : List.Forall₂ (fun a b => same a b = true) first second)
    (settled : ∀ type ∈ first, type.Settled) (settled' : ∀ type ∈ second, type.Settled) :
    same (unite first) (unite second) = true := by
  have parts : List.Forall₂ (fun a b => same a b = true) (first.flatMap spread)
      (second.flatMap spread) := by
    induction equal with
    | nil => exact .nil
    | cons head _ ih =>
      obtain ⟨-, settled⟩ := List.forall_mem_cons.mp settled
      obtain ⟨-, settled'⟩ := List.forall_mem_cons.mp settled'
      exact List.rel_append (forall₂_spread head) (ih settled settled')
  have settled_parts : ∀ types : List ModelType, (∀ type ∈ types, type.Settled) →
      ∀ part ∈ [] ++ types.flatMap spread, part.Settled := by
    intro types settled part inside
    obtain ⟨type, listed, part_of⟩ := List.mem_flatMap.mp inside
    exact settled_of_mem_spread (settled type listed) part_of
  have kept : List.Forall₂ (fun a b => same a b = true) (dropRepeats (first.flatMap spread))
      (dropRepeats (second.flatMap spread)) :=
    forall₂_foldl_pushNew .nil parts (settled_parts first settled) (settled_parts second settled')
  rw [unite_eq, unite_eq]
  generalize dropRepeats (first.flatMap spread) = members at kept
  generalize dropRepeats (second.flatMap spread) = others at kept
  unfold ofMembers
  match members, others, kept with
  | [], _, .nil => rfl
  | [_], _, .cons head .nil => exact head
  | _ :: _ :: _, _, .cons head (.cons next rest) =>
    exact sameMembers_iff.mpr (.cons head (.cons next rest))

end

theorem same_normal {first second : ModelType} (settled : first.Settled)
    (settled' : second.Settled) (equal : same first second = true) :
    same first.normal second.normal = true := by
  induction first generalizing second with
  | array item ih =>
    cases second <;> simp only [same, Bool.false_eq_true] at equal
    exact ih settled settled' equal
  | map value ih =>
    cases second <;> simp only [same, Bool.false_eq_true] at equal
    exact ih settled settled' equal
  | union members ih =>
    cases second <;> simp only [same, Bool.false_eq_true] at equal
    rw [settled_union_iff] at settled settled'
    rw [normal_union, normal_union]
    have members_same := sameMembers_iff.mp equal
    refine same_unite (List.forall₂_map_left_iff.mpr (List.forall₂_map_right_iff.mpr ?_)) ?_ ?_
    · exact forall₂_imp_of_members members_same fun a inside b inside' =>
        ih a inside (settled a inside) (settled' b inside')
    all_goals
      intro type listed
      obtain ⟨member, inside, rfl⟩ := List.mem_map.mp listed
    · exact settled_normal (settled member inside)
    · exact settled_normal (settled' member inside)
  | object model ih =>
    cases second <;> simp only [same, Bool.false_eq_true, Bool.and_eq_true, decide_eq_true_eq]
      at equal
    rw [settled_object_iff] at settled settled'
    rw [normal, normal, normalFields_eq, normalFields_eq]
    simp only [same, Bool.and_eq_true, decide_eq_true_eq, true_and]
    refine ⟨equal.1.2, sameFields_iff.mpr ?_⟩
    refine List.forall₂_map_left_iff.mpr (List.forall₂_map_right_iff.mpr ?_)
    refine forall₂_imp_of_members (sameFields_iff.mp equal.2) fun a inside b inside' alike => ?_
    have types := ih a inside (settled a inside).1 (settled' b inside').1 alike.type
    exact { alike with type := types }
  | enum model =>
    cases second <;> simp only [same, Bool.false_eq_true, decide_eq_true_eq] at equal
    subst equal
    simp [normal, same]
  | _ => cases second <;> simp_all [same, normal]

mutual

/-- Replace every reference by what it stands for. -/
def substitute (value : ClassRef → ModelType) : ModelType → ModelType
  | .ref target => value target
  | .array item => .array (item.substitute value)
  | .map below => .map (below.substitute value)
  | .union members => .union (substituteMembers value members)
  | .object model =>
    .object ⟨model.name, model.description, substituteFields value model.fields⟩
  | type => type

def substituteMembers (value : ClassRef → ModelType) : List ModelType → List ModelType
  | [] => []
  | member :: rest => member.substitute value :: substituteMembers value rest

def substituteFields (value : ClassRef → ModelType) :
    List (Field ModelType) → List (Field ModelType)
  | [] => []
  | field :: rest =>
    { field with type := field.type.substitute value } :: substituteFields value rest

end

variable {value : ClassRef → ModelType}

theorem substituteMembers_eq (members : List ModelType) :
    substituteMembers value members = members.map (substitute value) := by
  induction members with
  | nil => rfl
  | cons member rest ih => rw [substituteMembers, ih, List.map_cons]

theorem substituteFields_eq (fields : List (Field ModelType)) :
    substituteFields value fields =
      fields.map fun field => { field with type := field.type.substitute value } := by
  induction fields with
  | nil => rfl
  | cons field rest ih => rw [substituteFields, ih, List.map_cons]

/-- Every reference standing for itself changes nothing. -/
theorem substitute_ref (type : ModelType) : type.substitute .ref = type := by
  induction type with
  | array item ih => rw [substitute, ih]
  | map below ih => rw [substitute, ih]
  | union members ih =>
    have same_members : members.map (substitute .ref) = members :=
      (List.map_congr_left ih).trans (List.map_id members)
    rw [substitute, substituteMembers_eq, same_members]
  | object model ih =>
    obtain ⟨name, description, fields⟩ := model
    have same_fields : (fields.map fun field => { field with type := field.type.substitute .ref }) =
        fields := by
      refine (List.map_congr_left fun field inside => ?_).trans (List.map_id fields)
      rw [ih field inside]
      rfl
    rw [substitute, substituteFields_eq, same_fields]
  | _ => rfl

/-- Only the references in the type matter. -/
theorem substitute_congr {other : ClassRef → ModelType} {type : ModelType}
    (alike : ∀ target ∈ type.refs, value target = other target) :
    type.substitute value = type.substitute other := by
  induction type with
  | array item ih => exact congrArg ModelType.array (ih alike)
  | map below ih => exact congrArg ModelType.map (ih alike)
  | ref target => exact alike target (List.mem_singleton.mpr rfl)
  | union members ih =>
    rw [substitute, substitute, substituteMembers_eq, substituteMembers_eq]
    refine congrArg ModelType.union (List.map_congr_left fun member inside => ?_)
    exact ih member inside fun target listed =>
      alike target (mem_refsOfMembers.mpr ⟨member, inside, listed⟩)
  | object model ih =>
    have fields :
        (model.fields.map fun field => { field with type := field.type.substitute value }) =
        model.fields.map fun field => { field with type := field.type.substitute other } := by
      refine List.map_congr_left fun field inside => ?_
      rw [ih field inside fun target listed =>
        alike target (mem_refsOfFields.mpr ⟨field, inside, listed⟩)]
    rw [substitute, substitute, substituteFields_eq, substituteFields_eq, fields]
  | _ => rfl

/-- What a reference stands for when `next` says what the references to be replaced lead to. -/
def Follows (next : ClassRef → Option ModelType) (value : ClassRef → ModelType) : Prop :=
  ∀ target, value target =
    match next target with
    | some type => type.substitute value
    | none => .ref target

/-- References that do not lead back to themselves can be replaced through and through, in one way
only. -/
theorem existsUnique_follows {next : ClassRef → Option ModelType}
    (grounded : WellFounded fun below target =>
      (next below).isSome ∧ ∃ type, next target = some type ∧ below ∈ type.refs) :
    ∃! value, Follows next value := by
  classical
  let value : ClassRef → ModelType := grounded.fix fun target below =>
    match next target with
    | some type => type.substitute fun other =>
        if earlier : (next other).isSome ∧ ∃ type, next target = some type ∧ other ∈ type.refs
        then below other earlier else .ref other
    | none => .ref target
  have unfold_value : ∀ target, value target =
      match next target with
      | some type => type.substitute fun other =>
          if (next other).isSome ∧ ∃ type, next target = some type ∧ other ∈ type.refs
          then value other else .ref other
      | none => .ref target := by
    intro target
    exact grounded.fix_eq _ target
  refine ⟨value, fun target => ?_, fun other follows => funext fun target => ?_⟩
  · rw [unfold_value target]
    cases leads : next target with
    | none => rfl
    | some type =>
      refine substitute_congr fun below listed => ?_
      by_cases further : (next below).isSome = true
      · rw [if_pos ⟨further, type, rfl, listed⟩]
      · rw [if_neg fun both => further both.1, unfold_value below,
          Option.not_isSome_iff_eq_none.mp further]
  · induction target using grounded.induction with
    | h target ih =>
      rw [follows target, unfold_value target]
      cases leads : next target with
      | none => rfl
      | some type =>
        refine substitute_congr fun below listed => ?_
        by_cases further : (next below).isSome = true
        · rw [if_pos ⟨further, type, rfl, listed⟩]
          exact ih below ⟨further, type, leads, listed⟩
        · rw [if_neg fun both => further both.1, follows below,
            Option.not_isSome_iff_eq_none.mp further]

theorem same_substitute {first second : ModelType} (settled : (first.substitute value).Settled)
    (equal : same first second = true) :
    same (first.substitute value) (second.substitute value) = true := by
  induction first generalizing second with
  | array item ih =>
    cases second <;> simp only [same, Bool.false_eq_true] at equal
    exact ih settled equal
  | map below ih =>
    cases second <;> simp only [same, Bool.false_eq_true] at equal
    exact ih settled equal
  | ref target =>
    cases second <;> simp only [same, Bool.false_eq_true, decide_eq_true_eq] at equal
    subst equal
    exact same_refl settled
  | union members ih =>
    cases second <;> simp only [same, Bool.false_eq_true] at equal
    rw [substitute, substituteMembers_eq, settled_union_iff] at settled
    rw [substitute, substitute, substituteMembers_eq, substituteMembers_eq, same, sameMembers_iff]
    refine List.forall₂_map_left_iff.mpr (List.forall₂_map_right_iff.mpr ?_)
    exact forall₂_imp_of_mem (sameMembers_iff.mp equal) fun a inside b =>
      ih a inside (settled _ (List.mem_map_of_mem inside))
  | object model ih =>
    cases second <;> simp only [same, Bool.false_eq_true, Bool.and_eq_true, decide_eq_true_eq]
      at equal
    rw [substitute, substituteFields_eq, settled_object_iff] at settled
    rw [substitute, substitute, substituteFields_eq, substituteFields_eq]
    simp only [same, Bool.and_eq_true, decide_eq_true_eq]
    refine ⟨equal.1, sameFields_iff.mpr ?_⟩
    refine List.forall₂_map_left_iff.mpr (List.forall₂_map_right_iff.mpr ?_)
    refine forall₂_imp_of_mem (sameFields_iff.mp equal.2) fun a inside b alike => ?_
    have types := ih a inside (settled _ (List.mem_map_of_mem inside)).1 alike.type
    exact { alike with type := types }
  | _ => cases second <;> simp_all [same, substitute]

theorem joinsUnions_substitute (value : ClassRef → ModelType) :
    JoinsUnions (fun type => (type.substitute value).Settled)
      fun type => (type.substitute value).normal where
  union members := by
    rw [substitute, substituteMembers_eq, normal_union, List.map_map]
    rfl
  joined _ := joined_normal _
  respects a b settled settled' equal :=
    same_normal settled settled' (same_substitute settled equal)

theorem settled_substitute_of_mem_spread {type part : ModelType}
    (settled : (type.substitute value).Settled) (inside : part ∈ type.spread) :
    (part.substitute value).Settled := by
  obtain ⟨members, rfl⟩ | alone := type.spread_cases
  · rw [substitute, substituteMembers_eq, settled_union_iff] at settled
    exact settled _ (List.mem_map_of_mem inside)
  · rw [alone] at inside
    exact List.mem_singleton.mp inside ▸ settled

theorem settled_substitute_unite (settled : ∀ type ∈ types, (type.substitute value).Settled) :
    ((unite types).substitute value).Settled := by
  have parts : ∀ part ∈ dropRepeats (types.flatMap spread), (part.substitute value).Settled := by
    intro part inside
    obtain ⟨type, listed, part_of⟩ := List.mem_flatMap.mp (dropRepeats_subset _ inside)
    exact settled_substitute_of_mem_spread (settled type listed) part_of
  rw [unite_eq]
  unfold ofMembers
  split
  next type single => exact parts type (single ▸ List.mem_singleton.mpr rfl)
  next =>
    rw [substitute, substituteMembers_eq, settled_union_iff]
    intro member listed
    obtain ⟨part, inside, rfl⟩ := List.mem_map.mp listed
    exact parts part inside

theorem substitute_ofScalar (shape : ScalarShape) :
    (ofScalar shape).substitute value = ofScalar shape := by
  unfold ofScalar
  split
  · split <;> rfl
  all_goals rfl

/-- The normal form of joined types, where references are replaced. -/
theorem normal_substitute_unite (settled : ∀ type ∈ types, (type.substitute value).Settled) :
    ((unite types).substitute value).normal =
      unite (types.map fun type => (type.substitute value).normal) :=
  (joinsUnions_substitute value).image_unite fun type listed _ inside =>
    settled_substitute_of_mem_spread (settled type listed) inside

theorem normal_unite (settled : ∀ type ∈ types, type.Settled) :
    (unite types).normal = unite (types.map normal) := by
  have joined := @normal_substitute_unite types .ref fun type listed => by
    rw [substitute_ref]
    exact settled type listed
  simpa only [substitute_ref] using joined

end ModelType

end ResourceModels

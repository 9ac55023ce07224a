import Mathlib
import ResourceModels.Json.Parser
import ResourceModels.Schema.Decoding
import ResourceModels.Proofs.Nodes
import ResourceModels.Proofs.Sameness
import ResourceModels.Proofs.Steps

/-!
# Decoded schemas are sound

Decoding a schema takes the defaults of its nodes from the value it reads, and makes no union
without variants. Both hold at every node, whatever the keywords around it (`sound_of_ofJson?`). No
object in a value that has been read gives a key twice, so the defaults of decoded nodes are settled
(`settled_of_ofJson?`).
-/

namespace ResourceModels

namespace Json

theorem settledItems_eq (items : List Json) : settledItems items = items.map settled := by
  induction items with
  | nil => rfl
  | cons item rest ih => rw [settledItems, ih, List.map_cons]

theorem settledMembers_eq (members : List (String × Json)) :
    settledMembers members = members.map fun member => (member.1, member.2.settled) := by
  induction members with
  | nil => rfl
  | cons member rest ih => rw [settledMembers, ih, List.map_cons]

theorem settled_settled (value : Json) : value.settled.Settled := by
  induction value with
  | null => exact .null
  | bool value => exact .bool value
  | number value => exact .number value
  | string text => exact .string text
  | array items ih =>
    rw [settled, settledItems_eq]
    exact .array _ (List.forall_mem_map.mpr ih)
  | object members ih =>
    rw [settled, settledMembers_eq]
    refine .object _ ?_ fun member inside => ?_
    · have none_yet : (Entries.keys ([] : Entries String Json)).Nodup := List.nodup_nil
      rw [Entries.ofList, Entries.keys_insertAll none_yet]
      exact nodup_eraseDups _
    · obtain known | listed := Entries.mem_insertAll inside
      · cases known
      · obtain ⟨source, among, rfl⟩ := List.mem_map.mp listed
        exact ih source among

/-- A value that is read from a text is settled. -/
theorem settled_of_ofChars? {text : List Char} {value : Json} (read : ofChars? text = some value) :
    value.Settled := by
  obtain ⟨written, -, rfl⟩ := Option.map_eq_some_iff.mp read
  exact settled_settled written

/-- What holds of a value holds of everything in it. -/
structure Hereditary (D : Json → Prop) : Prop where
  item : ∀ items, D (.array items) → ∀ item ∈ items, D item
  member : ∀ members, D (.object members) → ∀ member ∈ members, D member.2

theorem hereditary_settled : Hereditary Settled where
  item := by
    rintro items ⟨⟩
    assumption
  member := by
    rintro members ⟨⟩
    assumption

end Json

variable {D : Json → Prop}

namespace Node

/-- The defaults in the node and below it are settled. -/
def Settled (node : Node) : Prop := ∀ value ∈ node.defaults, value.Settled

theorem Settled.of_postorder {node whole : Node} (settled : whole.Settled)
    (below : node.postorder ⊆ whole.postorder) : node.Settled :=
  fun value listed => settled value (defaults_subset below listed)

/-- The node is no union without variants, and its default is in `D`. -/
def Proper (D : Json → Prop) (node : Node) : Prop :=
  node.kind ≠ .union [] ∧ ∀ value, node.notes.default = some value → D value

/-- So are all nodes here and below. -/
def Sound (D : Json → Prop) (node : Node) : Prop := ∀ below ∈ node.postorder, below.Proper D

theorem Sound.of_postorder {node whole : Node} (sound : whole.Sound D)
    (below : node.postorder ⊆ whole.postorder) : node.Sound D :=
  fun inner listed => sound inner (below listed)

theorem Sound.settled {node : Node} (sound : node.Sound Json.Settled) : node.Settled := by
  intro value listed
  obtain ⟨below, inside, noted⟩ := List.mem_filterMap.mp listed
  exact (sound below inside).2 value noted

theorem Sound.branches {node : Node} (sound : node.Sound D) : node.Branches 1 := by
  intro below listed variants kind
  refine List.length_pos_iff.mpr fun empty => (sound below listed).1 ?_
  rw [kind, empty]

/-- A node of this shape is sound if its own default is in `D`. -/
structure KindSound (D : Json → Prop) (kind : Kind Node) : Prop where
  filled : kind ≠ .union []
  below : ∀ node ∈ belowKind kind, node.Proper D

theorem sound_iff {kind : Kind Node} {notes : Notes} :
    Sound D ⟨kind, notes⟩ ↔
      KindSound D kind ∧ ∀ value, notes.default = some value → D value := by
  simp only [Sound, postorder, List.forall_mem_append, List.forall_mem_singleton]
  constructor
  · rintro ⟨below, filled, own⟩
    exact ⟨⟨filled, below⟩, own⟩
  · rintro ⟨⟨filled, below⟩, own⟩
    exact ⟨below, filled, own⟩

theorem Sound.kind {node : Node} (sound : node.Sound D) : KindSound D node.kind := by
  obtain ⟨kind, notes⟩ := node
  exact (sound_iff.mp sound).1

theorem Sound.default {node : Node} (sound : node.Sound D) (value : Json)
    (noted : node.notes.default = some value) : D value :=
  (sound node (mem_postorder_self node)).2 value noted

theorem mem_belowProperties {properties : List (String × Node)} {node : Node} :
    node ∈ belowProperties properties ↔
      ∃ property ∈ properties, node ∈ property.2.postorder := by
  induction properties with
  | nil => simp [belowProperties]
  | cons property rest ih =>
    obtain ⟨name, value⟩ := property
    rw [belowProperties, List.mem_append, ih]
    simp

theorem mem_belowVariants {variants : List Node} {node : Node} :
    node ∈ belowVariants variants ↔ ∃ variant ∈ variants, node ∈ variant.postorder := by
  induction variants with
  | nil => simp [belowVariants]
  | cons variant rest ih =>
    rw [belowVariants, List.mem_append, ih]
    simp

theorem kindSound_object {shape : ObjectShape Node}
    (properties : ∀ property ∈ shape.properties, property.2.Sound D)
    (additional : ∀ node, shape.additional = some node → node.Sound D) :
    KindSound D (.object shape) := by
  refine ⟨nofun, fun node below => ?_⟩
  rw [belowKind, List.mem_append] at below
  rcases below with below | below
  · obtain ⟨property, listed, inside⟩ := mem_belowProperties.mp below
    exact properties property listed node inside
  · cases given : shape.additional with
    | none =>
      rw [given] at below
      cases below
    | some value =>
      rw [given] at below
      exact additional value given node below

theorem kindSound_array {items : Node} (sound : items.Sound D) : KindSound D (.array items) := by
  refine ⟨nofun, fun node below => ?_⟩
  rw [belowKind] at below
  exact sound node below

theorem kindSound_union {variants : List Node} (some_variants : variants ≠ [])
    (sound : ∀ variant ∈ variants, variant.Sound D) : KindSound D (.union variants) := by
  refine ⟨fun empty => some_variants (Kind.union.inj empty), fun node below => ?_⟩
  rw [belowKind] at below
  obtain ⟨variant, listed, inside⟩ := mem_belowVariants.mp below
  exact sound variant listed node inside

theorem kindSound_scalar (shape : ScalarShape) : KindSound D (.scalar shape) :=
  ⟨nofun, List.forall_mem_nil _⟩

theorem kindSound_reference (path : String) : KindSound D (.reference path) :=
  ⟨nofun, List.forall_mem_nil _⟩

theorem kindSound_any : KindSound D .any :=
  ⟨nofun, List.forall_mem_nil _⟩

theorem sound_bare {kind : Kind Node} (sound : KindSound D kind) : (bare kind).Sound D :=
  sound_iff.mpr ⟨sound, fun _ noted => nomatch noted⟩

theorem Sound.properties {shape : ObjectShape Node} {notes : Notes}
    (sound : Sound D ⟨.object shape, notes⟩) : ∀ property ∈ shape.properties,
      property.2.Sound D :=
  fun _ inside => sound.of_postorder (postorder_property inside)

theorem Sound.additional {shape : ObjectShape Node} {notes : Notes}
    (sound : Sound D ⟨.object shape, notes⟩) (node : Node)
    (given : shape.additional = some node) : node.Sound D :=
  sound.of_postorder (postorder_additional given)

end Node

namespace Keywords

open Node

/-- Every node among the keywords is sound, and the default is in `D`. -/
structure Sound (D : Json → Prop) (keywords : Keywords) : Prop where
  default : ∀ value, keywords.default = some value → D value
  properties : ∀ property ∈ keywords.properties, property.2.Sound D
  additional : ∀ node, keywords.additional = some (.schema node) → node.Sound D
  items : ∀ node, keywords.items = some node → node.Sound D
  allOf : ∀ node ∈ keywords.allOf, node.Sound D
  oneOf : ∀ node ∈ keywords.oneOf, node.Sound D
  anyOf : ∀ node ∈ keywords.anyOf, node.Sound D

theorem sound_empty : Sound D {} where
  default := fun _ absent => nomatch absent
  properties := List.forall_mem_nil _
  additional := fun _ absent => nomatch absent
  items := fun _ absent => nomatch absent
  allOf := List.forall_mem_nil _
  oneOf := List.forall_mem_nil _
  anyOf := List.forall_mem_nil _

variable {keywords : Keywords}

theorem Sound.kindOfType (sound : keywords.Sound D) (type : TypeName) :
    KindSound D (keywords.kindOfType type) := by
  cases type with
  | array =>
    refine kindSound_array ?_
    cases given : keywords.items with
    | none => exact sound_bare kindSound_any
    | some node => exact sound.items node given
  | object =>
    refine kindSound_object sound.properties fun node given => ?_
    unfold additionalNode at given
    split at given
    next node' same =>
      cases given
      exact sound.additional node same
    next =>
      cases given
      exact sound_bare kindSound_any
    all_goals cases given
  | other => exact kindSound_any
  | _ => exact kindSound_scalar _

theorem Sound.kindOfTypes (sound : keywords.Sound D) (names : List TypeName) :
    KindSound D (keywords.kindOfTypes names).1 := by
  unfold Keywords.kindOfTypes
  dsimp only
  split
  next => exact sound.kindOfType .null
  next name _ => exact sound.kindOfType name
  next several _ =>
    refine kindSound_union (by simpa using several) fun variant listed => ?_
    obtain ⟨name, -, rfl⟩ := List.mem_map.mp listed
    exact sound_bare (sound_empty.kindOfType name)

theorem Sound.kindWithoutType (sound : keywords.Sound D) :
    KindSound D keywords.kindWithoutType := by
  unfold Keywords.kindWithoutType
  split
  · exact sound.kindOfType .object
  split
  · exact sound.kindOfType .array
  split
  · exact sound.kindOfType .string
  · exact kindSound_any

/-- Joined objects have no other properties than the objects. -/
theorem kindSound_merged {shapes : List (ObjectShape Node)} {start : ObjectShape Node}
    (start_sound : KindSound D (.object start))
    (each : ∀ shape ∈ shapes, KindSound D (.object shape)) :
    KindSound D (.object (shapes.foldl ObjectShape.merge start)) := by
  induction shapes generalizing start with
  | nil => exact start_sound
  | cons shape rest ih =>
    obtain ⟨shape_sound, rest_sound⟩ := List.forall_mem_cons.mp each
    refine ih ?_ rest_sound
    have first := sound_bare start_sound
    have second := sound_bare shape_sound
    refine kindSound_object (fun property inside => ?_) fun node given => ?_
    · obtain known | listed := Entries.mem_insertAll inside
      · exact first.properties property known
      · exact second.properties property listed
    · change shape.additional.or start.additional = some node at given
      obtain own | ⟨-, earlier⟩ := Option.or_eq_some_iff.mp given
      · exact second.additional node own
      · exact first.additional node earlier

theorem kindSound_conjunction {members : List Node} (sound : ∀ node ∈ members, node.Sound D) :
    KindSound D (conjunction members) := by
  have shape_sound : ∀ shape ∈ members.filterMap Node.object?, KindSound D (.object shape) := by
    intro shape listed
    obtain ⟨⟨kind, notes⟩, among, found⟩ := List.mem_filterMap.mp listed
    cases kind with
    | object own =>
      cases found
      exact (sound _ among).kind
    | _ => cases found
  unfold conjunction
  split
  next =>
    cases members with
    | nil => exact kindSound_any
    | cons first rest => exact (sound first List.mem_cons_self).kind
  next =>
    refine kindSound_merged (kindSound_object ?_ ?_) shape_sound
    · exact List.forall_mem_nil _
    · exact fun _ absent => nomatch absent

theorem Sound.kind (sound : keywords.Sound D) (extensions : Extensions) :
    KindSound D (keywords.kind extensions).1 := by
  unfold Keywords.kind
  split
  · exact kindSound_reference _
  split
  · refine kindSound_union (List.cons_ne_nil _ _) fun variant listed => ?_
    simp only [List.mem_cons, List.not_mem_nil, or_false] at listed
    obtain rfl | rfl := listed <;> exact sound_bare (kindSound_scalar _)
  split
  next given => exact kindSound_union (by simpa using given) sound.oneOf
  split
  next given => exact kindSound_union (by simpa using given) sound.anyOf
  split
  · exact kindSound_conjunction sound.allOf
  split
  · exact sound.kindOfType _
  · exact sound.kindOfTypes _
  · exact sound.kindWithoutType

theorem Sound.toNode (sound : keywords.Sound D) : keywords.toNode.Sound D := by
  unfold Keywords.toNode
  dsimp only
  split
  next inner all_of _ =>
    have inner_sound := sound.allOf inner (all_of ▸ List.mem_singleton.mpr rfl)
    refine sound_iff.mpr ⟨inner_sound.kind, fun value noted => ?_⟩
    obtain own | ⟨-, from_inner⟩ := Option.or_eq_some_iff.mp noted
    · exact sound.default value own
    · exact inner_sound.default value from_inner
  next => exact sound_iff.mpr ⟨sound.kind _, sound.default⟩

end Keywords

namespace Node

theorem optional?_eq_some {α : Type} {read : Json → Option α} {value : Json} {result : Option α}
    (success : optional? read value = some result) :
    result = none ∨ ∃ found, read value = some found ∧ result = some found := by
  unfold optional? at success
  split at success
  · exact .inl (Option.some.inj success).symm
  · obtain ⟨found, read, rfl⟩ := Option.map_eq_some_iff.mp success
    exact .inr ⟨found, read, rfl⟩

/-- Of the keywords that hold no schema, only the default is kept as a value. -/
theorem sound_plainKeyword? {keywords after : Keywords} {key : String} {value : Json}
    (sound : keywords.Sound D) (value_in : D value)
    (success : plainKeyword? keywords key value = some after) : after.Sound D := by
  unfold plainKeyword? at success
  split at success
  case h_5 =>
    obtain ⟨default, read, rfl⟩ := Option.map_eq_some_iff.mp success
    refine { sound with default := fun found noted => ?_ }
    obtain rfl | ⟨found', same, rfl⟩ := optional?_eq_some read
    · cases noted
    · cases same
      cases noted
      exact value_in
  case h_9 =>
    split at success
    · cases success
      exact { sound with }
    · cases success
  case h_10 =>
    cases success
    exact { sound with }
  all_goals
    obtain ⟨result, -, rfl⟩ := Option.map_eq_some_iff.mp success
    exact { sound with }

/-- Whatever is read from the value is sound. -/
structure ReadsSound (D : Json → Prop) (value : Json) : Prop where
  node : ∀ node, ofJson? value = some node → node.Sound D
  properties : ∀ nodes, properties? value = some nodes → ∀ entry ∈ nodes, entry.2.Sound D
  additional : ∀ node, additional? value = some (some (.schema node)) → node.Sound D
  items : ∀ node, items? value = some (some node) → node.Sound D
  nodes : ∀ nodes, nodes? value = some nodes → ∀ node ∈ nodes, node.Sound D

theorem sound_keywords? {members : List (String × Json)} {keywords : Keywords}
    (values : ∀ member ∈ members, D member.2)
    (each : ∀ member ∈ members, ReadsSound D member.2)
    (success : keywords? members = some keywords) : keywords.Sound D := by
  induction members generalizing keywords with
  | nil =>
    cases success
    exact Keywords.sound_empty
  | cons member rest ih =>
    obtain ⟨key, value⟩ := member
    obtain ⟨value_in, rest_in⟩ := List.forall_mem_cons.mp values
    obtain ⟨reads, rest_reads⟩ := List.forall_mem_cons.mp each
    rw [keywords?] at success
    cases found : keywords? rest with
    | none =>
      rw [found] at success
      cases success
    | some others =>
      rw [found] at success
      have before := ih rest_in rest_reads found
      dsimp only at success
      split at success
      case h_7 => exact sound_plainKeyword? before value_in success
      all_goals obtain ⟨result, read, rfl⟩ := Option.map_eq_some_iff.mp success
      · exact { before with properties := reads.properties result read }
      · refine { before with additional := fun node given => ?_ }
        exact reads.additional node (given ▸ read)
      · refine { before with items := fun node given => ?_ }
        exact reads.items node (given ▸ read)
      · exact { before with allOf := reads.nodes result read }
      · exact { before with oneOf := reads.nodes result read }
      · exact { before with anyOf := reads.nodes result read }

theorem sound_namedNodes? {members : List (String × Json)} {nodes : List (String × Node)}
    (each : ∀ member ∈ members, ReadsSound D member.2)
    (success : namedNodes? members = some nodes) : ∀ entry ∈ nodes, entry.2.Sound D := by
  induction members generalizing nodes with
  | nil =>
    cases success
    exact List.forall_mem_nil _
  | cons member rest ih =>
    obtain ⟨name, value⟩ := member
    obtain ⟨reads, rest_reads⟩ := List.forall_mem_cons.mp each
    rw [namedNodes?] at success
    split at success
    next node others read read_rest =>
      cases success
      exact List.forall_mem_cons.mpr ⟨reads.node node read, ih rest_reads read_rest⟩
    next => cases success

theorem sound_nodeList? {items : List Json} {nodes : List Node}
    (each : ∀ item ∈ items, ReadsSound D item) (success : nodeList? items = some nodes) :
    ∀ node ∈ nodes, node.Sound D := by
  induction items generalizing nodes with
  | nil =>
    cases success
    exact List.forall_mem_nil _
  | cons item rest ih =>
    obtain ⟨reads, rest_reads⟩ := List.forall_mem_cons.mp each
    rw [nodeList?] at success
    split at success
    next node others read read_rest =>
      cases success
      exact List.forall_mem_cons.mpr ⟨reads.node node read, ih rest_reads read_rest⟩
    next => cases success

theorem readsSound (hereditary : Json.Hereditary D) {value : Json} (value_in : D value) :
    ReadsSound D value := by
  induction value with
  | array items ih =>
    refine ⟨nofun, nofun, nofun, nofun, fun nodes success => ?_⟩
    rw [nodes?] at success
    have each : ∀ item ∈ items, ReadsSound D item :=
      fun item listed => ih item listed (hereditary.item items value_in item listed)
    exact sound_nodeList? each success
  | object members ih =>
    have values := hereditary.member members value_in
    have each : ∀ member ∈ members, ReadsSound D member.2 :=
      fun member listed => ih member listed (values member listed)
    have node_sound : ∀ keywords, keywords? members = some keywords →
        keywords.toNode.Sound D :=
      fun keywords read => (sound_keywords? values each read).toNode
    refine ⟨fun node success => ?_, fun nodes success => ?_, fun node success => ?_,
      fun node success => ?_, nofun⟩
    · obtain ⟨keywords, read, rfl⟩ := Option.map_eq_some_iff.mp success
      exact node_sound keywords read
    · rw [properties?] at success
      exact sound_namedNodes? each success
    · obtain ⟨keywords, read, same⟩ := Option.map_eq_some_iff.mp success
      cases same
      exact node_sound keywords read
    · obtain ⟨keywords, read, same⟩ := Option.map_eq_some_iff.mp success
      cases same
      exact node_sound keywords read
  | _ => exact ⟨nofun, nofun, nofun, nofun, nofun⟩

/-- A schema is decoded to a sound node, with its defaults from the value that is read. -/
theorem sound_of_ofJson? (hereditary : Json.Hereditary D) {value : Json} (value_in : D value)
    {node : Node} (read : ofJson? value = some node) : node.Sound D :=
  (readsSound hereditary value_in).node node read

/-- A schema that is decoded from a settled value is settled. -/
theorem settled_of_ofJson? {value : Json} (settled : value.Settled) {node : Node}
    (read : ofJson? value = some node) : node.Settled :=
  (sound_of_ofJson? Json.hereditary_settled settled read).settled

end Node

end ResourceModels

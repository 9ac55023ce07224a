import Mathlib
import ResourceModels.Proofs.KeywordReading

/-!
# Properties beside other keywords

One keyword decides on the shape of a schema. A conjunction of one member is that member, whatever
else there is; then come the alternatives, a conjunction of several members, and last the type
(`Node.ShapeBeside`). So the properties that a schema declares are all in its node where they stand
alone; beside other keywords they are there only if a conjunction says them again
(`Node.declared_properties_kept`).
-/

namespace ResourceModels

namespace Node

/-- The names of an object's properties. Other shapes have none. -/
def objectKeys (node : Node) : List String :=
  (node.object?.map fun shape => Entries.keys shape.properties).getD []

/-- An object that has the names, and the properties of all objects among the conjuncts. -/
structure Keeps (node : Node) (names : List String) (conjuncts : List Node) : Prop where
  is_object : node.object?.isSome
  own : names ⊆ node.objectKeys
  conjoined : ∀ conjunct ∈ conjuncts, conjunct.objectKeys ⊆ node.objectKeys

/-- The shape of a schema that declares properties, by the alternatives and the conjuncts
beside them. -/
inductive ShapeBeside (properties : Entries String Node) (options conjuncts : List Node) :
    Kind Node → Prop
  | alone (shape : ObjectShape Node) (no_conjuncts : conjuncts = []) (no_options : options = [])
      (own : shape.properties = properties) :
      ShapeBeside properties options conjuncts (.object shape)
  | wrapped (inner : Node) (single : conjuncts = [inner]) :
      ShapeBeside properties options conjuncts inner.kind
  | alternatives (not_single : conjuncts.length ≠ 1) (some_options : options ≠ []) :
      ShapeBeside properties options conjuncts (.union options)
  | conjoined (kind : Kind Node) (several : 2 ≤ conjuncts.length) (no_options : options = [])
      (conjoin : Conjoin conjuncts kind) : ShapeBeside properties options conjuncts kind

variable {properties : Entries String Node} {options conjuncts : List Node} {node : Node}

theorem objectKeys_of_object? {shape : ObjectShape Node}
    (is_object : node.object? = some shape) :
    node.objectKeys = Entries.keys shape.properties := by
  rw [objectKeys, is_object]
  rfl

theorem objectKeys_of_none (no_object : node.object? = none) : node.objectKeys = [] := by
  rw [objectKeys, no_object]
  rfl

theorem object?_of_kind {other : Node} (same : node.kind = other.kind) :
    node.object? = other.object? := by
  rw [object?, object?, same]

/-- The names of a combined object are those of its parts. -/
theorem objectKeys_filterMap (nodes : List Node) :
    (nodes.filterMap object?).flatMap (fun shape => Entries.keys shape.properties) =
      nodes.flatMap objectKeys := by
  induction nodes with
  | nil => rfl
  | cons node rest ih =>
    rw [List.flatMap_cons, ← ih]
    cases found : node.object? with
    | none => rw [List.filterMap_cons_none found, objectKeys_of_none found, List.nil_append]
    | some shape =>
      rw [List.filterMap_cons_some found, objectKeys_of_object? found, List.flatMap_cons]

theorem Conjoin.mem_objectKeys (conjoin : Conjoin conjuncts node.kind) (name : String) :
    name ∈ node.objectKeys ↔ name ∈ conjuncts.flatMap objectKeys := by
  rw [← objectKeys_filterMap]
  generalize shaped : node.kind = kind at conjoin
  cases conjoin with
  | objects shape present combines =>
    have is_object : node.object? = some shape := by rw [object?, shaped]
    rw [objectKeys_of_object? is_object, combines.names, List.mem_eraseDups]
  | first head rest whole none_present =>
    have no_object : node.object? = none := by
      rw [object?_of_kind shaped]
      exact List.filterMap_eq_nil_iff.mp none_present head (whole ▸ List.mem_cons_self)
    rw [none_present, objectKeys_of_none no_object, List.flatMap_nil]

theorem not_keeps_of_none {names : List String} (no_object : node.object? = none) :
    ¬ node.Keeps names conjuncts := by
  intro keeps
  have is_object := keeps.is_object
  rw [no_object] at is_object
  cases is_object

/-- An object made of its conjuncts has a name only if one of them has. -/
theorem keeps_iff_of_names {names : List String} (some_names : names ≠ [])
    (same : ∀ name, name ∈ node.objectKeys ↔ name ∈ conjuncts.flatMap objectKeys) :
    node.Keeps names conjuncts ↔ names ⊆ conjuncts.flatMap objectKeys := by
  constructor
  · exact fun keeps name inside => (same name).mp (keeps.own inside)
  · intro within
    refine ⟨?_, fun name inside => (same name).mpr (within inside), ?_⟩
    · obtain ⟨name, inside⟩ := List.exists_mem_of_ne_nil names some_names
      have named := (same name).mpr (within inside)
      cases found : node.object? with
      | none =>
        rw [objectKeys_of_none found] at named
        cases named
      | some shape => rfl
    · exact fun conjunct listed name inside =>
        (same name).mpr (List.mem_flatMap.mpr ⟨conjunct, listed, inside⟩)

/-- When nothing declared is lost. -/
theorem ShapeBeside.keeps_iff (shape : ShapeBeside properties options conjuncts node.kind)
    (some_own : properties ≠ []) :
    node.Keeps (Entries.keys properties) conjuncts ↔
      (conjuncts = [] ∧ options = []) ∨
        ((conjuncts.length = 1 ∨ options = []) ∧
          Entries.keys properties ⊆ conjuncts.flatMap objectKeys) := by
  have some_names : Entries.keys properties ≠ [] := by simpa [Entries.keys] using some_own
  generalize shaped : node.kind = kind at shape
  cases shape with
  | alone shape no_conjuncts no_options own =>
    have is_object : node.object? = some shape := by rw [object?, shaped]
    subst no_conjuncts no_options own
    refine iff_of_true ⟨by rw [is_object]; rfl, ?_, List.forall_mem_nil _⟩ (.inl ⟨rfl, rfl⟩)
    rw [objectKeys_of_object? is_object]
    exact List.Subset.refl _
  | wrapped inner single =>
    -- The member's shape is taken over, so of the schema's own nothing is left.
    subst single
    have same : node.objectKeys = [inner].flatMap objectKeys := by
      rw [List.flatMap_singleton, objectKeys, objectKeys, object?_of_kind shaped]
    rw [keeps_iff_of_names some_names fun name => by rw [same]]
    simp
  | alternatives not_single some_options =>
    have no_object : node.object? = none := by rw [object?, shaped]
    refine iff_of_false (not_keeps_of_none no_object) ?_
    rintro (⟨-, none_there⟩ | ⟨single | none_there, -⟩)
    · exact some_options none_there
    · exact not_single single
    · exact some_options none_there
  | conjoined _ several no_options conjoin =>
    rw [← shaped] at conjoin
    rw [keeps_iff_of_names some_names conjoin.mem_objectKeys]
    have nonempty : conjuncts ≠ [] := List.length_pos_iff.mp (by omega)
    simp [nonempty, no_options]

/-- The schemas of the first keyword for alternatives that lists any. -/
def alternatives (members : List (String × Json)) : List Json :=
  match listedUnder members "oneOf" with
  | [] => listedUnder members "anyOf"
  | schemas => schemas

/-- A schema of an object, or of no type, with properties of its own. It is no reference, and not
marked as an integer or a text. -/
structure DeclaresProperties (members own : List (String × Json)) : Prop where
  no_reference : Open members "$ref"
  no_flag : (Extensions.ofMembers members).intOrString = false
  type : TypeGiven members none ∨ TypeGiven members (some .object)
  given : Entries.get? members "properties" = some (.object own)
  some_own : own ≠ []

end Node

namespace Keywords

/-- The alternatives that decide on the shape. -/
def options (keywords : Keywords) : List Node :=
  match keywords.oneOf with
  | [] => keywords.anyOf
  | nodes => nodes

theorem ReadFrom.options {members : List (String × Json)} {keywords : Keywords}
    (read : ReadFrom members keywords) :
    Node.ReadAs (Node.alternatives members) keywords.options := by
  have one := Node.readAs_listedUnder read.oneOf
  rw [Node.alternatives, Keywords.options]
  generalize Node.listedUnder members "oneOf" = schemas at one ⊢
  generalize keywords.oneOf = nodes at one ⊢
  cases one with
  | nil => exact Node.readAs_listedUnder read.anyOf
  | cons head tail => exact .cons head tail

variable {keywords : Keywords} {extensions : Extensions}

theorem options_eq_nil_iff : keywords.options = [] ↔ keywords.oneOf = [] ∧ keywords.anyOf = [] := by
  rw [options]
  split
  next empty => simp [empty]
  next nonempty =>
    exact iff_of_false (fun empty => nonempty empty) fun empty => nonempty empty.1

theorem kind_of_options (no_reference : keywords.reference = none)
    (no_flag : extensions.intOrString = false) (some_options : keywords.options ≠ []) :
    (keywords.kind extensions).1 = .union keywords.options := by
  rw [kind, no_reference, no_flag]
  rw [options] at some_options ⊢
  cases one : keywords.oneOf with
  | nil =>
    rw [one] at some_options
    cases any : keywords.anyOf with
    | nil => exact absurd any some_options
    | cons node rest => rfl
  | cons node rest => rfl

theorem kind_of_allOf (no_reference : keywords.reference = none)
    (no_flag : extensions.intOrString = false) (no_options : keywords.options = [])
    (conjuncts : keywords.allOf ≠ []) :
    (keywords.kind extensions).1 = conjunction keywords.allOf := by
  obtain ⟨no_one, no_any⟩ := options_eq_nil_iff.mp no_options
  rw [kind, no_reference, no_flag, no_one, no_any]
  simp [conjuncts]

theorem shapeBeside (no_reference : keywords.reference = none)
    (no_flag : (Extensions.ofMembers keywords.rest).intOrString = false)
    (alone : keywords.options = [] → keywords.allOf = [] →
      ∃ shape, (keywords.kind (Extensions.ofMembers keywords.rest)).1 = .object shape ∧
        shape.properties = keywords.properties) :
    Node.ShapeBeside keywords.properties keywords.options keywords.allOf keywords.toNode.kind := by
  by_cases single : keywords.allOf.length = 1
  · obtain ⟨inner, single⟩ := List.length_eq_one_iff.mp single
    rw [kind_toNode_single no_reference single]
    exact .wrapped inner single
  rw [kind_toNode single]
  by_cases no_options : keywords.options = []
  · by_cases no_conjuncts : keywords.allOf = []
    · obtain ⟨shape, is_object, own⟩ := alone no_options no_conjuncts
      rw [is_object]
      exact .alone shape no_conjuncts no_options own
    · rw [kind_of_allOf no_reference no_flag no_options no_conjuncts]
      have several : 2 ≤ keywords.allOf.length := by
        have := List.length_pos_iff.mpr no_conjuncts
        omega
      exact .conjoined _ several no_options (.conjunction no_conjuncts)
  · rw [kind_of_options no_reference no_flag no_options]
    exact .alternatives single no_options

end Keywords

namespace Node

/-- The shape of a schema with properties of its own, and when nothing is lost. Without alternatives
and conjuncts nothing is. Otherwise the shape comes from the only conjunct, from the alternatives or
from all the conjuncts, so the schema's own properties have to be among those of the conjuncts, and
there must be no alternatives unless one conjunct decides. -/
theorem declared_properties_kept {members own : List (String × Json)} {node : Node}
    (declares : DeclaresProperties members own)
    (decoded : ofJson? (.object members) = some node) :
    ∃ properties options conjuncts, PropertiesReadAs own properties ∧
      ReadAs (alternatives members) options ∧ ReadAs (listedUnder members "allOf") conjuncts ∧
      ShapeBeside properties options conjuncts node.kind ∧
      (node.Keeps (Entries.keys own) conjuncts ↔
        (conjuncts = [] ∧ options = []) ∨
          ((conjuncts.length = 1 ∨ options = []) ∧
            Entries.keys own ⊆ conjuncts.flatMap objectKeys)) := by
  obtain ⟨keywords, read, rfl⟩ := ofJson?_object_eq_some decoded
  have no_reference := read.reference.of_open declares.no_reference
  have no_flag := declares.no_flag
  rw [← read.ofMembers] at no_flag
  have own_read : PropertiesReadAs own keywords.properties :=
    propertiesReadAs_of_namedNodes? (read.properties.of_get? declares.given)
  have some_properties : keywords.properties ≠ [] := by
    rintro none_read
    rw [none_read] at own_read
    exact declares.some_own (List.forall₂_nil_right_iff.mp own_read)
  have shape : ShapeBeside keywords.properties keywords.options keywords.allOf
      keywords.toNode.kind := by
    refine Keywords.shapeBeside no_reference no_flag fun no_options no_conjuncts => ?_
    obtain ⟨no_one, no_any⟩ := Keywords.options_eq_nil_iff.mp no_options
    rcases declares.type with untyped | typed
    · rw [read.kind_eq untyped no_reference no_flag no_one no_any no_conjuncts, Keywords.kindOf,
        Keywords.kindWithoutType]
      simp only [List.isEmpty_eq_false_iff.mpr some_properties, Bool.not_false, Bool.true_or,
        if_true]
      exact ⟨_, rfl, rfl⟩
    · rw [read.kind_eq typed no_reference no_flag no_one no_any no_conjuncts]
      exact ⟨_, rfl, rfl⟩
  refine ⟨_, _, _, own_read, read.options, readAs_listedUnder read.allOf, shape, ?_⟩
  rw [← own_read.keys_eq]
  exact shape.keeps_iff some_properties

namespace OneOfTwo

def own : List (String × Json) :=
  [("secret", .object [("type", .string "string")]), ("file", .object [("type", .string "string")])]

/-- One of the two properties has to be there. -/
def members : List (String × Json) :=
  [("type", .string "object"), ("properties", .object own),
    ("oneOf", .array [.object [("required", .array [.string "secret"])],
      .object [("required", .array [.string "file"])]])]

/-- The node is a choice between two unknown values. -/
theorem both_properties_lost : DeclaresProperties members own ∧
    ReadAs (listedUnder members "allOf") [] ∧
    ∃ node, ofJson? (.object members) = some node ∧ ¬ node.Keeps (Entries.keys own) [] := by
  refine ⟨⟨nofun, rfl, .inr ?_, rfl, List.cons_ne_nil _ _⟩, .nil,
    bare (.union [bare .any, bare .any]), rfl, not_keeps_of_none rfl⟩
  exact .named (.string "object") (.single .object) .object rfl rfl rfl

/-- One of the properties is declared again by the only conjunct, and has to be there. -/
def wrapper : List (String × Json) :=
  [("properties", .object own),
    ("allOf", .array [
      .object [("properties", .object own), ("required", .array [.string "file"])]])]

theorem properties_said_again : DeclaresProperties wrapper own ∧
    ∃ node, ofJson? (.object wrapper) = some node ∧
      ∃ properties options conjuncts, PropertiesReadAs own properties ∧
        ReadAs (alternatives wrapper) options ∧ ReadAs (listedUnder wrapper "allOf") conjuncts ∧
        ShapeBeside properties options conjuncts node.kind ∧
        (node.Keeps (Entries.keys own) conjuncts ↔
          (conjuncts = [] ∧ options = []) ∨
            ((conjuncts.length = 1 ∨ options = []) ∧
              Entries.keys own ⊆ conjuncts.flatMap objectKeys)) := by
  have declares : DeclaresProperties wrapper own :=
    ⟨nofun, rfl, .inl (.absent nofun), rfl, List.cons_ne_nil _ _⟩
  exact ⟨declares, _, rfl, declared_properties_kept declares rfl⟩

end OneOfTwo

end Node

end ResourceModels

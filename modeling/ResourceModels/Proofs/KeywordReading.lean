import Mathlib
import ResourceModels.Schema.Decoding
import ResourceModels.Proofs.Conjunctions

/-!
# Keywords and the members they are read from

The members of a schema object are taken up one by one, the last of them first, and each of them
can only set the keyword it has the key of. So a keyword is known from the members without the
steps: it is what its reader makes of the first member with its key (`Keywords.ReadFrom`). What is
no keyword is kept in its order, so the vendor extensions are those of the members.
-/

namespace ResourceModels

/-- What a keyword stands for: the first member with its key as `read` takes it, or `absent` where
there is no such member. -/
def Given {α : Type} (members : List (String × Json)) (key : String) (read : Json → Option α)
    (absent found : α) : Prop :=
  (Entries.get? members key).elim (some absent) read = some found

namespace Given

variable {α : Type} {members : List (String × Json)} {key other : String} {value : Json}
  {read : Json → Option α} {absent found : α}

theorem here (taken : read value = some found) :
    Given ((key, value) :: members) key read absent found := by
  rw [Given, Entries.get?_cons, if_pos rfl]
  exact taken

theorem later (different : other ≠ key) (given : Given members key read absent found) :
    Given ((other, value) :: members) key read absent found := by
  rw [Given, Entries.get?_cons, if_neg different]
  exact given

theorem of_missing (given : Given members key read absent found)
    (missing : Entries.get? members key = none) : found = absent := by
  rw [Given, missing] at given
  exact (Option.some.inj given).symm

theorem of_get? (given : Given members key read absent found)
    (present : Entries.get? members key = some value) : read value = some found := by
  rwa [Given, present] at given

end Given

/-- The entries of a list, as they stand. -/
def Json.items? : Json → Option (List Json)
  | .array items => some items
  | _ => none

/-- The keywords are those that the members give. -/
structure Keywords.ReadFrom (members : List (String × Json)) (keywords : Keywords) : Prop where
  reference : Given members "$ref" (Node.optional? Json.text?) none keywords.reference
  type : Given members "type" (Node.optional? TypeSet.ofJson?) none keywords.type
  format : Given members "format" (Node.optional? Json.text?) none keywords.format
  description : Given members "description" (Node.optional? Json.text?) none keywords.description
  default : Given members "default" (Node.optional? some) none keywords.default
  nullable : Given members "nullable" (Node.optional? Json.bool?) none keywords.nullable
  properties : Given members "properties" Node.properties? [] keywords.properties
  required : Given members "required" Node.texts? [] keywords.required
  additional : Given members "additionalProperties" Node.additional? none keywords.additional
  items : Given members "items" Node.items? none keywords.items
  allOf : Given members "allOf" Node.nodes? [] keywords.allOf
  oneOf : Given members "oneOf" Node.nodes? [] keywords.oneOf
  anyOf : Given members "anyOf" Node.nodes? [] keywords.anyOf
  values : Given members "enum" Json.items? [] keywords.values
  readOnly : Given members "readOnly" (Node.optional? Json.bool?) none keywords.readOnly
  extensions : keywords.rest.filter (Extensions.isExtensionKey ·.1) =
    members.filter (Extensions.isExtensionKey ·.1)

namespace Node

/-- Take up one member. -/
def keyword? (keywords : Keywords) (key : String) (value : Json) : Option Keywords :=
  match key with
  | "properties" => (properties? value).map ({ keywords with properties := · })
  | "additionalProperties" => (additional? value).map ({ keywords with additional := · })
  | "items" => (items? value).map ({ keywords with items := · })
  | "allOf" => (nodes? value).map ({ keywords with allOf := · })
  | "oneOf" => (nodes? value).map ({ keywords with oneOf := · })
  | "anyOf" => (nodes? value).map ({ keywords with anyOf := · })
  | _ => plainKeyword? keywords key value

theorem keywords?_cons (key : String) (value : Json) (rest : List (String × Json)) :
    keywords? ((key, value) :: rest) = (keywords? rest).bind (keyword? · key value) := by
  rw [keywords?]
  cases keywords? rest <;> rfl

end Node

namespace Keywords.ReadFrom

variable {members : List (String × Json)} {keywords next : Keywords} {key : String} {value : Json}

theorem ofMembers (read : ReadFrom members keywords) :
    Extensions.ofMembers keywords.rest = Extensions.ofMembers members := by
  rw [Extensions.ofMembers, Extensions.ofMembers, read.extensions]

theorem nil : ReadFrom [] {} := by
  constructor <;> rfl

theorem filter_cons_of_keyword {rest : List (String × Json)}
    (no_extension : Extensions.isExtensionKey key = false)
    (same : rest.filter (Extensions.isExtensionKey ·.1) =
      members.filter (Extensions.isExtensionKey ·.1)) :
    rest.filter (Extensions.isExtensionKey ·.1) =
      ((key, value) :: members).filter (Extensions.isExtensionKey ·.1) := by
  rw [List.filter_cons_of_neg (by simp [no_extension]), same]

theorem filter_cons_cons {rest : List (String × Json)}
    (same : rest.filter (Extensions.isExtensionKey ·.1) =
      members.filter (Extensions.isExtensionKey ·.1)) :
    ((key, value) :: rest).filter (Extensions.isExtensionKey ·.1) =
      ((key, value) :: members).filter (Extensions.isExtensionKey ·.1) := by
  rw [List.filter_cons, List.filter_cons, same]

/-- A member sets the keyword of its key and leaves the others alone. -/
theorem cons (read : ReadFrom members keywords)
    (taken : Node.keyword? keywords key value = some next) :
    ReadFrom ((key, value) :: members) next := by
  unfold Node.keyword? Node.plainKeyword? at taken
  obtain ⟨_, _, _, _, _, _, _, _, _, _, _, _, _, _, _, _⟩ := read
  split at taken
  case' h_7 =>
    split at taken
    case h_10 =>
      -- No keyword has this key.
      cases taken
      constructor <;>
        first
        | exact .later ‹_› ‹_›
        | exact filter_cons_cons ‹_›
    case' h_9 =>
      replace taken : value.items?.map ({ keywords with values := · }) = some next := by
        cases value <;> exact taken
  -- What is left sets one keyword from this member, and no other keyword has this key.
  all_goals
    obtain ⟨found, own, rfl⟩ := Option.map_eq_some_iff.mp taken
    constructor <;>
      first
      | exact .here own
      | exact .later (by decide) ‹_›
      | exact filter_cons_of_keyword (by decide) ‹_›

theorem of_keywords? (success : Node.keywords? members = some keywords) :
    ReadFrom members keywords := by
  induction members generalizing keywords with
  | nil =>
    cases success
    exact .nil
  | cons member rest ih =>
    rw [Node.keywords?_cons] at success
    obtain ⟨before, found, taken⟩ := Option.bind_eq_some_iff.mp success
    exact (ih found).cons taken

end Keywords.ReadFrom

theorem Node.ofJson?_object_eq_some {members : List (String × Json)} {node : Node}
    (decoded : ofJson? (.object members) = some node) :
    ∃ keywords : Keywords, keywords.ReadFrom members ∧ node = keywords.toNode := by
  rw [ofJson?] at decoded
  obtain ⟨keywords, read, rfl⟩ := Option.map_eq_some_iff.mp decoded
  exact ⟨keywords, .of_keywords? read, rfl⟩

namespace Node

/-- The schemas that are listed under a key. -/
def listedUnder (members : List (String × Json)) (key : String) : List Json :=
  ((Entries.get? members key).bind Json.items?).getD []

/-- Each schema is read as the node in its place. -/
abbrev ReadAs (schemas : List Json) (nodes : List Node) : Prop :=
  List.Forall₂ (fun schema node => ofJson? schema = some node) schemas nodes

/-- Each member is read as the property in its place. -/
abbrev PropertiesReadAs (members : List (String × Json)) (properties : Entries String Node) :
    Prop :=
  List.Forall₂ (fun member property => member.1 = property.1 ∧ ofJson? member.2 = some property.2)
    members properties

theorem readAs_of_nodes? {value : Json} {nodes : List Node} (read : nodes? value = some nodes) :
    ∃ items, value.items? = some items ∧ ReadAs items nodes := by
  cases value with
  | array items =>
    rw [nodes?, nodeList?_eq_mapM, mapM_eq_some_iff] at read
    exact ⟨items, rfl, read⟩
  | _ => cases read

theorem readAs_listedUnder {members : List (String × Json)} {key : String} {nodes : List Node}
    (given : Given members key nodes? [] nodes) : ReadAs (listedUnder members key) nodes := by
  unfold listedUnder
  cases present : Entries.get? members key with
  | none =>
    rw [given.of_missing present]
    exact .nil
  | some value =>
    obtain ⟨items, listed, read⟩ := readAs_of_nodes? (given.of_get? present)
    rw [Option.bind_some, listed]
    exact read

theorem propertiesReadAs_of_namedNodes? {members : List (String × Json)}
    {properties : List (String × Node)} (read : namedNodes? members = some properties) :
    PropertiesReadAs members properties := by
  induction members generalizing properties with
  | nil =>
    cases read
    exact .nil
  | cons member rest ih =>
    rw [namedNodes?] at read
    split at read
    next node others read_node read_rest =>
      cases read
      exact .cons ⟨rfl, read_node⟩ (ih read_rest)
    next => cases read

theorem PropertiesReadAs.keys_eq {members : List (String × Json)}
    {properties : Entries String Node} (read : PropertiesReadAs members properties) :
    Entries.keys properties = Entries.keys members :=
  map_eq_map_of_forall₂ read fun _ _ same => same.1.symm

end Node

/-- A member is missing, or null. -/
def Open (members : List (String × Json)) (key : String) : Prop :=
  ∀ value, Entries.get? members key = some value → value = .null

theorem Given.of_open {α : Type} {members : List (String × Json)} {key : String}
    {read : Json → Option α} {found : Option α}
    (given : Given members key (Node.optional? read) none found) (is_open : Open members key) :
    found = none := by
  cases present : Entries.get? members key with
  | none => exact given.of_missing present
  | some value =>
    have taken := given.of_get? present
    rw [is_open value present] at taken
    exact (Option.some.inj taken).symm

theorem Node.optional?_of_ne_null {α : Type} {read : Json → Option α} {value : Json}
    (not_null : value ≠ .null) : optional? read value = (read value).map some := by
  unfold optional?
  split
  next => exact absurd rfl not_null
  next => rfl

/-- The one type of a set, where null beside another type does not count. -/
def TypeSet.sole? : TypeSet → Option TypeName
  | .single name => some name
  | .several names =>
    match names.filter (· ≠ .null) with
    | [] => some .null
    | [name] => some name
    | _ => none

/-- A schema names one type, beside null perhaps, or none. -/
inductive TypeGiven (members : List (String × Json)) : Option TypeName → Prop
  | absent (is_open : Open members "type") : TypeGiven members none
  | named (value : Json) (set : TypeSet) (name : TypeName)
      (present : Entries.get? members "type" = some value) (read : TypeSet.ofJson? value = some set)
      (sole : set.sole? = some name) : TypeGiven members (some name)

namespace Keywords

/-- The shape where the type alone decides. -/
def kindOf (keywords : Keywords) : Option TypeName → Kind Node
  | some name => keywords.kindOfType name
  | none => keywords.kindWithoutType

theorem kind_toNode_single {keywords : Keywords} {inner : Node}
    (no_reference : keywords.reference = none) (single : keywords.allOf = [inner]) :
    keywords.toNode.kind = inner.kind := by
  simp only [toNode, single, no_reference]

theorem kind_toNode {keywords : Keywords} (not_single : keywords.allOf.length ≠ 1) :
    keywords.toNode.kind = (keywords.kind (Extensions.ofMembers keywords.rest)).1 := by
  unfold toNode
  split
  next single _ => exact absurd (congrArg List.length single) not_single
  next => rfl

theorem kindOfTypes_of_sole {keywords : Keywords} {names : List TypeName} {name : TypeName}
    (sole : (TypeSet.several names).sole? = some name) :
    (keywords.kindOfTypes names).1 = keywords.kindOfType name := by
  rw [TypeSet.sole?] at sole
  rw [kindOfTypes]
  generalize names.filter (· ≠ .null) = others at sole ⊢
  cases others with
  | nil =>
    cases sole
    rfl
  | cons first rest =>
    cases rest with
    | nil =>
      cases sole
      rfl
    | cons second more => cases sole

theorem ReadFrom.kind_eq {members : List (String × Json)} {keywords : Keywords}
    (read : ReadFrom members keywords) {declared : Option TypeName}
    (given : TypeGiven members declared) (no_reference : keywords.reference = none)
    {extensions : Extensions} (no_flag : extensions.intOrString = false)
    (no_oneOf : keywords.oneOf = []) (no_anyOf : keywords.anyOf = [])
    (no_allOf : keywords.allOf = []) : (keywords.kind extensions).1 = keywords.kindOf declared := by
  rw [kind, no_reference, no_flag, no_oneOf, no_anyOf, no_allOf]
  cases given with
  | absent is_open =>
    rw [read.type.of_open is_open]
    rfl
  | named value set name present taken sole =>
    have typed := read.type.of_get? present
    have not_null : value ≠ .null := by
      rintro rfl
      cases taken
    rw [Node.optional?_of_ne_null not_null, taken] at typed
    rw [← Option.some.inj typed]
    cases set with
    | single name =>
      cases sole
      rfl
    | several names => exact kindOfTypes_of_sole sole

end Keywords

end ResourceModels

import Mathlib
import ResourceModels.Schema.Decoding
import ResourceModels.Proofs.Entries

/-!
# What a conjunction of schemas amounts to

A conjunction with no keyword beside it is one object made of its object members, or has the shape
of its first member where none is an object. The object is known without the steps that merge it:
a name counts where it first occurs, and the last member that declares something has the say
(`ObjectShape.Combines`). So a run of members can be put into a conjunction of its own, and the
shape of the whole stays the same (`conjunction_merges`).
-/

namespace ResourceModels

theorem addMissing_eraseDups (known names : List String) :
    addMissing known.eraseDups names = (known ++ names).eraseDups := by
  induction names using List.reverseRecOn with
  | nil => simp [addMissing]
  | append_singleton names name ih =>
    rw [addMissing, List.foldl_concat, ← addMissing, ih, ← List.append_assoc, eraseDups_concat]
    simp only [List.mem_eraseDups]

namespace ObjectShape

/-- The node of a property in the last object that declares it. An object that were to repeat a name
would count with its last entry. -/
def lastNode? (objects : List (ObjectShape Node)) (name : String) : Option Node :=
  objects.reverse.findSome? fun object => Entries.get? object.properties.reverse name

/-- One object in place of several. -/
structure Combines (objects : List (ObjectShape Node)) (shape : ObjectShape Node) : Prop where
  names : Entries.keys shape.properties =
    (objects.flatMap fun object => Entries.keys object.properties).eraseDups
  nodes : ∀ name, Entries.get? shape.properties name = lastNode? objects name
  required : shape.required = (objects.flatMap ObjectShape.required).eraseDups
  additional : shape.additional = objects.reverse.findSome? ObjectShape.additional

namespace Combines

variable {objects before run after : List (ObjectShape Node)}
  {shape other inner whole : ObjectShape Node}

theorem nodup (combines : Combines objects shape) : (Entries.keys shape.properties).Nodup := by
  rw [combines.names]
  exact nodup_eraseDups _

theorem empty : Combines [] ⟨[], [], none⟩ := ⟨rfl, fun _ => rfl, rfl, rfl⟩

/-- One more object: its names go behind the known ones, and it has the last word. -/
theorem merge (combines : Combines objects shape) (object : ObjectShape Node) :
    Combines (objects ++ [object]) (shape.merge object) where
  names := by
    rw [ObjectShape.merge, Entries.keys_insertAll combines.nodup, combines.names,
      eraseDups_eraseDups_append, List.flatMap_append, List.flatMap_singleton]
  nodes name := by
    rw [ObjectShape.merge, Entries.get?_insertAll, combines.nodes, lastNode?, lastNode?,
      findSome?_reverse_concat]
  required := by
    rw [ObjectShape.merge, combines.required, addMissing_eraseDups, List.flatMap_append,
      List.flatMap_singleton]
  additional := by
    rw [ObjectShape.merge, combines.additional, findSome?_reverse_concat]

theorem foldl_merge (objects : List (ObjectShape Node)) :
    Combines objects (objects.foldl ObjectShape.merge ⟨[], [], none⟩) := by
  induction objects using List.reverseRecOn with
  | nil => exact .empty
  | append_singleton objects object ih =>
    rw [List.foldl_concat]
    exact ih.merge object

theorem unique (first : Combines objects shape) (second : Combines objects other) :
    shape = other := by
  have properties : shape.properties = other.properties :=
    Entries.eq_of_views first.nodup (first.names.trans second.names.symm)
      fun name => (first.nodes name).trans (second.nodes name).symm
  have required := first.required.trans second.required.symm
  have additional := first.additional.trans second.additional.symm
  cases shape
  cases other
  congr

/-- Objects that are combined first give the same together with the others. -/
theorem splice (combined : Combines run inner)
    (combines : Combines (before ++ inner :: after) whole) :
    Combines (before ++ run ++ after) whole where
  names := by
    rw [combines.names, List.flatMap_append, List.flatMap_cons, combined.names, List.flatMap_append,
      List.flatMap_append, eraseDups_splice]
  nodes name := by
    rw [combines.nodes, lastNode?, lastNode?]
    simp only [List.reverse_append, List.reverse_cons, List.findSome?_append, List.append_assoc]
    rw [List.findSome?_singleton, Entries.get?_reverse combined.nodup, combined.nodes, lastNode?]
  required := by
    rw [combines.required, List.flatMap_append, List.flatMap_cons, combined.required,
      List.flatMap_append, List.flatMap_append, eraseDups_splice]
  additional := by
    rw [combines.additional]
    simp only [List.reverse_append, List.reverse_cons, List.findSome?_append, List.append_assoc]
    rw [List.findSome?_singleton, combined.additional]

end Combines

end ObjectShape

/-- The shape of several members together. -/
inductive Node.Conjoin (nodes : List Node) : Kind Node → Prop
  | objects (shape : ObjectShape Node) (present : nodes.filterMap Node.object? ≠ [])
      (combines : ObjectShape.Combines (nodes.filterMap Node.object?) shape) :
      Node.Conjoin nodes (.object shape)
  | first (node : Node) (rest : List Node) (whole : nodes = node :: rest)
      (none_present : nodes.filterMap Node.object? = []) : Node.Conjoin nodes node.kind

namespace Node.Conjoin

variable {nodes before run after : List Node} {kind other : Kind Node} {inner : Node}

theorem conjunction (nonempty : nodes ≠ []) :
    Node.Conjoin nodes (Keywords.conjunction nodes) := by
  unfold Keywords.conjunction
  split
  next none_present =>
    cases nodes with
    | nil => exact absurd rfl nonempty
    | cons node rest => exact .first node rest rfl none_present
  next present => exact .objects _ present (.foldl_merge _)

theorem unique (left : Node.Conjoin nodes kind) (right : Node.Conjoin nodes other) :
    kind = other := by
  cases left with
  | objects shape present combines =>
    cases right with
    | objects shape' _ combines' => rw [combines.unique combines']
    | first _ _ _ none_present => exact absurd none_present present
  | first node rest whole none_present =>
    cases right with
    | objects _ present _ => exact absurd none_present present
    | first node' rest' whole' _ =>
      cases whole.symm.trans whole'
      rfl

/-- A node with the shape of a run of members stands for the run. -/
theorem splice {shared : Kind Node} (conjoined : Node.Conjoin run shared)
    (same : inner.kind = shared) (conjoin : Node.Conjoin (before ++ inner :: after) kind) :
    Node.Conjoin (before ++ run ++ after) kind := by
  cases conjoined with
  | objects shape present combined =>
    have inner_object : inner.object? = some shape := by rw [Node.object?, same]
    have flat : (before ++ run ++ after).filterMap Node.object? =
        before.filterMap Node.object? ++ run.filterMap Node.object? ++
          after.filterMap Node.object? := by
      simp only [List.filterMap_append]
    have nested : (before ++ inner :: after).filterMap Node.object? =
        before.filterMap Node.object? ++ shape :: after.filterMap Node.object? := by
      rw [List.filterMap_append, List.filterMap_cons_some inner_object]
    cases conjoin with
    | objects whole _ combines =>
      refine .objects whole (by simp [present]) ?_
      rw [nested] at combines
      rw [flat]
      exact combined.splice combines
    | first _ _ _ none_present => simp [nested] at none_present
  | first node rest whole none_in_run =>
    subst whole
    have no_object : inner.object? = none := by
      have node_none := List.filterMap_eq_nil_iff.mp none_in_run node List.mem_cons_self
      rw [Node.object?, same]
      exact node_none
    have kept : (before ++ node :: rest ++ after).filterMap Node.object? =
        (before ++ inner :: after).filterMap Node.object? := by
      simp only [List.filterMap_append, none_in_run, List.append_nil,
        List.filterMap_cons_none no_object]
    cases conjoin with
    | objects shape present combines =>
      rw [← kept] at present combines
      exact .objects shape present combines
    | first head tail starts none_present =>
      rw [← kept] at none_present
      cases before with
      | nil =>
        cases starts
        rw [same]
        exact .first node (rest ++ after) rfl none_present
      | cons earlier before =>
        obtain ⟨rfl, -⟩ := List.cons.inj starts
        exact .first _ _ rfl none_present

end Node.Conjoin

/-- A conjunction and nothing else. -/
def Json.allOf (members : List Json) : Json := .object [("allOf", .array members)]

/-- The node of a conjunction and nothing else. -/
def Node.allOf (nodes : List Node) : Node := Keywords.toNode { allOf := nodes }

namespace Node

theorem nodeList?_eq_mapM (items : List Json) : nodeList? items = items.mapM ofJson? := by
  induction items with
  | nil => rfl
  | cons item rest ih =>
    rw [nodeList?, ih, List.mapM_cons]
    cases ofJson? item <;> cases rest.mapM ofJson? <;> rfl

theorem ofJson?_allOf (members : List Json) :
    ofJson? (Json.allOf members) = (members.mapM ofJson?).map allOf := by
  rw [← nodeList?_eq_mapM, Json.allOf, ofJson?, keywords?, keywords?]
  simp only [nodes?, Option.map_map]
  rfl

theorem allOf_singleton (node : Node) : allOf [node] = node := by
  obtain ⟨kind, description, default, nullable, readOnly, extensions⟩ := node
  simp [allOf, Keywords.toNode, Extensions.ofMembers, Entries.ofList, Entries.insertAll]

theorem allOf_several {nodes : List Node} (several : 2 ≤ nodes.length) :
    allOf nodes = bare (Keywords.conjunction nodes) := by
  match nodes with
  | first :: second :: rest => rfl

/-- Members can be put into a conjunction of their own. -/
theorem kind_allOf_splice (before after : List Node) {run : List Node} (nonempty : run ≠ []) :
    (allOf (before ++ allOf run :: after)).kind = (allOf (before ++ run ++ after)).kind := by
  match run with
  | [node] => rw [allOf_singleton, List.append_assoc, List.singleton_append]
  | first :: second :: rest =>
    have several : 2 ≤ (first :: second :: rest).length := by simp
    generalize first :: second :: rest = run at several nonempty ⊢
    have flat_several : 2 ≤ (before ++ run ++ after).length := by simp; omega
    have inner := Conjoin.conjunction nonempty
    have inner_kind : (allOf run).kind = Keywords.conjunction run := by
      rw [allOf_several several, bare]
    by_cases alone : before = [] ∧ after = []
    · obtain ⟨rfl, rfl⟩ := alone
      rw [List.nil_append, allOf_singleton, List.nil_append, List.append_nil]
    · have nested_several : 2 ≤ (before ++ allOf run :: after).length := by
        rcases not_and_or.mp alone with some_before | some_after
        · have := List.length_pos_iff.mpr some_before
          simp only [List.length_append, List.length_cons]
          omega
        · have := List.length_pos_iff.mpr some_after
          simp only [List.length_append, List.length_cons]
          omega
      have nested : Conjoin (before ++ allOf run :: after) _ := .conjunction (by simp)
      have flat : Conjoin (before ++ run ++ after) _ := .conjunction (by simp [nonempty])
      rw [allOf_several nested_several, allOf_several flat_several, bare, bare]
      exact (inner.splice inner_kind nested).unique flat

/-- Two members or more are one object made of the objects among them, or have the shape of the
first where there is none. Members can be put into a conjunction of their own, and one member alone
is the member itself. -/
theorem conjunction_merges :
    (∀ members nodes, List.Forall₂ (fun member node => ofJson? member = some node) members nodes →
      2 ≤ members.length →
        ∃ kind, ofJson? (Json.allOf members) = some (bare kind) ∧ Conjoin nodes kind) ∧
    (∀ before run after, run ≠ [] →
      (ofJson? (Json.allOf (before ++ Json.allOf run :: after))).map Node.kind =
        (ofJson? (Json.allOf (before ++ run ++ after))).map Node.kind) ∧
    ∀ member, ofJson? (Json.allOf [member]) = ofJson? member := by
  refine ⟨fun members nodes read several => ?_, fun before run after nonempty => ?_,
    fun member => ?_⟩
  · rw [read.length_eq] at several
    refine ⟨Keywords.conjunction nodes, ?_, .conjunction (List.length_pos_iff.mp (by omega))⟩
    rw [ofJson?_allOf, mapM_eq_some_iff.mpr read, Option.map_some, allOf_several several]
  · simp only [ofJson?_allOf, List.mapM_append, List.mapM_cons]
    cases before_read : before.mapM ofJson? with
    | none => simp
    | some before_nodes =>
      cases run_read : run.mapM ofJson? with
      | none => simp
      | some run_nodes =>
        cases after_read : after.mapM ofJson? with
        | none => simp
        | some after_nodes =>
          have run_nonempty : run_nodes ≠ [] := by
            rintro rfl
            exact nonempty (List.forall₂_nil_right_iff.mp (mapM_eq_some_iff.mp run_read))
          simpa using kind_allOf_splice before_nodes after_nodes run_nonempty
  · rw [ofJson?_allOf, List.mapM_cons, List.mapM_nil]
    cases ofJson? member with
    | none => rfl
    | some node => exact congrArg some (allOf_singleton node)

namespace ThreeMembers

def named : Json :=
  .object [("properties", .object [("name", .object [("type", .string "string")]),
    ("size", .object [("type", .string "string")])]), ("required", .array [.string "name"])]

def pointer : Json := .object [("$ref", .string "#/components/schemas/Other")]

def sized : Json :=
  .object [("properties", .object [("size", .object [("type", .string "integer")])]),
    ("required", .array [.string "size", .string "name"]), ("additionalProperties", .bool true)]

def nodes : List Node :=
  [bare (.object ⟨[("name", ofScalar .string), ("size", ofScalar .string)], ["name"], none⟩),
    bare (.reference "#/components/schemas/Other"),
    bare (.object ⟨[("size", ofScalar .integer)], ["size", "name"], some (bare .any)⟩)]

/-- The size keeps its place and takes the later node. -/
example : ofJson? (Json.allOf [named, pointer, sized]) =
    some (bare (.object ⟨[("name", ofScalar .string), ("size", ofScalar .integer)],
      ["name", "size"], some (bare .any)⟩)) := rfl

theorem members_merged :
    (List.Forall₂ (fun member node => ofJson? member = some node) [named, pointer, sized] nodes ∧
      2 ≤ [named, pointer, sized].length ∧
      ∃ kind, ofJson? (Json.allOf [named, pointer, sized]) = some (bare kind) ∧
        Conjoin nodes kind) ∧
    [pointer, sized] ≠ [] ∧
      (ofJson? (Json.allOf [named, Json.allOf [pointer, sized]])).map Node.kind =
        (ofJson? (Json.allOf [named, pointer, sized])).map Node.kind := by
  have read : List.Forall₂ (fun member node => ofJson? member = some node)
      [named, pointer, sized] nodes := .cons rfl (.cons rfl (.cons rfl .nil))
  have two : 2 ≤ [named, pointer, sized].length := by decide
  have nonempty : [pointer, sized] ≠ [] := List.cons_ne_nil _ _
  obtain ⟨merged, regrouped, -⟩ := conjunction_merges
  exact ⟨⟨read, two, merged _ _ read two⟩, nonempty, regrouped [named] [pointer, sized] [] nonempty⟩

end ThreeMembers

end Node

end ResourceModels

import Mathlib
import ResourceModels.Proofs.Values

/-!
# Sameness is an equivalence

Two values are the same when they differ at most in the order of the members of their objects, and
two types are the same when at most their defaults differ in that way. Sameness is transitive
as it stands. It is reflexive and symmetric where no object gives a key twice, which holds of every
value that has been read (`Json.Settled`).
-/

namespace ResourceModels

namespace Number

theorem same_refl (number : Number) : number.same number = true := by
  cases number <;> simp [same]

theorem same_symm {first second : Number} (equal : first.same second = true) :
    second.same first = true := by
  cases first <;> cases second <;> simp [same] at equal ⊢ <;> grind

theorem same_trans {first second third : Number} (left : first.same second = true)
    (right : second.same third = true) : first.same third = true := by
  cases first <;> cases second <;> cases third <;> simp [same] at left right ⊢ <;> grind

end Number

namespace Json

@[induction_eliminator]
theorem tree_induction {P : Json → Prop} (null : P .null) (bool : ∀ value, P (.bool value))
    (number : ∀ value, P (.number value)) (string : ∀ text, P (.string text))
    (array : ∀ items : List Json, (∀ item ∈ items, P item) → P (.array items))
    (object : ∀ members : List (String × Json), (∀ member ∈ members, P member.2) →
      P (.object members)) (value : Json) : P value := by
  refine @Json.rec P (fun items => ∀ item ∈ items, P item)
    (fun members => ∀ member ∈ members, P member.2) (fun member => P member.2)
    null bool number string array object ?_ ?_ ?_ ?_ ?_ value
  · exact fun _ absent => absurd absent List.not_mem_nil
  · exact fun _ _ head tail => List.forall_mem_cons.mpr ⟨head, tail⟩
  · exact fun _ absent => absurd absent List.not_mem_nil
  · exact fun _ _ head tail => List.forall_mem_cons.mpr ⟨head, tail⟩
  · exact fun _ _ holds => holds

/-- No object in the value gives a key twice. -/
inductive Settled : Json → Prop
  | null : Settled .null
  | bool (value : Bool) : Settled (.bool value)
  | number (value : Number) : Settled (.number value)
  | string (text : String) : Settled (.string text)
  | array (items : List Json) (each : ∀ item ∈ items, Settled item) : Settled (.array items)
  | object (members : List (String × Json)) (distinct : (Entries.keys members).Nodup)
      (each : ∀ member ∈ members, Settled member.2) : Settled (.object members)

theorem sameItems_iff {first second : List Json} :
    sameItems first second = true ↔ List.Forall₂ (fun a b => same a b = true) first second := by
  induction first generalizing second with
  | nil => cases second <;> simp [sameItems]
  | cons item rest ih => cases second <;> simp [sameItems, ih]

theorem sameMembers_iff {first second : List (String × Json)} :
    sameMembers first second = true ↔
      ∀ member ∈ first, ∃ value, Entries.get? second member.1 = some value ∧
        same member.2 value = true := by
  induction first with
  | nil => simp [sameMembers]
  | cons member rest ih =>
    obtain ⟨key, value⟩ := member
    rw [sameMembers, Bool.and_eq_true, ih, List.forall_mem_cons]
    refine and_congr_left fun _ => ?_
    cases Entries.get? second key <;> simp

theorem same_object_iff {first second : List (String × Json)} :
    same (.object first) (.object second) = true ↔ first.length = second.length ∧
      ∀ member ∈ first, ∃ value, Entries.get? second member.1 = some value ∧
        same member.2 value = true := by
  rw [same, Bool.and_eq_true, decide_eq_true_eq, sameMembers_iff]

theorem same_refl {value : Json} (settled : value.Settled) : same value value = true := by
  induction settled with
  | null => rfl
  | bool value => simp [same]
  | number value => exact Number.same_refl value
  | string text => simp [same]
  | array items _ ih => exact sameItems_iff.mpr (List.forall₂_same.mpr ih)
  | object members distinct _ ih =>
    exact same_object_iff.mpr ⟨rfl, fun member inside =>
      ⟨member.2, Entries.get?_of_mem distinct inside, ih member inside⟩⟩

theorem same_trans {first second third : Json} (left : same first second = true)
    (right : same second third = true) : same first third = true := by
  induction first generalizing second third with
  | array items ih =>
    cases second <;> simp only [same, Bool.false_eq_true] at left
    cases third <;> simp only [same, Bool.false_eq_true] at right ⊢
    rw [sameItems_iff] at left right ⊢
    refine forall₂_trans (forall₂_imp_of_mem left fun a inside b alike => ?_) right
      fun a b c (alike : a ∈ items ∧ same a b = true) alike' => ih a alike.1 alike.2 alike'
    exact ⟨inside, alike⟩
  | object members ih =>
    cases second <;> simp only [same, Bool.false_eq_true] at left
    cases third <;> simp only [same, Bool.false_eq_true] at right ⊢
    rw [Bool.and_eq_true, decide_eq_true_eq, sameMembers_iff] at left right ⊢
    refine ⟨left.1.trans right.1, fun member inside => ?_⟩
    obtain ⟨value, found, alike⟩ := left.2 member inside
    obtain ⟨other, found', alike'⟩ := right.2 _ (Entries.mem_of_get? found)
    exact ⟨other, found', ih member inside alike alike'⟩
  | number value =>
    cases second <;> simp only [same, Bool.false_eq_true] at left
    cases third <;> simp only [same, Bool.false_eq_true] at right ⊢
    exact Number.same_trans left right
  | _ =>
    cases second <;> simp only [same, Bool.false_eq_true, decide_eq_true_eq] at left
    cases third <;> simp_all [same]

/-- Two objects with as many members have the same keys when one has all keys of the other. -/
theorem keys_subset_of_same {first second : List (String × Json)}
    (distinct : (Entries.keys first).Nodup)
    (equal : same (.object first) (.object second) = true) :
    Entries.keys second ⊆ Entries.keys first := by
  obtain ⟨length, all⟩ := same_object_iff.mp equal
  have included : Entries.keys first ⊆ Entries.keys second := by
    intro key listed
    obtain ⟨member, inside, rfl⟩ := List.mem_map.mp listed
    obtain ⟨value, found, -⟩ := all member inside
    exact Entries.mem_keys_of_get? found
  have enough : (Entries.keys second).length ≤ (Entries.keys first).length := by
    simp [Entries.keys, length]
  exact ((List.subperm_of_subset distinct included).perm_of_length_le enough).symm.subset

theorem same_symm {first second : Json} (settled : first.Settled) (settled' : second.Settled)
    (equal : same first second = true) : same second first = true := by
  induction settled generalizing second with
  | array items each ih =>
    cases settled' with
    | array others each' =>
      have related := sameItems_iff.mp (by simpa only [same] using equal)
      exact sameItems_iff.mpr (forall₂_imp_of_members related fun a inside b inside' =>
        ih a inside (each' b inside')).flip
    | _ => simp [same] at equal
  | object members distinct each ih =>
    cases settled' with
    | object others distinct' each' =>
      obtain ⟨length, all⟩ := same_object_iff.mp equal
      refine same_object_iff.mpr ⟨length.symm, fun other inside => ?_⟩
      have listed := keys_subset_of_same distinct equal (List.mem_map_of_mem inside)
      obtain ⟨member, here, same_key⟩ := List.mem_map.mp listed
      obtain ⟨value, found, alike⟩ := all member here
      rw [same_key, Entries.get?_of_mem distinct' inside] at found
      cases found
      exact ⟨member.2, same_key ▸ Entries.get?_of_mem distinct here,
        ih member here (each' other inside) alike⟩
    | _ => simp [same] at equal
  | number value =>
    cases second <;> simp only [same, Bool.false_eq_true] at equal ⊢
    exact Number.same_symm equal
  | _ => cases second <;> simp_all [same]

end Json

namespace ModelType

mutual

/-- The defaults of all fields in the type are settled. -/
def Settled : ModelType → Prop
  | .array item => item.Settled
  | .map value => value.Settled
  | .union members => MembersSettled members
  | .object model => FieldsSettled model.fields
  | _ => True

def MembersSettled : List ModelType → Prop
  | [] => True
  | member :: rest => member.Settled ∧ MembersSettled rest

def FieldsSettled : List (Field ModelType) → Prop
  | [] => True
  | field :: rest =>
    (field.type.Settled ∧ ∀ value, field.default = some value → value.Settled) ∧
      FieldsSettled rest

end

theorem settled_union_iff {members : List ModelType} :
    Settled (.union members) ↔ ∀ member ∈ members, member.Settled := by
  change MembersSettled members ↔ _
  induction members with
  | nil => simp [MembersSettled]
  | cons member rest ih => rw [MembersSettled, ih, List.forall_mem_cons]

theorem settled_object_iff {model : ObjectModel ModelType} :
    Settled (.object model) ↔ ∀ field ∈ model.fields,
      field.type.Settled ∧ ∀ value, field.default = some value → value.Settled := by
  obtain ⟨name, description, fields⟩ := model
  change FieldsSettled fields ↔ ∀ field ∈ fields, _
  induction fields with
  | nil => simp [FieldsSettled]
  | cons field rest ih => rw [FieldsSettled, ih, List.forall_mem_cons]

theorem settled_ofScalar (shape : ScalarShape) : Settled (.ofScalar shape) := by
  unfold ofScalar
  split
  · split <;> trivial
  all_goals trivial

theorem sameDefault_refl {default : Option Json}
    (settled : ∀ value, default = some value → value.Settled) :
    sameDefault default default = true := by
  cases default with
  | none => rfl
  | some value => exact Json.same_refl (settled value rfl)

theorem sameDefault_symm {first second : Option Json}
    (settled : ∀ value, first = some value → value.Settled)
    (settled' : ∀ value, second = some value → value.Settled)
    (equal : sameDefault first second = true) : sameDefault second first = true := by
  cases first <;> cases second <;> simp only [sameDefault, Bool.false_eq_true] at equal ⊢
  exact Json.same_symm (settled _ rfl) (settled' _ rfl) equal

theorem sameDefault_trans {first second third : Option Json}
    (left : sameDefault first second = true) (right : sameDefault second third = true) :
    sameDefault first third = true := by
  cases first <;> cases second <;> cases third <;>
    simp only [sameDefault, Bool.false_eq_true] at left right ⊢
  exact Json.same_trans left right

theorem same_refl {type : ModelType} (settled : type.Settled) : same type type = true := by
  induction type with
  | array item ih => exact ih settled
  | map value ih => exact ih settled
  | union members ih =>
    exact sameMembers_iff.mpr (List.forall₂_same.mpr fun member inside =>
      ih member inside (settled_union_iff.mp settled member inside))
  | object model ih =>
    have fields : sameFields model.fields model.fields = true := by
      refine sameFields_iff.mpr (List.forall₂_same.mpr fun field inside => ?_)
      obtain ⟨type, default⟩ := settled_object_iff.mp settled field inside
      exact ⟨rfl, ih field inside type, rfl, rfl, rfl, sameDefault_refl default, rfl⟩
    simp [same, fields]
  | _ => simp [same]

theorem same_symm {first second : ModelType} (settled : first.Settled) (settled' : second.Settled)
    (equal : same first second = true) : same second first = true := by
  induction first generalizing second with
  | array item ih =>
    cases second <;> simp only [same, Bool.false_eq_true] at equal ⊢
    exact ih settled settled' equal
  | map value ih =>
    cases second <;> simp only [same, Bool.false_eq_true] at equal ⊢
    exact ih settled settled' equal
  | union members ih =>
    cases second <;> simp only [same, Bool.false_eq_true] at equal ⊢
    rw [sameMembers_iff] at equal ⊢
    rw [settled_union_iff] at settled settled'
    exact (forall₂_imp_of_members equal fun a inside b inside' =>
      ih a inside (settled a inside) (settled' b inside')).flip
  | object model ih =>
    cases second <;> simp only [same, Bool.false_eq_true, Bool.and_eq_true, decide_eq_true_eq]
      at equal ⊢
    rw [settled_object_iff] at settled settled'
    refine ⟨⟨equal.1.1.symm, equal.1.2.symm⟩, sameFields_iff.mpr (List.Forall₂.flip ?_)⟩
    refine forall₂_imp_of_members (sameFields_iff.mp equal.2) fun a inside b inside' alike => ?_
    obtain ⟨type, default⟩ := settled a inside
    obtain ⟨type', default'⟩ := settled' b inside'
    exact ⟨alike.name.symm, ih a inside type type' alike.type, alike.required.symm,
      alike.nullable.symm, alike.description.symm, sameDefault_symm default default' alike.default,
      alike.readOnly.symm⟩
  | _ => cases second <;> simp_all [same]

theorem same_trans {first second third : ModelType} (left : same first second = true)
    (right : same second third = true) : same first third = true := by
  induction first generalizing second third with
  | array item ih =>
    cases second <;> simp only [same, Bool.false_eq_true] at left
    cases third <;> simp only [same, Bool.false_eq_true] at right ⊢
    exact ih left right
  | map value ih =>
    cases second <;> simp only [same, Bool.false_eq_true] at left
    cases third <;> simp only [same, Bool.false_eq_true] at right ⊢
    exact ih left right
  | union members ih =>
    cases second <;> simp only [same, Bool.false_eq_true] at left
    cases third <;> simp only [same, Bool.false_eq_true] at right ⊢
    rw [sameMembers_iff] at left right ⊢
    exact forall₂_trans (forall₂_imp_of_mem left fun a inside b alike => And.intro inside alike)
      right fun a b c alike => ih a alike.1 alike.2
  | object model ih =>
    cases second <;> simp only [same, Bool.false_eq_true, Bool.and_eq_true, decide_eq_true_eq]
      at left
    cases third <;> simp only [same, Bool.false_eq_true, Bool.and_eq_true, decide_eq_true_eq]
      at right ⊢
    refine ⟨⟨left.1.1.trans right.1.1, left.1.2.trans right.1.2⟩, sameFields_iff.mpr ?_⟩
    refine forall₂_trans (forall₂_imp_of_mem (sameFields_iff.mp left.2)
      fun a inside b alike => And.intro inside alike) (sameFields_iff.mp right.2) ?_
    rintro a b c ⟨inside, alike⟩ alike'
    exact ⟨alike.name.trans alike'.name, ih a inside alike.type alike'.type,
      alike.required.trans alike'.required, alike.nullable.trans alike'.nullable,
      alike.description.trans alike'.description, sameDefault_trans alike.default alike'.default,
      alike.readOnly.trans alike'.readOnly⟩
  | _ =>
    cases second <;> simp only [same, Bool.false_eq_true, decide_eq_true_eq] at left
    cases third <;> simp_all [same]

end ModelType

end ResourceModels

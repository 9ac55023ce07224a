import Mathlib
import ResourceModels.Proofs.FieldAttributes
import ResourceModels.Proofs.Layouts
import ResourceModels.Proofs.Promotion

/-!
# The members of an enumeration

A value takes the first name that is free: its own, or else the first free one with a number behind
it. There are more names to try than are taken, so the search comes to an end however names and
numbers meet. Every value has a line with its name and a literal of it, and reading the lines gives
the names and the values back (`ofEnum_members`).
-/

namespace ResourceModels.Code

namespace ClassText

/-- The names that are tried for a value, one after another. -/
def triedName (base : String) : Nat → String
  | 0 => base
  | number + 1 => base ++ "_" ++ toString (number + 1)

theorem memberCandidates_eq (base : String) (numbered : Nat) :
    memberCandidates base numbered = (List.range (numbered + 1)).map (triedName base) := by
  rw [memberCandidates, List.range_succ_eq_map, List.map_cons, List.map_map]
  rfl

theorem ne_triedName_succ (base : String) (number : Nat) : base ≠ triedName base (number + 1) := by
  intro same
  have longer := congrArg String.length same
  have positive := Promotion.length_toString_pos (number + 1)
  rw [triedName, String.length_append _ (toString _), String.length_append] at longer
  omega

theorem triedName_injective (base : String) : Function.Injective (triedName base) := by
  intro first second same
  cases first with
  | zero =>
    cases second with
    | zero => rfl
    | succ second => exact absurd same (ne_triedName_succ base second)
  | succ first =>
    cases second with
    | zero => exact absurd same.symm (ne_triedName_succ base first)
    | succ second => exact Promotion.numbered_injective (base ++ "_") same

/-- The search stops at a name that is free, and all names before it were taken. -/
theorem freeMember_spec (taken : List String) (base : String) :
    ∃ tries, freeMember taken base = triedName base tries ∧ triedName base tries ∉ taken ∧
      ∀ earlier < tries, triedName base earlier ∈ taken := by
  have distinct : ((List.range (taken.length + 1)).map (triedName base)).Nodup :=
    List.nodup_range.map (triedName_injective base)
  have more : taken.length < ((List.range (taken.length + 1)).map (triedName base)).length := by
    simp
  obtain ⟨name, found⟩ := exists_free distinct more
  rw [freeMember, memberCandidates_eq, found, Option.getD_some]
  rw [List.find?_map, Option.map_eq_some_iff] at found
  obtain ⟨tries, first, rfl⟩ := found
  obtain ⟨free, -, occupied⟩ := List.find?_range_eq_some.mp first
  refine ⟨tries, rfl, by simpa using free, fun earlier before => ?_⟩
  simpa using occupied earlier before

/-- Names of values, each the first one that no name before it took. -/
inductive NamedInTurn : List String → List (String × String) → Prop
  | nil (taken : List String) : NamedInTurn taken []
  | cons (taken : List String) (value : String) (rest : List (String × String)) (tries : Nat)
      (free : triedName (memberName value) tries ∉ taken)
      (occupied : ∀ earlier < tries, triedName (memberName value) earlier ∈ taken)
      (later : NamedInTurn (triedName (memberName value) tries :: taken) rest) :
      NamedInTurn taken ((triedName (memberName value) tries, value) :: rest)

theorem members_named (taken values : List String) : NamedInTurn taken (members taken values) := by
  induction values generalizing taken with
  | nil => exact .nil taken
  | cons value rest ih =>
    obtain ⟨tries, same, free, occupied⟩ := freeMember_spec taken (memberName value)
    rw [members, same]
    exact .cons taken value _ tries free occupied (ih _)

theorem values_members (taken values : List String) :
    (members taken values).map Prod.snd = values := by
  induction values generalizing taken with
  | nil => rfl
  | cons value rest ih => rw [members, List.map_cons, ih]

namespace NamedInTurn

variable {taken : List String} {named : List (String × String)}

theorem fresh (inTurn : NamedInTurn taken named) :
    (named.map Prod.fst).Nodup ∧ ∀ name ∈ named.map Prod.fst, name ∉ taken := by
  induction inTurn with
  | nil taken => simp
  | cons taken value rest tries free occupied later ih =>
    obtain ⟨distinct, apart⟩ := ih
    have absent : triedName (memberName value) tries ∉ rest.map Prod.fst :=
      fun again => apart _ again List.mem_cons_self
    refine ⟨List.nodup_cons.mpr ⟨absent, distinct⟩, List.forall_mem_cons.mpr ⟨free, ?_⟩⟩
    intro name inside
    exact fun known => apart name inside (List.mem_cons_of_mem _ known)

/-- Where a member stands, the names before its own are those of members before it. -/
theorem tried (inTurn : NamedInTurn taken named) {before after : List (String × String)}
    {name value : String} (split : named = before ++ (name, value) :: after) :
    ∃ tries, name = triedName (memberName value) tries ∧
      ∀ earlier < tries, triedName (memberName value) earlier ∈ before.map Prod.fst ++ taken := by
  induction inTurn generalizing before with
  | nil taken => simp at split
  | cons taken first rest tries free occupied later ih =>
    cases before with
    | nil =>
      cases split
      exact ⟨tries, rfl, occupied⟩
    | cons member before =>
      obtain ⟨rfl, later_split⟩ := List.cons.inj split
      obtain ⟨tries', same, occupied'⟩ := ih later_split
      refine ⟨tries', same, fun earlier smaller => ?_⟩
      have inside := occupied' earlier smaller
      simp only [List.mem_append, List.mem_cons, List.map_cons] at inside ⊢
      tauto

end NamedInTurn

/-- What the members of an enumeration are. -/
structure EnumMembers (values : List String) (named : List (String × String)) : Prop where
  complete : named.map Prod.snd = values
  distinct : (named.map Prod.fst).Nodup
  /-- Names are tried until one is free. -/
  tried : ∀ before name value after, named = before ++ (name, value) :: after →
    ∃ tries, name = triedName (memberName value) tries ∧
      ∀ earlier < tries, triedName (memberName value) earlier ∈ before.map Prod.fst
  unnumbered : ∀ before name value after, named = before ++ (name, value) :: after →
    memberName value ∉ before.map Prod.fst → name = memberName value

theorem enumMembers_members (values : List String) : EnumMembers values (members [] values) := by
  have inTurn := members_named [] values
  have tried : ∀ before name value after, members [] values = before ++ (name, value) :: after →
      ∃ tries, name = triedName (memberName value) tries ∧
        ∀ earlier < tries, triedName (memberName value) earlier ∈ before.map Prod.fst := by
    intro before name value after split
    simpa using inTurn.tried split
  refine ⟨values_members [] values, inTurn.fresh.1, tried, ?_⟩
  intro before name value after split free
  obtain ⟨tries, same, occupied⟩ := tried before name value after split
  cases tries with
  | zero => exact same
  | succ tries => exact absurd (occupied 0 (Nat.succ_pos tries)) free

/-- The name that an indented line declares, and the text of the literal that it is given. -/
def readMember? (line : String) : Option (String × String) :=
  let indentation := line.toList.take Layout.level
  let declared := line.toList.drop Layout.level
  if line.toList.any breaksLine ∨ indentation ≠ List.replicate Layout.level ' ' then none
  else
    match declared.dropWhile continuesIdentifier with
    | ' ' :: '=' :: ' ' :: literal =>
      (literalText? (String.ofList literal)).map fun value =>
        (String.ofList (declared.takeWhile continuesIdentifier), value)
    | _ => none

/-- The members that the body of a class declares. -/
def readMembers? (body : List String) : Option (List (String × String)) :=
  if body = [emptyBody] then some [] else body.mapM readMember?

theorem isWord_memberName (value : String) : IsWord (memberName value) := by
  rw [memberName]
  split
  next legal => exact (isIdentifier_iff.mp legal).1.word
  next => exact isWord_fieldName value

theorem isWord_triedName {base : String} (word : IsWord base) (tries : Nat) :
    IsWord (triedName base tries) := by
  cases tries with
  | zero => exact word
  | succ number => exact (word.append .underscore).append (Imports.isWord_toString _)

theorem NamedInTurn.words {taken : List String} {named : List (String × String)}
    (inTurn : NamedInTurn taken named) : ∀ member ∈ named, IsWord member.1 := by
  induction inTurn with
  | nil taken => simp
  | cons taken value rest tries free occupied later ih =>
    exact List.forall_mem_cons.mpr ⟨isWord_triedName (isWord_memberName value) tries, ih⟩

theorem breaksLine_of_word {c : Char} (word : continuesIdentifier c = true) :
    breaksLine c = false := by
  simp [breaksLine, ne_of_kind word (d := '\n') rfl, ne_of_kind word (d := '\r') rfl,
    ne_of_kind word (d := '\x00') rfl]

theorem readMember?_pad {name : String} (word : IsWord name) (preferDouble : Bool)
    (value : String) :
    readMember? (Layout.pad Layout.level (name ++ " = " ++ quote preferDouble value)) =
      some (name, value) := by
  have continues : ∀ c ∈ name.toList, continuesIdentifier c = true :=
    fun c inside => continuesIdentifier_iff.mpr (word c inside)
  have literal_line : ∀ c ∈ (quote preferDouble value).toList, breaksLine c = false := by
    rw [quote, String.toList_ofList]
    exact line_quoteEscaped preferDouble value.toList
  have read := literalText?_quote preferDouble value
  generalize quote preferDouble value = literal at literal_line read ⊢
  have spelling : (Layout.pad Layout.level (name ++ " = " ++ literal)).toList =
      List.replicate Layout.level ' ' ++ (name.toList ++ ' ' :: '=' :: ' ' :: literal.toList) := by
    simp [Layout.toList_pad]
  have line : ∀ c ∈ List.replicate Layout.level ' ' ++
      (name.toList ++ ' ' :: '=' :: ' ' :: literal.toList), breaksLine c = false := by
    simp only [List.mem_append, List.mem_cons, List.mem_replicate]
    rintro c (⟨-, rfl⟩ | inside | rfl | rfl | rfl | inside)
    · rfl
    · exact breaksLine_of_word (continues c inside)
    · rfl
    · rfl
    · rfl
    · exact literal_line c inside
  have whole_line := List.any_eq_false.mpr fun c inside => Bool.eq_false_iff.mp (line c inside)
  have apart : StartsWithout continuesIdentifier (' ' :: '=' :: ' ' :: literal.toList) :=
    startsWithout_cons (by decide) _
  have indentation : (List.replicate Layout.level ' ').length = Layout.level :=
    List.length_replicate
  rw [readMember?, spelling, List.take_left' indentation, List.drop_left' indentation,
    takeWhile_apart continues apart, dropWhile_apart continues apart, whole_line]
  simp [read]

theorem readMembers?_members {named : List (String × String)}
    (words : ∀ member ∈ named, IsWord member.1) (preferDouble : Bool) :
    readMembers? (if named.isEmpty then [emptyBody] else named.map fun (name, value) =>
      Layout.pad Layout.level (name ++ " = " ++ quote preferDouble value)) = some named := by
  have lines_read : (named.map fun (name, value) => Layout.pad Layout.level
      (name ++ " = " ++ quote preferDouble value)).mapM readMember? = some named := by
    rw [mapM_eq_some_iff, List.forall₂_map_left_iff, List.forall₂_same]
    exact fun member inside => readMember?_pad (words member inside) preferDouble member.2
  cases named with
  | nil => rfl
  | cons member rest =>
    have no_member : readMember? emptyBody = none := by decide
    rw [List.isEmpty_cons, if_neg Bool.false_ne_true, readMembers?, if_neg, lines_read]
    intro empty
    rw [empty, List.mapM_cons, no_member] at lines_read
    cases lines_read

/-- Behind the head of the class there is a line for each value in turn, with a name of its own and
a literal of the value. A value has its own name unless a member before it took that. -/
theorem ofEnum_members (style : Style) (model : EnumModel) :
    ∃ named body, (ofEnum style model).lines = ("class " ++ model.name ++ "(Enum):") :: body ∧
      readMembers? body = some named ∧ EnumMembers model.variants named := by
  have inTurn := members_named [] model.variants
  have complete := values_members [] model.variants
  refine ⟨members [] model.variants, _, rfl, ?_, enumMembers_members model.variants⟩
  have same_empty : model.variants.isEmpty = (members [] model.variants).isEmpty := by
    rw [← List.isEmpty_map (f := Prod.snd), complete]
  rw [same_empty]
  exact readMembers?_members inTurn.words style.preferDouble

/-- The number that would be next belongs to a value in between. -/
example : members [] ["a-b", "a_b_1", "a.b"] =
    [("a_b", "a-b"), ("a_b_1", "a_b_1"), ("a_b_2", "a.b")] := by decide +kernel

end ClassText

end ResourceModels.Code

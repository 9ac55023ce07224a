import Mathlib
import ResourceModels.Code.Hint
import ResourceModels.Proofs.Entries
import ResourceModels.Proofs.FileOrder
import ResourceModels.Proofs.ImportLines
import ResourceModels.Proofs.Promotion

/-!
# Modules and the names they are bound to

A module that refers to others binds each of them to a name of its own: the plain one, or a numbered
one where that is taken. The hints name a class of another module behind the binding of that module,
and the import lines establish just these bindings (`between_sound`).
-/

namespace ResourceModels.Code

namespace Imports

/-- The other modules among those referred to. -/
def others (current : ModulePath) (referenced : List ModulePath) : List ModulePath :=
  (referenced.filter (· ≠ current)).dedup

theorem mem_others {current path : ModulePath} {referenced : List ModulePath} :
    path ∈ others current referenced ↔ path ∈ referenced ∧ path ≠ current := by
  simp [others]

theorem mem_distinct {paths : List ModulePath} {path : ModulePath} :
    path ∈ distinct paths ↔ path ∈ paths := by
  refine ⟨mem_of_mem_distinct, fun listed => ?_⟩
  induction paths with
  | nil => cases listed
  | cons first rest ih =>
    cases rest with
    | nil => exact listed
    | cons second others =>
      rw [distinct]
      split
      next same =>
        rcases List.mem_cons.mp listed with rfl | later
        · exact ih (same ▸ List.mem_cons_self)
        · exact ih later
      next =>
        rcases List.mem_cons.mp listed with rfl | later
        · exact List.mem_cons_self
        · exact List.mem_cons_of_mem _ (ih later)

/-- In a sorted list equal members stand side by side. -/
theorem nodup_distinct {paths : List ModulePath}
    (sorted : paths.Pairwise fun a b => ModulePath.le a b = true) : (distinct paths).Nodup := by
  induction paths with
  | nil => exact List.nodup_nil
  | cons first rest ih =>
    obtain ⟨least, sorted_rest⟩ := List.pairwise_cons.mp sorted
    cases rest with
    | nil => exact List.nodup_singleton first
    | cons second others =>
      rw [distinct]
      split
      next => exact ih sorted_rest
      next different =>
        refine List.nodup_cons.mpr ⟨fun again => ?_, ih sorted_rest⟩
        have here := mem_of_mem_distinct again
        have second_le : ModulePath.le second first = true := by
          rcases List.mem_cons.mp here with same | later
          · exact absurd same different
          · exact List.rel_of_pairwise_cons sorted_rest later
        exact different (ModulePath.le_antisymm (least second List.mem_cons_self) second_le)

/-- Sorting and dropping repetitions keeps the modules to import. -/
theorem distinct_perm_others (current : ModulePath) (referenced : List ModulePath) :
    (distinct ((referenced.filter (· ≠ current)).mergeSort ModulePath.le)).Perm
      (others current referenced) := by
  have sorted := ModulePath.sorted_mergeSort id (referenced.filter (· ≠ current))
  refine (List.perm_ext_iff_of_nodup (nodup_distinct sorted) (List.nodup_dedup _)).mpr ?_
  intro path
  rw [mem_distinct, List.mem_mergeSort, List.mem_dedup]

/-- There are more numbers than taken names, so one of the numbered names is free. -/
theorem numbered_spec (bound : List String) (name : String) :
    numbered bound name ∉ bound ∧
      ∃ number, 0 < number ∧ numbered bound name = name ++ "_" ++ toString number := by
  have distinct : ((List.range (bound.length + 1)).map fun i =>
      name ++ "_" ++ toString (i + 1)).Nodup :=
    List.nodup_range.map ((Promotion.numbered_injective (name ++ "_")).comp Nat.succ_injective)
  have more : bound.length < ((List.range (bound.length + 1)).map fun i =>
      name ++ "_" ++ toString (i + 1)).length := by simp
  obtain ⟨free, found⟩ := exists_free distinct more
  rw [numbered, found]
  obtain ⟨i, -, same⟩ := List.mem_map.mp (List.mem_of_find?_eq_some found)
  exact ⟨by simpa using List.find?_some found, i + 1, Nat.succ_pos i, same.symm⟩

/-- The same import, bound to its own name or to a numbered one. -/
structure Binds (before after : ModulePath × RelativeImport) : Prop where
  path : after.1 = before.1
  clause : after.2.fromClause = before.2.fromClause
  name : after.2.name = before.2.name
  binding : after.2.binding = before.2.name ∨
    ∃ number, 0 < number ∧ after.2.binding = before.2.name ++ "_" ++ toString number

/-- Imports keep their order and their modules, and get different names, none of them taken. -/
theorem bind_spec (bound : List String) {imports : Imports}
    (unbound : ∀ entry ∈ imports, entry.2.boundAs = none) :
    List.Forall₂ Binds imports (bind bound imports) ∧
      ((bind bound imports).map fun entry => entry.2.binding).Nodup ∧
      ∀ entry ∈ bind bound imports, entry.2.binding ∉ bound := by
  induction imports generalizing bound with
  | nil => exact ⟨.nil, List.nodup_nil, by simp [bind]⟩
  | cons entry rest ih =>
    obtain ⟨path, relative⟩ := entry
    obtain ⟨own_name, rest_unbound⟩ := List.forall_mem_cons.mp unbound
    obtain ⟨binding, head, binds, binding_eq, fresh, rest_eq⟩ : ∃ binding head,
        Binds (path, relative) head ∧ head.2.binding = binding ∧ binding ∉ bound ∧
          bind bound ((path, relative) :: rest) = head :: bind (binding :: bound) rest := by
      rw [bind]
      split
      next taken =>
        obtain ⟨free, number, positive, same⟩ := numbered_spec bound relative.name
        exact ⟨_, (path, { relative with boundAs := some (numbered bound relative.name) }),
          ⟨rfl, rfl, rfl, .inr ⟨number, positive, same⟩⟩, rfl, free, rfl⟩
      next free =>
        have plain : relative.binding = relative.name := by
          rw [RelativeImport.binding, own_name, Option.getD_none]
        exact ⟨_, _, ⟨rfl, rfl, rfl, .inl plain⟩, plain, free, rfl⟩
    obtain ⟨rest_binds, rest_nodup, rest_fresh⟩ := ih (binding :: bound) rest_unbound
    rw [rest_eq]
    refine ⟨.cons binds rest_binds, ?_, ?_⟩
    · rw [List.map_cons, binding_eq, List.nodup_cons]
      refine ⟨fun again => ?_, rest_nodup⟩
      obtain ⟨later, listed, same⟩ := List.mem_map.mp again
      exact rest_fresh later listed (same ▸ List.mem_cons_self)
    · refine List.forall_mem_cons.mpr ⟨binding_eq ▸ fresh, fun later listed inside => ?_⟩
      exact rest_fresh later listed (List.mem_cons_of_mem _ inside)

variable {current path : ModulePath} {referenced : List ModulePath}

/-- The name that the module at `path` is bound to. -/
def bindingOf (imports : Imports) (path : ModulePath) : String :=
  ((Entries.get? imports path).map RelativeImport.binding).getD ""

/-- The last segment of a namespace, as it can be imported. -/
def ownName (path : ModulePath) : String := (modulePath path).getLast?.getD ""

theorem bindingOf_of_mem {imports : Imports} (distinct : (Entries.keys imports).Nodup)
    {entry : ModulePath × RelativeImport} (listed : entry ∈ imports) :
    bindingOf imports entry.1 = entry.2.binding := by
  rw [bindingOf, Entries.get?_of_mem distinct listed]
  rfl

/-- Each other module is imported once, as `Binds` says, and all bindings differ. -/
theorem between_spec (current : ModulePath) (referenced : List ModulePath) :
    (Entries.keys (between current referenced)).Perm (others current referenced) ∧
      ((between current referenced).map fun entry => entry.2.binding).Nodup ∧
      ∀ entry ∈ between current referenced,
        Binds (entry.1, RelativeImport.between current entry.1) entry := by
  obtain ⟨paths, paths_eq⟩ : ∃ paths, paths =
    distinct ((referenced.filter (· ≠ current)).mergeSort ModulePath.le) := ⟨_, rfl⟩
  obtain ⟨sorted, sorted_eq⟩ : ∃ sorted, sorted =
    (paths.map fun path => (path, RelativeImport.between current path)).mergeSort
      fun a b => a.2.le b.2 := ⟨_, rfl⟩
  have sorted_perm :
      sorted.Perm (paths.map fun path => (path, RelativeImport.between current path)) :=
    sorted_eq ▸ List.mergeSort_perm _ _
  have sorted_entries : ∀ entry ∈ sorted, entry.2 = RelativeImport.between current entry.1 := by
    intro entry listed
    obtain ⟨path, -, rfl⟩ := List.mem_map.mp (sorted_perm.mem_iff.mp listed)
    rfl
  have unbound : ∀ entry ∈ sorted, entry.2.boundAs = none := by
    intro entry listed
    rw [sorted_entries entry listed]
    rfl
  obtain ⟨binds, nodup, -⟩ := bind_spec [] unbound
  have between_eq : between current referenced = bind [] sorted := by
    rw [sorted_eq, paths_eq]
    rfl
  rw [between_eq]
  refine ⟨?_, nodup, fun entry listed => ?_⟩
  · have same_keys : Entries.keys (bind [] sorted) = sorted.map Prod.fst :=
      map_eq_map_of_forall₂ binds fun before after related => related.path
    have paths_perm := sorted_perm.map Prod.fst
    rw [List.map_map, Function.comp_def, List.map_id'] at paths_perm
    rw [same_keys]
    exact paths_perm.trans (paths_eq ▸ distinct_perm_others current referenced)
  · obtain ⟨before, present, related⟩ := exists_left_of_forall₂ binds listed
    have before_eq : before = (entry.1, RelativeImport.between current entry.1) := by
      rw [related.path, ← sorted_entries before present]
    exact before_eq ▸ related

theorem nodup_keys_between (current : ModulePath) (referenced : List ModulePath) :
    (Entries.keys (between current referenced)).Nodup :=
  (between_spec current referenced).1.nodup_iff.mpr (List.nodup_dedup _)

theorem exists_entry (listed : path ∈ others current referenced) :
    ∃ relative, (path, relative) ∈ between current referenced ∧
      Entries.get? (between current referenced) path = some relative := by
  have key : path ∈ Entries.keys (between current referenced) :=
    (between_spec current referenced).1.mem_iff.mpr listed
  obtain ⟨⟨_, relative⟩, imported, rfl⟩ := List.mem_map.mp key
  exact ⟨relative, imported, Entries.get?_of_mem (nodup_keys_between current referenced) imported⟩

/-- A numbered word is a word. -/
theorem isWord_toString (number : Nat) : IsWord (toString number) := by
  intro c inside
  rw [Nat.toString_eq_repr, Nat.toList_repr] at inside
  have digit := Nat.isDigit_of_mem_toDigits (by decide) (by decide) inside
  have bounds : '0' ≤ c ∧ c ≤ '9' := by simpa [Char.isDigit, Char.le_def] using digit
  have ascii : c.toNat < 0x80 := by
    have upper : c.toNat ≤ '9'.toNat := bounds.2
    have nine : '9'.toNat = 57 := rfl
    omega
  refine .inr ?_
  simp [Text.isAlphanumeric, Text.isNumeric, Text.isAscii, ascii, Text.isAsciiDigit, bounds]

theorem isWord_ownName (path : ModulePath) : IsWord (ownName path) := by
  unfold ownName
  cases found : (modulePath path).getLast? with
  | none =>
    intro c inside
    cases inside
  | some last =>
    obtain ⟨segment, -, rfl⟩ := List.mem_map.mp (List.mem_of_getLast? found)
    exact isWord_moduleSegment segment

theorem plain_of_mem {entry : ModulePath × RelativeImport}
    (listed : entry ∈ between current referenced) : entry.2.Plain := by
  obtain ⟨-, -, name, binding⟩ := (between_spec current referenced).2.2 entry listed
  have own_word : IsWord (ownName entry.1) := isWord_ownName entry.1
  refine ⟨name ▸ own_word, ?_⟩
  rcases binding with plain | ⟨number, -, numbered⟩
  · rw [plain]
    exact own_word
  · rw [numbered]
    exact (own_word.append .underscore).append (isWord_toString number)

theorem leads_of_mem (nonempty : ∀ path ∈ referenced, path ≠ [])
    {entry : ModulePath × RelativeImport} (listed : entry ∈ between current referenced) :
    Leads current entry.1 entry.2 := by
  obtain ⟨keys_perm, -, binds⟩ := between_spec current referenced
  have in_others := keys_perm.mem_iff.mp (List.mem_map_of_mem listed)
  obtain ⟨-, clause, name, -⟩ := binds entry listed
  exact ⟨nonempty _ (mem_others.mp in_others).1, plain_of_mem listed, clause, name⟩

end Imports

/-- The text of an alternative that may be null; one that shows it already is left alone. -/
def optionalText (text : String) : String :=
  if Hint.startsOptional text || text = "None" then text else "Optional[" ++ text ++ "]"

/-- The text for several alternatives. -/
def alternativesText (nullable : Bool) : List String → String
  | [] => "None"
  | [text] => if nullable then optionalText text else text
  | texts =>
    let text := "Union[" ++ ", ".intercalate texts ++ "]"
    if nullable then "Optional[" ++ text ++ "]" else text

/-- The text of a type, where `naming` names its classes. -/
inductive Written (naming : ClassRef → String) : ModelType → String → Prop
  | string : Written naming .string "str"
  | number : Written naming .number "float"
  | integer : Written naming .integer "int"
  | boolean : Written naming .boolean "bool"
  | null : Written naming .null "None"
  | dateTime : Written naming .dateTime "datetime"
  | date : Written naming .date "date"
  | binary : Written naming .binary "bytes"
  | any : Written naming .any "Any"
  | ref (target : ClassRef) : Written naming (.ref target) (naming target)
  | array (item : ModelType) (text : String) (inner : Written naming item text) :
      Written naming (.array item) ("List[" ++ text ++ "]")
  | map (value : ModelType) (text : String) (inner : Written naming value text) :
      Written naming (.map value) ("Dict[str, " ++ text ++ "]")
  | object (model : ObjectModel ModelType) : Written naming (.object model) "Dict[str, Any]"
  | enum (model : EnumModel) : Written naming (.enum model) "str"
  | union (members : List ModelType) (texts : List String)
      (inner : List.Forall₂ (Written naming) (members.filter (!·.isNull)) texts) :
      Written naming (.union members) (alternativesText (members.any ModelType.isNull) texts)

namespace Hint

theorem texts_eq (hints : List Hint) : texts hints = hints.map text := by
  induction hints with
  | nil => rfl
  | cons hint rest ih => rw [texts, ih, List.map_cons]

theorem text_apply (name : LibraryName) (arguments : List Hint) :
    (apply name arguments).text =
      name.text ++ "[" ++ ", ".intercalate (arguments.map text) ++ "]" := by
  rw [text, texts_eq]

theorem text_optional (hint : Hint) : hint.optional.text = optionalText hint.text := by
  have opening : LibraryName.optional.text ++ "[" = "Optional[" := by decide
  have null_text : null.text = "None" := by rw [null, text]
  unfold optional optionalText
  rw [null_text]
  split
  · rfl
  · rw [text_apply, opening, List.map_singleton, String.intercalate_singleton]

/-- The text of a union does not show whether null is admitted. -/
theorem optionalText_union (inner : String) :
    optionalText ("Union[" ++ inner ++ "]") = "Optional[" ++ ("Union[" ++ inner ++ "]") ++ "]" := by
  have chars : ("Union[" ++ inner ++ "]").toList =
      'U' :: ("nion[".toList ++ inner.toList ++ "]".toList) := by
    rw [String.toList_append, String.toList_append]
    rfl
  have not_optional : startsOptional ("Union[" ++ inner ++ "]") = false := by
    rw [startsOptional, chars]
    rfl
  have not_none : "Union[" ++ inner ++ "]" ≠ "None" := by
    intro same
    have same_chars := congrArg String.toList same
    rw [chars] at same_chars
    exact absurd (List.cons.inj same_chars).1 (by decide)
  rw [optionalText, if_neg]
  simp [not_optional, not_none]

theorem text_alternatives (hints : List Hint) (nullable : Bool) :
    (alternatives hints nullable).text = alternativesText nullable (hints.map text) := by
  match hints with
  | [] => rfl
  | [hint] =>
    cases nullable with
    | true => exact text_optional hint
    | false => rfl
  | first :: second :: rest =>
    have opening : LibraryName.union.text ++ "[" = "Union[" := by decide
    have union_text : (apply .union (first :: second :: rest)).text =
        "Union[" ++ ", ".intercalate ((first :: second :: rest).map text) ++ "]" := by
      rw [text_apply, opening]
    cases nullable with
    | true =>
      change (apply .union (first :: second :: rest)).optional.text = _
      rw [text_optional, union_text, optionalText_union]
      rfl
    | false => exact union_text

theorem ofMembers_eq (current : ModulePath) (imports : Imports) (members : List ModelType) :
    ofMembers current imports members =
      (members.filter (!·.isNull)).map (ofType current imports) := by
  induction members with
  | nil => rw [ofMembers]; rfl
  | cons member rest ih =>
    rw [ofMembers]
    cases null : member.isNull <;> simp [null, ih]

/-- A type is written with the names that `naming` has for the classes in it. -/
theorem ofType_written {current : ModulePath} {imports : Imports} {naming : ClassRef → String}
    (type : ModelType)
    (agree : ∀ target ∈ type.refs, (ofRef current imports target).text = naming target) :
    Written naming type (ofType current imports type).text := by
  induction type using ModelType.tree_induction with
  | string => exact .string
  | number => exact .number
  | integer => exact .integer
  | boolean => exact .boolean
  | null => exact .null
  | dateTime => exact .dateTime
  | date => exact .date
  | binary => exact .binary
  | any => exact .any
  | ref target =>
    rw [ofType, agree target (List.mem_singleton.mpr rfl)]
    exact .ref target
  | array item ih =>
    have opening : LibraryName.list.text ++ "[" = "List[" := by decide
    rw [ofType, text_apply, opening, List.map_singleton, String.intercalate_singleton]
    exact .array item _ (ih agree)
  | map value ih =>
    have opening : LibraryName.dict.text ++ "[" = "Dict[" := by decide
    have joined : "Dict[" ++ ("str" ++ ", " ++ (ofType current imports value).text) ++ "]" =
        "Dict[str, " ++ (ofType current imports value).text ++ "]" := by
      rw [← String.toList_inj]
      simp
    rw [ofType, text_apply, opening, List.map_cons, List.map_singleton,
      String.intercalate_cons_cons, String.intercalate_singleton]
    exact joined ▸ .map value _ (ih agree)
  | union members ih =>
    rw [ofType, text_alternatives, ofMembers_eq, List.map_map]
    refine .union members _ (List.forall₂_map_right_iff.mpr (List.forall₂_same.mpr ?_))
    intro member listed
    have present := List.mem_of_mem_filter listed
    refine ih member present fun target inside => agree target ?_
    rw [ModelType.refs, ModelType.mem_refsOfMembers]
    exact ⟨member, present, inside⟩
  | object model ih => exact .object model
  | enum model => exact .enum model

end Hint

namespace Imports

/-- The name of a class in the module `current`: bare in its own module, and behind the binding of
its module elsewhere. -/
def naming (current : ModulePath) (imports : Imports) (target : ClassRef) : String :=
  if target.path = current then target.name
  else bindingOf imports target.path ++ "." ++ target.name

/-- What the imports of a module are good for. -/
structure Sound (current : ModulePath) (referenced : List ModulePath) (imports : Imports) :
    Prop where
  /-- Every other module has a binding: its own name or a numbered one. -/
  bound : ∀ path ∈ others current referenced, (Entries.get? imports path).isSome = true ∧
    (bindingOf imports path = ownName path ∨
      ∃ number, 0 < number ∧ bindingOf imports path = ownName path ++ "_" ++ toString number)
  /-- No two modules have the same binding. -/
  apart : ∀ first ∈ others current referenced, ∀ second ∈ others current referenced,
    bindingOf imports first = bindingOf imports second → first = second
  /-- Hints name each class through the binding of its module. -/
  hints : ∀ type : ModelType,
    (∀ target ∈ type.refs, target.path = current ∨ target.path ∈ referenced) →
    Written (naming current imports) type (Hint.ofType current imports type).text
  /-- The import lines establish these bindings, each once, and no others. -/
  lines : ∃ items,
    imports.lines.mapM (readLine? (modulePath current).dropLast) = some items ∧
    items.flatten.Perm
      ((others current referenced).map fun path => (modulePath path, bindingOf imports path))

/-- The imports of a module are sound, whatever modules it refers to. -/
theorem between_sound (current : ModulePath) (referenced : List ModulePath)
    (nonempty : ∀ path ∈ referenced, path ≠ []) :
    Sound current referenced (between current referenced) := by
  obtain ⟨keys_perm, bindings_nodup, binds⟩ := between_spec current referenced
  have keys_nodup := nodup_keys_between current referenced
  have binding_of : ∀ entry ∈ between current referenced,
      bindingOf (between current referenced) entry.1 = entry.2.binding :=
    fun _ listed => bindingOf_of_mem keys_nodup listed
  constructor
  case bound =>
    intro path listed
    obtain ⟨relative, imported, found⟩ := exists_entry listed
    refine ⟨by rw [found]; rfl, ?_⟩
    rw [binding_of _ imported]
    exact (binds _ imported).binding
  case apart =>
    intro first first_listed second second_listed same
    obtain ⟨_, first_imported, -⟩ := exists_entry first_listed
    obtain ⟨_, second_imported, -⟩ := exists_entry second_listed
    rw [binding_of _ first_imported, binding_of _ second_imported] at same
    have entries_same := List.inj_on_of_nodup_map bindings_nodup first_imported second_imported same
    exact congrArg Prod.fst entries_same
  case hints =>
    refine fun type known => Hint.ofType_written type fun target inside => ?_
    unfold Hint.ofRef naming
    split
    next => rfl
    next elsewhere =>
      have other := mem_others.mpr ⟨(known target inside).resolve_left elsewhere, elsewhere⟩
      obtain ⟨relative, imported, found⟩ := exists_entry other
      rw [binding_of _ imported, found]
      rfl
  case lines =>
    obtain ⟨items, read, listed⟩ :=
      lines_read fun entry imported => @leads_of_mem current _ nonempty _ imported
    refine ⟨items, read, listed.trans ?_⟩
    have by_path : (between current referenced).map (fun entry =>
        (modulePath entry.1, entry.2.binding)) =
        (Entries.keys (between current referenced)).map fun path =>
          (modulePath path, bindingOf (between current referenced) path) := by
      rw [Entries.keys, List.map_map]
      exact List.map_congr_left fun entry imported => by
        rw [Function.comp_apply, binding_of entry imported]
    rw [by_path]
    exact keys_perm.map _

/-- A module that has the name which another one is given as its numbered name. -/
def namesakes : List ModulePath :=
  [["k8s", "apps", "v1"], ["k8s", "core", "v1"], ["k8s", "meta", "v1"], ["k8s", "storage", "v1_1"]]

theorem namesakes_sound :
    (∀ path ∈ namesakes, path ≠ []) ∧
    Sound ["k8s", "apps", "v1"] namesakes (between ["k8s", "apps", "v1"] namesakes) ∧
    (between ["k8s", "apps", "v1"] namesakes).lines =
      ["from ..core import v1", "from ..meta import v1 as v1_1",
        "from ..storage import v1_1 as v1_1_1"] :=
  ⟨by decide, between_sound _ _ (by decide), by cbv⟩

end Imports

end ResourceModels.Code

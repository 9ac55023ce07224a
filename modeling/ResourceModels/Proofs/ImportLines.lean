import Mathlib
import ResourceModels.Code.RelativeImport
import ResourceModels.Proofs.Lists
import ResourceModels.Proofs.Output

/-!
# Import lines read back

A line `from <clause> import <items>` names a package, seen from the package of the module it stands
in, and then modules of that package, each possibly under another name. `readLine?` reads such a
line. Written out, imports are read back as they are: the lines together name each module once,
with its binding (`lines_read`).
-/

namespace ResourceModels.Code

namespace RelativeImport

/-- An import as it is listed in a line. -/
def item (relative : RelativeImport) : String :=
  match relative.boundAs with
  | some name => relative.name ++ " as " ++ name
  | none => relative.name

/-- The name and the binding can be told apart from what stands around them. -/
structure Plain (relative : RelativeImport) : Prop where
  name : IsWord relative.name
  binding : IsWord relative.binding

end RelativeImport

namespace Imports

/-- The package that a clause means in a module of `package`: one dot for that package itself, one
more for each package above, and then the packages below. -/
def reached? (package : ModulePath) (clause : List Char) : Option ModulePath :=
  let climb := (clause.takeWhile (· = '.')).length
  let below := clause.dropWhile (· = '.')
  if 0 < climb ∧ climb ≤ package.length + 1 then
    some (package.take (package.length + 1 - climb) ++
      if below.isEmpty then [] else (Text.pieces (· = '.') below).map String.ofList)
  else none

/-- The name of an item, and the name it is bound to. -/
def item? : List (List Char) → Option (String × String)
  | [name] => some (String.ofList name, String.ofList name)
  | [name, between, binding] =>
    if between = "as".toList then some (String.ofList name, String.ofList binding) else none
  | _ => none

/-- An item after a comma. -/
def nextItem? (text : List Char) : Option (String × String) :=
  match Text.pieces (· = ' ') text with
  | [] :: words => item? words
  | _ => none

/-- The modules that a line imports, each with its binding. -/
def readLine? (package : ModulePath) (line : String) : Option (List (ModulePath × String)) :=
  match Text.pieces (· = ',') line.toList with
  | [] => none
  | head :: rest =>
    match Text.pieces (· = ' ') head with
    | first :: clause :: third :: words =>
      if first = "from".toList ∧ third = "import".toList then do
        let above ← reached? package clause
        let item ← item? words
        let others ← rest.mapM nextItem?
        some ((item :: others).map fun (name, binding) => (above ++ [name], binding))
      else none
    | _ => none

variable {relative : RelativeImport}

theorem no_blank {text : String} (word : IsWord text) : ' ' ∉ text.toList :=
  word.not_mem (by decide) (by decide)

theorem no_comma {text : String} (word : IsWord text) : ',' ∉ text.toList :=
  word.not_mem (by decide) (by decide)

theorem item?_item (plain : relative.Plain) :
    item? (Text.pieces (· = ' ') relative.item.toList) =
      some (relative.name, relative.binding) := by
  have name_whole := Text.pieces_of_not_mem (no_blank plain.name)
  obtain ⟨dots, package, name, boundAs⟩ := relative
  cases boundAs with
  | none =>
    change item? (Text.pieces (· = ' ') name.toList) = _
    rw [name_whole, item?, String.ofList_toList]
    rfl
  | some binding =>
    have binding_whole : Text.pieces (· = ' ') binding.toList = [binding.toList] :=
      Text.pieces_of_not_mem (no_blank plain.binding)
    have as_whole : Text.pieces (· = ' ') "as".toList = ["as".toList] :=
      Text.pieces_of_not_mem (by decide)
    have text_eq : (name ++ " as " ++ binding).toList =
        name.toList ++ ' ' :: ("as".toList ++ ' ' :: binding.toList) := by
      rw [String.toList_append, String.toList_append, List.append_assoc]
      rfl
    change item? (Text.pieces (· = ' ') (name ++ " as " ++ binding).toList) = _
    rw [text_eq, Text.pieces_append (decide_eq_true rfl), Text.pieces_append (decide_eq_true rfl),
      name_whole, as_whole]
    change item? (name.toList :: "as".toList :: Text.pieces (· = ' ') binding.toList) = _
    rw [binding_whole, item?, if_pos rfl, String.ofList_toList, String.ofList_toList]
    rfl

theorem no_comma_item (plain : relative.Plain) : ',' ∉ relative.item.toList := by
  have name_plain := no_comma plain.name
  have binding_plain := no_comma plain.binding
  obtain ⟨dots, package, name, boundAs⟩ := relative
  cases boundAs with
  | none => exact name_plain
  | some binding =>
    change ',' ∉ (name ++ " as " ++ binding).toList
    rw [String.toList_append, String.toList_append, List.mem_append, List.mem_append]
    rintro ((inside | inside) | inside)
    · exact name_plain inside
    · exact absurd inside (by decide)
    · exact binding_plain inside

/-- Each text after a comma and a blank. -/
def following (texts : List String) : List Char :=
  texts.flatMap fun text => ',' :: ' ' :: text.toList

theorem intercalate_toList (text : String) (rest : List String) :
    (", ".intercalate (text :: rest)).toList = text.toList ++ following rest := by
  induction rest generalizing text with
  | nil => rw [String.intercalate_singleton, following, List.flatMap_nil, List.append_nil]
  | cons next rest ih =>
    have comma : (", " : String).toList = [',', ' '] := by decide
    rw [String.intercalate_cons_cons, String.toList_append, String.toList_append, ih, comma,
      List.append_assoc]
    rfl

theorem pieces_following {head : List Char} (whole : ',' ∉ head) {texts : List String}
    (each : ∀ text ∈ texts, ',' ∉ text.toList) :
    Text.pieces (· = ',') (head ++ following texts) =
      head :: texts.map fun text => ' ' :: text.toList := by
  induction texts generalizing head with
  | nil =>
    rw [following, List.flatMap_nil, List.append_nil]
    exact Text.pieces_of_not_mem whole
  | cons text rest ih =>
    obtain ⟨here, later⟩ := List.forall_mem_cons.mp each
    have next : ',' ∉ ' ' :: text.toList := by
      rw [List.mem_cons]
      rintro (same | inside)
      · exact absurd same (by decide)
      · exact here inside
    rw [following, List.flatMap_cons, List.cons_append, Text.pieces_append (decide_eq_true rfl),
      Text.pieces_of_not_mem whole, ← following, ih next later]
    rfl

theorem nextItem?_item (plain : relative.Plain) :
    nextItem? (' ' :: relative.item.toList) = some (relative.name, relative.binding) := by
  have blank_first : Text.pieces (· = ' ') (' ' :: relative.item.toList) =
      [] :: Text.pieces (· = ' ') relative.item.toList :=
    Text.pieces_append (decide_eq_true rfl) [] relative.item.toList
  rw [nextItem?, blank_first]
  exact item?_item plain

theorem mapM_nextItem? {group : List RelativeImport} (plain : ∀ other ∈ group, other.Plain) :
    ((group.map RelativeImport.item).map fun text => ' ' :: text.toList).mapM nextItem? =
      some (group.map fun other => (other.name, other.binding)) := by
  induction group with
  | nil => rfl
  | cons relative rest ih =>
    obtain ⟨here, later⟩ := List.forall_mem_cons.mp plain
    rw [List.map_cons, List.map_cons, List.mapM_cons, nextItem?_item here, ih later]
    rfl

/-- A line for imports that share a clause. -/
def lineOf (clause : String) (names : List String) : String :=
  "from " ++ clause ++ " import " ++ ", ".intercalate names

/-- Where an import leads in a module of `package`. -/
def target (package : ModulePath) (relative : RelativeImport) : ModulePath :=
  (reached? package relative.fromClause.toList).getD [] ++ [relative.name]

/-- A line is read back as the imports it was made of. -/
theorem readLine?_lineOf {package : ModulePath} {clause : String} {group : List RelativeImport}
    (nonempty : group ≠ []) (plain : ∀ relative ∈ group, relative.Plain)
    (shared : ∀ relative ∈ group, relative.fromClause = clause)
    (reaches : (reached? package clause.toList).isSome = true)
    (clause_whole : ' ' ∉ clause.toList) (clause_plain : ',' ∉ clause.toList) :
    readLine? package (lineOf clause (group.map RelativeImport.item)) =
      some (group.map fun relative => (target package relative, relative.binding)) := by
  obtain ⟨first, rest, rfl⟩ := List.exists_cons_of_ne_nil nonempty
  obtain ⟨first_plain, rest_plain⟩ := List.forall_mem_cons.mp plain
  obtain ⟨above, found⟩ := Option.isSome_iff_exists.mp reaches
  have targets : ∀ relative ∈ first :: rest,
      target package relative = above ++ [relative.name] := by
    intro relative listed
    rw [target, shared relative listed, found, Option.getD_some]
  have text_eq : (lineOf clause ((first :: rest).map RelativeImport.item)).toList =
      ("from".toList ++ ' ' :: (clause.toList ++ ' ' :: ("import".toList ++
        ' ' :: first.item.toList))) ++ following (rest.map RelativeImport.item) := by
    rw [lineOf, List.map_cons, String.toList_append, String.toList_append, String.toList_append,
      intercalate_toList]
    simp
  have head_plain : ',' ∉ "from".toList ++ ' ' :: (clause.toList ++ ' ' :: ("import".toList ++
      ' ' :: first.item.toList)) := by
    have item_plain := no_comma_item first_plain
    simp [clause_plain, item_plain]
  have head_pieces : Text.pieces (· = ' ') ("from".toList ++ ' ' :: (clause.toList ++
      ' ' :: ("import".toList ++ ' ' :: first.item.toList))) =
      "from".toList :: clause.toList :: "import".toList ::
        Text.pieces (· = ' ') first.item.toList := by
    rw [Text.pieces_append (decide_eq_true rfl), Text.pieces_append (decide_eq_true rfl),
      Text.pieces_append (decide_eq_true rfl), Text.pieces_of_not_mem clause_whole,
      Text.pieces_of_not_mem (by decide), Text.pieces_of_not_mem (by decide)]
    rfl
  have others_plain : ∀ text ∈ rest.map RelativeImport.item, ',' ∉ text.toList := by
    intro text listed
    obtain ⟨relative, present, rfl⟩ := List.mem_map.mp listed
    exact no_comma_item (rest_plain relative present)
  rw [readLine?, text_eq, pieces_following head_plain others_plain]
  dsimp only
  rw [head_pieces]
  dsimp only
  rw [if_pos ⟨rfl, rfl⟩, found, item?_item first_plain, mapM_nextItem? rest_plain]
  have same_targets : (first :: rest).map (fun relative => (target package relative,
      relative.binding)) =
      ((first.name, first.binding) :: rest.map fun other => (other.name, other.binding)).map
        fun (name, binding) => (above ++ [name], binding) := by
    rw [← List.map_cons (f := fun other : RelativeImport => (other.name, other.binding)),
      List.map_map]
    exact List.map_congr_left fun relative listed => by rw [targets relative listed]; rfl
  rw [same_targets]
  rfl

/-- A line under construction, and the imports that it is made of. -/
structure Holds (line : String × List String × Bool) (group : List RelativeImport) : Prop where
  nonempty : group ≠ []
  shared : ∀ relative ∈ group, relative.fromClause = line.1
  listed : line.2.1 = group.map RelativeImport.item

/-- One more import comes last: in the last line, or in a line of its own. -/
theorem addLine_holds {lines : List (String × List String × Bool)}
    {groups : List (List RelativeImport)} (holds : List.Forall₂ Holds lines groups)
    (relative : RelativeImport) :
    ∃ after, List.Forall₂ Holds (addLine lines relative) after ∧
      after.reverse.flatten = groups.reverse.flatten ++ [relative] := by
  have own_line (names : List String) (open_ended : Bool) (same : names = [relative.item]) :
      Holds (relative.fromClause, names, open_ended) [relative] :=
    ⟨List.cons_ne_nil _ _, by simp, same⟩
  have new_line :
      ([relative] :: groups).reverse.flatten = groups.reverse.flatten ++ [relative] := by
    simp
  cases found : relative.boundAs with
  | some name =>
    refine ⟨[relative] :: groups, ?_, new_line⟩
    simp only [addLine, found]
    exact .cons (own_line _ _ (by simp [RelativeImport.item, found])) holds
  | none =>
    have plain_name : [relative.name] = [relative.item] := by simp [RelativeImport.item, found]
    simp only [addLine, found]
    cases holds with
    | nil => exact ⟨[[relative]], .cons (own_line _ _ plain_name) .nil, rfl⟩
    | @cons line group lines groups here others =>
      obtain ⟨clause, names, open_ended⟩ := line
      obtain ⟨nonempty, shared, listed⟩ := here
      cases open_ended with
      | false =>
        exact ⟨[relative] :: group :: groups,
          .cons (own_line _ _ plain_name) (.cons ⟨nonempty, shared, listed⟩ others), new_line⟩
      | true =>
        dsimp only
        split
        next same =>
          refine ⟨(group ++ [relative]) :: groups, .cons ⟨by simp, ?_, ?_⟩ others, by simp⟩
          · intro other present
            rcases List.mem_append.mp present with before | last
            · exact shared other before
            · rw [List.mem_singleton.mp last]
              exact same.symm
          · dsimp only at listed ⊢
            rw [List.map_append, listed, plain_name]
            rfl
        next =>
          exact ⟨[relative] :: group :: groups,
            .cons (own_line _ _ plain_name) (.cons ⟨nonempty, shared, listed⟩ others), new_line⟩

theorem foldl_addLine_holds {lines : List (String × List String × Bool)}
    {groups : List (List RelativeImport)} (holds : List.Forall₂ Holds lines groups)
    (imports : List RelativeImport) :
    ∃ after, List.Forall₂ Holds (imports.foldl addLine lines) after ∧
      after.reverse.flatten = groups.reverse.flatten ++ imports := by
  induction imports generalizing lines groups with
  | nil => exact ⟨groups, holds, (List.append_nil _).symm⟩
  | cons relative rest ih =>
    obtain ⟨between, holds_between, same_between⟩ := addLine_holds holds relative
    obtain ⟨after, holds_after, same_after⟩ := ih holds_between
    refine ⟨after, holds_after, ?_⟩
    rw [same_after, same_between, List.append_assoc]
    rfl

/-- Dots, and then something that starts with no dot. -/
theorem split_dots (count : Nat) {below : List Char} (no_dot : ∀ c ∈ below.head?, c ≠ '.') :
    (List.replicate count '.' ++ below).takeWhile (· = '.') = List.replicate count '.' ∧
      (List.replicate count '.' ++ below).dropWhile (· = '.') = below := by
  induction count with
  | zero =>
    cases below with
    | nil => exact ⟨rfl, rfl⟩
    | cons c rest =>
      have other : c ≠ '.' := no_dot c rfl
      simp [other]
  | succ count ih => simpa [List.replicate_succ] using ih

theorem shared_spec (first second : List String) :
    RelativeImport.shared first second ≤ first.length ∧
      first.take (RelativeImport.shared first second) =
        second.take (RelativeImport.shared first second) := by
  induction first generalizing second with
  | nil => simp [RelativeImport.shared]
  | cons a as ih =>
    cases second with
    | nil => simp [RelativeImport.shared]
    | cons b bs =>
      rw [RelativeImport.shared]
      split
      next same =>
        obtain ⟨bound, agree⟩ := ih bs
        refine ⟨by simpa using bound, ?_⟩
        rw [List.take_succ_cons, List.take_succ_cons, agree, same]
      next => simp

/-- Packages below are joined by dots, and found again. -/
theorem below_intercalate {names : List String}
    (proper : ∀ name ∈ names, name ≠ "" ∧ '.' ∉ name.toList) :
    (∀ c ∈ (".".intercalate names).toList.head?, c ≠ '.') ∧
      (if (".".intercalate names).toList.isEmpty then []
        else (Text.pieces (· = '.') (".".intercalate names).toList).map String.ofList) = names := by
  cases names with
  | nil => exact ⟨by simp, by simp⟩
  | cons name rest =>
    have split : Text.pieces (· = '.') (".".intercalate (name :: rest)).toList =
        (name :: rest).map String.toList :=
      Text.pieces_intercalate (List.cons_ne_nil _ _) fun other listed => (proper other listed).2
    obtain ⟨nonempty, no_dot⟩ := proper name List.mem_cons_self
    obtain ⟨more, text_eq⟩ : ∃ more,
        (".".intercalate (name :: rest)).toList = name.toList ++ more := by
      cases rest with
      | nil => exact ⟨[], by rw [String.intercalate_singleton, List.append_nil]⟩
      | cons next rest =>
        rw [String.intercalate_cons_cons, String.toList_append, String.toList_append,
          List.append_assoc]
        exact ⟨_, rfl⟩
    obtain ⟨c, others, name_eq⟩ : ∃ c others, name.toList = c :: others :=
      List.exists_cons_of_ne_nil (String.toList_eq_nil_iff.not.mpr nonempty)
    have first : (".".intercalate (name :: rest)).toList = c :: (others ++ more) := by
      rw [text_eq, name_eq]
      rfl
    refine ⟨?_, ?_⟩
    · rw [first]
      rintro d found rfl
      obtain rfl := Option.some.inj found
      exact no_dot (name_eq ▸ List.mem_cons_self)
    · have some_text : (".".intercalate (name :: rest)).toList.isEmpty = false := by
        rw [first]
        rfl
      rw [some_text, if_neg Bool.false_ne_true, split, List.map_map]
      exact List.map_id'' (fun other => String.ofList_toList) (name :: rest)

theorem mem_intercalate_dots {names : List String} {c : Char}
    (inside : c ∈ (".".intercalate names).toList) : c = '.' ∨ ∃ name ∈ names, c ∈ name.toList := by
  induction names with
  | nil => simp at inside
  | cons name rest ih =>
    cases rest with
    | nil =>
      rw [String.intercalate_singleton] at inside
      exact .inr ⟨name, List.mem_cons_self, inside⟩
    | cons next rest =>
      rw [String.intercalate_cons_cons, String.toList_append, String.toList_append,
        List.mem_append, List.mem_append] at inside
      rcases inside with (here | dot) | later
      · exact .inr ⟨name, List.mem_cons_self, here⟩
      · exact .inl (List.mem_singleton.mp dot)
      · exact (ih later).imp_right fun ⟨other, listed, inside⟩ =>
          ⟨other, List.mem_cons_of_mem _ listed, inside⟩

/-- The clause of a relative import leads to the package it was made for. -/
theorem reached?_between (current target : ModulePath) :
    reached? (modulePath current).dropLast
      (RelativeImport.between current target).fromClause.toList =
        some (modulePath target).dropLast := by
  obtain ⟨bound, agree⟩ := shared_spec (modulePath current).dropLast (modulePath target).dropLast
  have proper : ∀ name ∈ (modulePath target).dropLast.drop (RelativeImport.shared
      (modulePath current).dropLast (modulePath target).dropLast),
      name ≠ "" ∧ '.' ∉ name.toList := by
    intro name listed
    have in_target := List.mem_of_mem_dropLast (List.mem_of_mem_drop listed)
    obtain ⟨segment, -, rfl⟩ := List.mem_map.mp in_target
    exact ⟨moduleSegment_ne_empty segment,
      (isWord_moduleSegment segment).not_mem (by decide) (by decide)⟩
  unfold RelativeImport.fromClause RelativeImport.between
  dsimp only
  generalize RelativeImport.shared (modulePath current).dropLast
    (modulePath target).dropLast = common at bound agree proper
  obtain ⟨no_dot, names_eq⟩ := below_intercalate proper
  obtain ⟨climbing, descending⟩ :=
    split_dots ((modulePath current).dropLast.length - common + 1) no_dot
  rw [reached?, String.toList_append, String.toList_ofList, climbing, descending, names_eq,
    List.length_replicate, if_pos (by omega)]
  have kept : (modulePath current).dropLast.length + 1 -
      ((modulePath current).dropLast.length - common + 1) = common := by omega
  rw [kept, agree, List.take_append_drop]

/-- There is nothing but dots and words in a clause. -/
theorem mem_fromClause_between {current target : ModulePath} {c : Char}
    (inside : c ∈ (RelativeImport.between current target).fromClause.toList) :
    c = '.' ∨ c = '_' ∨ Text.isAlphanumeric c = true := by
  unfold RelativeImport.fromClause RelativeImport.between at inside
  dsimp only at inside
  rw [String.toList_append, String.toList_ofList, List.mem_append] at inside
  rcases inside with inside | inside
  · exact .inl (List.eq_of_mem_replicate inside)
  · obtain same | ⟨name, listed, inside⟩ := mem_intercalate_dots inside
    · exact .inl same
    · have in_target := List.mem_of_mem_dropLast (List.mem_of_mem_drop listed)
      obtain ⟨segment, -, rfl⟩ := List.mem_map.mp in_target
      exact .inr (isWord_moduleSegment segment c inside)

/-- An import of the module at `path` in the module at `current`, under whatever name. -/
structure Leads (current : ModulePath) (path : ModulePath) (relative : RelativeImport) : Prop where
  nonempty : path ≠ []
  plain : relative.Plain
  clause : relative.fromClause = (RelativeImport.between current path).fromClause
  name : relative.name = (RelativeImport.between current path).name

namespace Leads

variable {current path : ModulePath}

theorem target_eq (leads : Leads current path relative) :
    target (modulePath current).dropLast relative = modulePath path := by
  have path_nonempty : modulePath path ≠ [] := by
    rw [modulePath, Ne, List.map_eq_nil_iff]
    exact leads.nonempty
  have last :
      (RelativeImport.between current path).name = (modulePath path).getLast path_nonempty := by
    change (modulePath path).getLast?.getD "" = _
    rw [List.getLast?_eq_some_getLast path_nonempty, Option.getD_some]
  rw [target, leads.clause, reached?_between, Option.getD_some, leads.name, last,
    List.dropLast_append_getLast]

theorem isSome_reached? (leads : Leads current path relative) :
    (reached? (modulePath current).dropLast relative.fromClause.toList).isSome = true := by
  rw [leads.clause, reached?_between]
  rfl

theorem not_mem_clause (leads : Leads current path relative) {c : Char} (no_dot : c ≠ '.')
    (not_underscore : c ≠ '_') (not_alphanumeric : Text.isAlphanumeric c = false) :
    c ∉ relative.fromClause.toList := by
  intro inside
  rw [leads.clause] at inside
  obtain same | same | alphanumeric := mem_fromClause_between inside
  · exact no_dot same
  · exact not_underscore same
  · rw [not_alphanumeric] at alphanumeric
    cases alphanumeric

end Leads

theorem mapM_readLine? {current : ModulePath} {lines : List (String × List String × Bool)}
    {groups : List (List RelativeImport)} (holds : List.Forall₂ Holds lines groups)
    (leads : ∀ group ∈ groups, ∀ relative ∈ group, ∃ path, Leads current path relative) :
    (lines.map fun line => lineOf line.1 line.2.1).mapM (readLine? (modulePath current).dropLast) =
      some (groups.map fun group => group.map fun relative =>
        (target (modulePath current).dropLast relative, relative.binding)) := by
  induction holds with
  | nil => rfl
  | @cons line group lines groups here others ih =>
    obtain ⟨group_leads, groups_lead⟩ := List.forall_mem_cons.mp leads
    obtain ⟨first, rest, group_eq⟩ := List.exists_cons_of_ne_nil here.nonempty
    have first_listed : first ∈ group := group_eq ▸ List.mem_cons_self
    obtain ⟨path, first_leads⟩ := group_leads first first_listed
    have plain : ∀ relative ∈ group, relative.Plain := by
      intro relative listed
      obtain ⟨path, relative_leads⟩ := group_leads relative listed
      exact relative_leads.plain
    have clause_eq := here.shared first first_listed
    have reaches := first_leads.isSome_reached?
    have no_blank : ' ' ∉ first.fromClause.toList :=
      first_leads.not_mem_clause (by decide) (by decide) (by decide)
    have no_comma : ',' ∉ first.fromClause.toList :=
      first_leads.not_mem_clause (by decide) (by decide) (by decide)
    rw [clause_eq] at reaches no_blank no_comma
    have read := readLine?_lineOf here.nonempty plain here.shared reaches no_blank no_comma
    rw [← here.listed] at read
    rw [List.map_cons, List.mapM_cons, read, ih groups_lead]
    rfl

/-- Every import stands in one of the lines, in a group with one clause. -/
theorem exists_groups (imports : Imports) :
    ∃ lines groups, imports.lines = lines.map (fun line => lineOf line.1 line.2.1) ∧
      List.Forall₂ Holds lines groups ∧ groups.flatten.Perm (imports.map Prod.snd) := by
  obtain ⟨sorted, sorted_eq⟩ : ∃ sorted, sorted = ((imports.mergeSort fun a b =>
    ModulePath.le a.1 b.1).map Prod.snd).mergeSort RelativeImport.lineLe := ⟨_, rfl⟩
  have sorted_perm : sorted.Perm (imports.map Prod.snd) := by
    rw [sorted_eq]
    exact (List.mergeSort_perm _ _).trans ((List.mergeSort_perm imports _).map Prod.snd)
  obtain ⟨groups, holds, all⟩ := foldl_addLine_holds .nil sorted
  rw [List.reverse_nil, List.flatten_nil, List.nil_append] at all
  refine ⟨(sorted.foldl addLine []).reverse, groups.reverse, ?_,
    List.forall₂_reverse_iff.mpr holds, all ▸ sorted_perm⟩
  rw [sorted_eq]
  rfl

/-- The import lines of a module name each module that is imported once, with its binding. -/
theorem lines_read {current : ModulePath} {imports : Imports}
    (leads : ∀ entry ∈ imports, Leads current entry.1 entry.2) :
    ∃ items, imports.lines.mapM (readLine? (modulePath current).dropLast) = some items ∧
      items.flatten.Perm (imports.map fun entry => (modulePath entry.1, entry.2.binding)) := by
  obtain ⟨lines, groups, lines_eq, holds, all⟩ := exists_groups imports
  have groups_lead : ∀ group ∈ groups, ∀ relative ∈ group, ∃ path, Leads current path relative := by
    intro group listed relative present
    have in_imports := all.mem_iff.mp (List.mem_flatten.mpr ⟨group, listed, present⟩)
    obtain ⟨entry, imported, rfl⟩ := List.mem_map.mp in_imports
    exact ⟨entry.1, leads entry imported⟩
  refine ⟨_, lines_eq ▸ mapM_readLine? holds groups_lead, ?_⟩
  have targets : imports.map (fun entry => (modulePath entry.1, entry.2.binding)) =
      (imports.map Prod.snd).map fun relative =>
        (target (modulePath current).dropLast relative, relative.binding) := by
    rw [List.map_map]
    exact List.map_congr_left fun entry imported => by
      rw [Function.comp_apply, (leads entry imported).target_eq]
  rw [← List.map_flatten, targets]
  exact all.map _

end Imports

end ResourceModels.Code

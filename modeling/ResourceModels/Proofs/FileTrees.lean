import Mathlib
import ResourceModels.Files.FileSystem
import ResourceModels.Proofs.Entries

/-!
# Trees of files

Putting a node somewhere changes what stands there and below, and nothing else; putting back what
stands there changes nothing at all, the order of the entries included. The files that a tree
lists are the files that its places lead to, each listed once, if no directory gives a name twice.
-/

namespace ResourceModels

namespace FileNode

@[induction_eliminator]
theorem tree_induction {P : FileNode → Prop} (file : ∀ content, P (.file content))
    (directory : ∀ entries : List (String × FileNode), (∀ entry ∈ entries, P entry.2) →
      P (.directory entries)) (node : FileNode) : P node := by
  refine @FileNode.rec P (fun entries => ∀ entry ∈ entries, P entry.2) (fun entry => P entry.2)
    file directory ?_ ?_ (fun _ _ holds => holds) node
  · exact fun _ absent => absurd absent List.not_mem_nil
  · intro head tail head_holds tail_holds entry present
    rcases List.mem_cons.mp present with rfl | present
    · exact head_holds
    · exact tail_holds entry present

/-- The content of a node that is a file. -/
def content? : FileNode → Option Content
  | .file content => some content
  | .directory _ => none

theorem find?_append (node : FileNode) (first second : List String) :
    node.find? (first ++ second) = (node.find? first).bind (·.find? second) := by
  induction first generalizing node with
  | nil => rfl
  | cons name names ih =>
    rw [List.cons_append, find?, find?, Option.bind_assoc]
    congr 1
    funext below
    exact ih below

theorem find?_file_cons (content : Content) (name : String) (names : List String) :
    find? (.file content) (name :: names) = none := rfl

theorem find?_directory_cons (entries : List (String × FileNode)) (name : String)
    (names : List String) : find? (.directory entries) (name :: names) =
      (Entries.get? entries name).bind (·.find? names) := rfl

/-- What stands above something is a directory. -/
theorem isDirectory_of_find?_append {node found : FileNode} {first second : List String}
    (nonempty : second ≠ []) (present : node.find? (first ++ second) = some found) :
    (node.find? first).any isDirectory = true := by
  rw [find?_append] at present
  obtain ⟨above, here, below⟩ := Option.bind_eq_some_iff.mp present
  rw [here]
  cases second with
  | nil => exact absurd rfl nonempty
  | cons name names =>
    cases above with
    | file content => cases below
    | directory entries => rfl

/-- Nothing changes at a place that is neither above nor below. -/
theorem find?_put_of_apart {place other : List String} (not_below : ¬ place <+: other)
    (not_above : ¬ other <+: place) (node new : FileNode) :
    (node.put new place).find? other = node.find? other := by
  induction place generalizing other node with
  | nil => exact absurd List.nil_prefix not_below
  | cons name names ih =>
    cases other with
    | nil => exact absurd List.nil_prefix not_above
    | cons name' names' =>
      cases node with
      | file content => rfl
      | directory entries =>
        rw [put]
        split
        next below found =>
          rw [find?_directory_cons, find?_directory_cons, Entries.get?_insert]
          by_cases same : name = name'
          · subst same
            rw [List.cons_prefix_cons] at not_below not_above
            rw [if_pos rfl, found]
            exact ih (fun shorter => not_below ⟨rfl, shorter⟩)
              (fun shorter => not_above ⟨rfl, shorter⟩) below
          · rw [if_neg same]
        next missing =>
          split
          next last =>
            subst last
            have different : name ≠ name' := by
              rintro rfl
              exact not_below (List.cons_prefix_cons.mpr ⟨rfl, List.nil_prefix⟩)
            rw [find?_directory_cons, find?_directory_cons, Entries.get?_insert, if_neg different]
          next => rfl

/-- Above the place, the same node is there with the rest of the change inside. -/
theorem find?_put_above {rest : List String} (nonempty : rest ≠ []) (start : List String)
    (node new : FileNode) :
    (node.put new (start ++ rest)).find? start = (node.find? start).map (·.put new rest) := by
  induction start generalizing node with
  | nil => rfl
  | cons name names ih =>
    cases node with
    | file content => rfl
    | directory entries =>
      rw [List.cons_append, put]
      split
      next below found =>
        rw [find?_directory_cons, find?_directory_cons, Entries.get?_insert, if_pos rfl, found]
        exact ih below
      next missing =>
        have longer : names ++ rest ≠ [] := by simp [nonempty]
        rw [if_neg longer, find?_directory_cons, missing]
        rfl

/-- What has been put is found, if the directory for it is there. -/
theorem find?_put_self {parent : List String} {node : FileNode}
    (ready : (node.find? parent).any isDirectory = true) (new : FileNode) (name : String) :
    (node.put new (parent ++ [name])).find? (parent ++ [name]) = some new := by
  rw [find?_append, find?_put_above (List.cons_ne_nil _ _)]
  cases found : node.find? parent with
  | none =>
    rw [found] at ready
    cases ready
  | some above =>
    cases above with
    | file content =>
      rw [found] at ready
      cases ready
    | directory entries =>
      change (put (.directory entries) new [name]).find? [name] = some new
      rw [put]
      split
      next below present => simp [find?, entry?, Entries.get?_insert, put]
      next missing => simp [find?, entry?, Entries.get?_insert]

/-- Putting back what is there changes nothing. -/
theorem put_eq_self {place : List String} {node old : FileNode}
    (found : node.find? place = some old) : node.put old place = node := by
  induction place generalizing node with
  | nil => exact (Option.some.inj found).symm
  | cons name names ih =>
    cases node with
    | file content => rfl
    | directory entries =>
      rw [find?_directory_cons] at found
      obtain ⟨below, here, found⟩ := Option.bind_eq_some_iff.mp found
      rw [put, here]
      dsimp only
      rw [ih found, Entries.insert_eq_self here]

theorem put_put {place : List String} {node : FileNode} (known : (node.find? place).isSome)
    (first second : FileNode) :
    (node.put first place).put second place = node.put second place := by
  induction place generalizing node with
  | nil => rfl
  | cons name names ih =>
    cases node with
    | file content => rfl
    | directory entries =>
      obtain ⟨old, found⟩ := Option.isSome_iff_exists.mp known
      rw [find?_directory_cons] at found
      obtain ⟨below, here, found⟩ := Option.bind_eq_some_iff.mp found
      have again : (put (.directory entries) first (name :: names)) =
          .directory (Entries.insert entries name (below.put first names)) := by
        rw [put, here]
      rw [again, put, put, here, Entries.get?_insert, if_pos rfl]
      dsimp only
      rw [ih (Option.isSome_iff_exists.mpr ⟨old, found⟩), Entries.insert_insert]

/-- At two places that are there, neither above the other, the order does not matter. -/
theorem put_comm {place other : List String} (not_below : ¬ place <+: other)
    (not_above : ¬ other <+: place) {node : FileNode} (known : (node.find? place).isSome)
    (other_known : (node.find? other).isSome) (first second : FileNode) :
    (node.put first place).put second other = (node.put second other).put first place := by
  induction place generalizing other node with
  | nil => exact absurd List.nil_prefix not_below
  | cons name names ih =>
    cases other with
    | nil => exact absurd List.nil_prefix not_above
    | cons name' names' =>
      cases node with
      | file content => rfl
      | directory entries =>
        obtain ⟨old, found⟩ := Option.isSome_iff_exists.mp known
        obtain ⟨old', found'⟩ := Option.isSome_iff_exists.mp other_known
        rw [find?_directory_cons] at found found'
        obtain ⟨below, here, found⟩ := Option.bind_eq_some_iff.mp found
        obtain ⟨below', here', found'⟩ := Option.bind_eq_some_iff.mp found'
        have put_first : put (.directory entries) first (name :: names) =
            .directory (Entries.insert entries name (below.put first names)) := by
          rw [put, here]
        have put_second : put (.directory entries) second (name' :: names') =
            .directory (Entries.insert entries name' (below'.put second names')) := by
          rw [put, here']
        rw [put_first, put_second, put, put, Entries.get?_insert, Entries.get?_insert]
        by_cases same : name = name'
        · subst same
          obtain rfl : below = below' := Option.some.inj (here.symm.trans here')
          rw [List.cons_prefix_cons] at not_below not_above
          rw [if_pos rfl, if_pos rfl]
          dsimp only
          rw [Entries.insert_insert, Entries.insert_insert,
            ih (fun shorter => not_below ⟨rfl, shorter⟩) (fun shorter => not_above ⟨rfl, shorter⟩)
              (Option.isSome_iff_exists.mpr ⟨old, found⟩)
              (Option.isSome_iff_exists.mpr ⟨old', found'⟩)]
        · rw [if_neg same, if_neg (Ne.symm same), here, here']
          dsimp only
          rw [Entries.insert_comm same (Option.isSome_iff_exists.mpr ⟨below, here⟩)
            (Option.isSome_iff_exists.mpr ⟨below', here'⟩)]

/-- Put files one after another. -/
def putFiles (node : FileNode) (writes : List (List String × Content)) : FileNode :=
  writes.foldl (fun node write => node.put (.file write.2) write.1) node

/-- What is found at places once the writes are done, given what was found there before. -/
def overwrite (view : List String → Option Content) (writes : List (List String × Content)) :
    List String → Option Content :=
  writes.foldl (fun view write => Function.update view write.1 (some write.2)) view

theorem overwrite_append (view : List String → Option Content)
    (first second : List (List String × Content)) :
    overwrite view (first ++ second) = overwrite (overwrite view first) second :=
  List.foldl_append

theorem overwrite_of_not_mem {writes : List (List String × Content)} {place : List String}
    (other : place ∉ writes.map Prod.fst) (view : List String → Option Content) :
    overwrite view writes place = view place := by
  induction writes generalizing view with
  | nil => rfl
  | cons write rest ih =>
    rw [List.map_cons, List.mem_cons, not_or] at other
    change overwrite (Function.update view write.1 (some write.2)) rest place = _
    rw [ih other.2, Function.update_of_ne other.1]

theorem overwrite_isSome {writes : List (List String × Content)} {place : List String}
    (written : place ∈ writes.map Prod.fst) (view : List String → Option Content) :
    (overwrite view writes place).isSome := by
  induction writes generalizing view with
  | nil => cases written
  | cons write rest ih =>
    change (overwrite (Function.update view write.1 (some write.2)) rest place).isSome
    by_cases later : place ∈ rest.map Prod.fst
    · exact ih later _
    · obtain rfl := (List.mem_cons.mp written).resolve_right later
      rw [overwrite_of_not_mem later, Function.update_self]
      rfl

theorem find?_of_content? {node : FileNode} {place : List String} {content : Content}
    (held : (node.find? place).bind content? = some content) :
    node.find? place = some (.file content) := by
  obtain ⟨found, here, held⟩ := Option.bind_eq_some_iff.mp held
  cases found with
  | file other =>
    rw [here, ← Option.some.inj held]
  | directory entries => cases held

/-- One file does not stand above another. -/
theorem files_apart {node : FileNode} {place other : List String} {first second : Content}
    (held : node.find? place = some (.file first))
    (other_held : node.find? other = some (.file second)) (different : place ≠ other) :
    ¬ place <+: other := by
  rintro ⟨rest, rfl⟩
  have nonempty : rest ≠ [] := by
    rintro rfl
    exact different (List.append_nil place).symm
  have above := isDirectory_of_find?_append nonempty other_held
  rw [held] at above
  cases above

theorem find?_put_file {node : FileNode} {place other : List String} {first second : Content}
    (held : node.find? place = some (.file first))
    (other_held : node.find? other = some (.file second)) (content : Content) :
    (node.put (.file content) place).find? other =
      some (.file (if place = other then content else second)) := by
  by_cases same : place = other
  · subst same
    rw [if_pos rfl]
    rcases List.eq_nil_or_concat' place with rfl | ⟨parent, name, rfl⟩
    · rfl
    · exact find?_put_self (isDirectory_of_find?_append (List.cons_ne_nil _ _) held) _ _
  · rw [if_neg same, find?_put_of_apart (files_apart held other_held same)
      (files_apart other_held held (Ne.symm same)), other_held]

/-- Of two writes at one place the last counts, whatever is written in between. -/
theorem putFiles_put {writes : List (List String × Content)} {node : FileNode} {place : List String}
    (files : ∀ other ∈ place :: writes.map Prod.fst, ∃ held, node.find? other = some (.file held))
    (again : place ∈ writes.map Prod.fst) (content : Content) :
    putFiles (node.put (.file content) place) writes = putFiles node writes := by
  induction writes generalizing node with
  | nil => cases again
  | cons write rest ih =>
    obtain ⟨held, here⟩ := files place List.mem_cons_self
    obtain ⟨next_held, next_here⟩ := files write.1 (by simp)
    change putFiles ((node.put (.file content) place).put (.file write.2) write.1) rest =
      putFiles (node.put (.file write.2) write.1) rest
    by_cases same : place = write.1
    · rw [← same, put_put (by rw [here]; rfl)]
    · rw [put_comm (files_apart here next_here same) (files_apart next_here here (Ne.symm same))
        (by rw [here]; rfl) (by rw [next_here]; rfl)]
      refine ih ?_ ((List.mem_cons.mp again).resolve_left same)
      intro other listed
      have among : other ∈ place :: (write :: rest).map Prod.fst := by
        rcases List.mem_cons.mp listed with rfl | later
        · exact List.mem_cons_self
        · exact List.mem_cons_of_mem _ (List.mem_cons_of_mem _ later)
      obtain ⟨other_held, other_here⟩ := files other among
      exact ⟨_, find?_put_file next_here other_here write.2⟩

/-- Writes that have been done leave a tree as it is when they are done again. -/
theorem putFiles_eq_self {writes : List (List String × Content)} {node : FileNode}
    {view : List String → Option Content}
    (done : ∀ place, (node.find? place).bind content? = overwrite view writes place) :
    putFiles node writes = node := by
  induction writes generalizing view with
  | nil => rfl
  | cons write rest ih =>
    have files : ∀ other ∈ write.1 :: rest.map Prod.fst,
        ∃ held, node.find? other = some (.file held) := by
      intro other listed
      obtain ⟨held, same⟩ := Option.isSome_iff_exists.mp
        (@overwrite_isSome (write :: rest) other listed view)
      exact ⟨held, find?_of_content? ((done other).trans same)⟩
    have rest_done : putFiles node rest = node :=
      @ih (Function.update view write.1 (some write.2)) done
    change putFiles (node.put (.file write.2) write.1) rest = node
    by_cases again : write.1 ∈ rest.map Prod.fst
    · rw [putFiles_put files again, rest_done]
    · have settled : node.find? write.1 = some (.file write.2) := by
        refine find?_of_content? ((done write.1).trans ?_)
        change overwrite (Function.update view write.1 (some write.2)) rest write.1 = _
        rw [overwrite_of_not_mem again, Function.update_self]
      rw [put_eq_self settled, rest_done]

/-- No directory gives a name twice. -/
inductive Tidy : FileNode → Prop
  | file (content : Content) : Tidy (.file content)
  | directory (entries : List (String × FileNode)) (distinct : (Entries.keys entries).Nodup)
      (below : ∀ entry ∈ entries, Tidy entry.2) : Tidy (.directory entries)

theorem Tidy.put {node new : FileNode} (tidy : node.Tidy) (new_tidy : new.Tidy)
    (place : List String) : (node.put new place).Tidy := by
  induction place generalizing node with
  | nil => exact new_tidy
  | cons name names ih =>
    cases tidy with
    | file content => exact .file content
    | directory entries distinct below =>
      have inserted : ∀ inner : FileNode, inner.Tidy →
          (FileNode.directory (Entries.insert entries name inner)).Tidy := by
        intro inner inner_tidy
        refine .directory _ (Entries.nodup_keys_insert distinct name inner) ?_
        intro entry present
        rcases Entries.mem_insert present with rfl | old
        · exact inner_tidy
        · exact below entry old
      rw [FileNode.put]
      split
      next inner found => exact inserted _ (ih (below _ (Entries.mem_of_get? found)))
      next =>
        split
        · exact inserted new new_tidy
        · exact .directory entries distinct below

theorem Tidy.of_find? {node found : FileNode} (tidy : node.Tidy) {place : List String}
    (present : node.find? place = some found) : found.Tidy := by
  induction place generalizing node with
  | nil => exact Option.some.inj present ▸ tidy
  | cons name names ih =>
    cases tidy with
    | file content => cases present
    | directory entries distinct below =>
      rw [find?_directory_cons] at present
      obtain ⟨inner, here, present⟩ := Option.bind_eq_some_iff.mp present
      exact ih (below _ (Entries.mem_of_get? here)) present

theorem filesOfEntries_eq (entries : List (String × FileNode)) :
    filesOfEntries entries = entries.map fun entry => (entry.1, entry.2.files) := by
  induction entries with
  | nil => rfl
  | cons entry rest ih => rw [filesOfEntries, ih, List.map_cons]

/-- The listing goes through the entries in some order. -/
theorem files_perm (entries : List (String × FileNode)) :
    (files (.directory entries)).Perm (entries.flatMap fun entry =>
      entry.2.files.map fun file => (entry.1 :: file.1, file.2)) := by
  rw [files, filesOfEntries_eq]
  refine ((List.mergeSort_perm _ _).flatMap_right _).trans ?_
  rw [List.flatMap_map]

/-- What is listed is what the places lead to. -/
theorem mem_files {node : FileNode} (tidy : node.Tidy) {names : List String} {content : Content} :
    (names, content) ∈ node.files ↔ node.find? names = some (.file content) := by
  induction node generalizing names with
  | file held =>
    rw [files, List.mem_singleton, Prod.mk.injEq]
    cases names with
    | nil => simp [find?, eq_comm]
    | cons name names => simp [find?_file_cons]
  | directory entries ih =>
    cases tidy with
    | directory _ distinct below =>
      rw [(files_perm entries).mem_iff, List.mem_flatMap]
      constructor
      · rintro ⟨entry, inside, listed⟩
        obtain ⟨file, among, same⟩ := List.mem_map.mp listed
        obtain ⟨rfl, rfl⟩ := Prod.mk.inj same
        rw [find?_directory_cons, Entries.get?_of_mem distinct inside]
        exact (ih entry inside (below entry inside)).mp among
      · intro present
        cases names with
        | nil => cases present
        | cons name names =>
          rw [find?_directory_cons] at present
          obtain ⟨inner, here, present⟩ := Option.bind_eq_some_iff.mp present
          have inside := Entries.mem_of_get? here
          exact ⟨_, inside, List.mem_map.mpr
            ⟨_, (ih _ inside (below _ inside)).mpr present, rfl⟩⟩

/-- No place is listed twice. -/
theorem nodup_files {node : FileNode} (tidy : node.Tidy) : (node.files.map Prod.fst).Nodup := by
  induction node with
  | file content => exact List.nodup_singleton _
  | directory entries ih =>
    cases tidy with
    | directory _ distinct below =>
      rw [((files_perm entries).map Prod.fst).nodup_iff, List.map_flatMap, List.nodup_flatMap]
      constructor
      · intro entry inside
        rw [List.map_map]
        have inner := ih entry inside (below entry inside)
        have longer := inner.map (List.cons_injective (a := entry.1))
        rw [List.map_map] at longer
        exact longer
      · refine (List.pairwise_map.mp distinct).imp fun {first second} different => ?_
        intro names listed listed'
        obtain ⟨file, among, rfl⟩ := List.mem_map.mp listed
        obtain ⟨file', among', same⟩ := List.mem_map.mp listed'
        obtain ⟨inner, -, rfl⟩ := List.mem_map.mp among
        obtain ⟨inner', -, rfl⟩ := List.mem_map.mp among'
        exact different (List.cons.inj same).1.symm

end FileNode

end ResourceModels

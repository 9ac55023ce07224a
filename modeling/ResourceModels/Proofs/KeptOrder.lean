import Mathlib
import ResourceModels.Extraction
import ResourceModels.Proofs.Places
import ResourceModels.Proofs.UnitFiles

/-!
# Kept documents in the order of their paths

A directory is walked depth first, and only siblings are ever compared. The files come out in the
order of their whole places all the same (`pairwise_files`): two files below different siblings are
ordered as the siblings are, whatever stands below. So the order in which a directory holds its
entries cannot be seen in what is listed, and the documents kept in a directory are all its `json`
files, each once and ordered by the components of their paths (`kept_documents_ordered`).
-/

namespace ResourceModels

namespace FileNode

/-- Every entry below the node has a name that can be a file name. -/
inductive Named : FileNode → Prop
  | file (content : Content) : Named (.file content)
  | directory (entries : List (String × FileNode)) (proper : ∀ entry ∈ entries, Path.IsName entry.1)
      (below : ∀ entry ∈ entries, Named entry.2) : Named (.directory entries)

theorem Named.of_find? {node found : FileNode} (named : node.Named) {place : List String}
    (present : node.find? place = some found) : ∀ name ∈ place, Path.IsName name := by
  induction place generalizing node with
  | nil => exact List.forall_mem_nil _
  | cons name names ih =>
    cases named with
    | file content => cases present
    | directory entries proper below =>
      rw [find?_directory_cons] at present
      obtain ⟨inner, here, present⟩ := Option.bind_eq_some_iff.mp present
      have inside := Entries.mem_of_get? here
      exact List.forall_mem_cons.mpr ⟨proper _ inside, ih (below _ inside) present⟩

/-- Siblings are visited in the order of their names. -/
theorem pairwise_siblings {entries : List (String × FileNode)}
    (distinct : (Entries.keys entries).Nodup) :
    ((filesOfEntries entries).mergeSort fun a b => decide (a.1 ≤ b.1)).Pairwise
      fun a b => a.1 < b.1 := by
  have sorted : ((filesOfEntries entries).mergeSort fun a b => decide (a.1 ≤ b.1)).Pairwise
      fun a b => decide (a.1 ≤ b.1) = true := by
    apply List.pairwise_mergeSort
    · intro a b c before after
      rw [decide_eq_true_eq] at before after ⊢
      exact before.trans after
    · intro a b
      rw [Bool.or_eq_true, decide_eq_true_eq, decide_eq_true_eq]
      exact le_total a.1 b.1
  have names : (filesOfEntries entries).map Prod.fst = Entries.keys entries := by
    rw [filesOfEntries_eq, List.map_map]
    rfl
  have apart : ((filesOfEntries entries).mergeSort fun a b => decide (a.1 ≤ b.1)).Pairwise
      fun a b => a.1 ≠ b.1 := by
    rw [← List.pairwise_map, ← List.Nodup, ((List.mergeSort_perm _ _).map Prod.fst).nodup_iff,
      names]
    exact distinct
  refine (sorted.and apart).imp fun {a b} both => ?_
  exact lt_of_le_of_ne (of_decide_eq_true both.1) both.2

/-- Two places below different siblings are ordered as the siblings are, and two places below the
same sibling as they are there. -/
theorem pairwise_files {node : FileNode} (tidy : node.Tidy) :
    node.files.Pairwise fun a b => a.1 < b.1 := by
  induction node with
  | file content => exact List.pairwise_singleton _ _
  | directory entries ih =>
    cases tidy with
    | directory _ distinct below =>
      rw [files, List.pairwise_flatMap]
      constructor
      · intro sibling visited
        have listed := List.mem_mergeSort.mp visited
        rw [filesOfEntries_eq] at listed
        obtain ⟨entry, inside, rfl⟩ := List.mem_map.mp listed
        rw [List.pairwise_map]
        exact (ih entry inside (below entry inside)).imp fun {a b} before =>
          List.cons_lt_cons_iff.mpr (.inr ⟨rfl, before⟩)
      · refine (pairwise_siblings distinct).imp fun {first second} before => ?_
        intro file listed other listed'
        obtain ⟨inner, -, rfl⟩ := List.mem_map.mp listed
        obtain ⟨inner', -, rfl⟩ := List.mem_map.mp listed'
        exact List.cons_lt_cons_iff.mpr (.inl before)

/-- The listing is known from the files below the entries: it has them in the order of their
places. -/
theorem files_eq {entries : List (String × FileNode)} (tidy : (FileNode.directory entries).Tidy)
    {listed : List (List String × Content)}
    (perm : (entries.flatMap fun entry =>
      entry.2.files.map fun file => (entry.1 :: file.1, file.2)).Perm listed)
    (ordered : listed.Pairwise fun a b => a.1 < b.1) :
    (FileNode.directory entries).files = listed := by
  refine List.Perm.eq_of_pairwise ?_ (pairwise_files tidy) ordered ((files_perm entries).trans perm)
  intro a b _ _ before after
  exact absurd after before.not_gt

/-- The same tree with its entries held in another order: those of one directory, those of a
directory further down, or one such change after another. -/
inductive Reordered : FileNode → FileNode → Prop
  | here {entries others : List (String × FileNode)} (perm : entries.Perm others) :
      Reordered (.directory entries) (.directory others)
  | inside {inner other : FileNode} (before after : List (String × FileNode)) (name : String)
      (change : Reordered inner other) :
      Reordered (.directory (before ++ (name, inner) :: after))
        (.directory (before ++ (name, other) :: after))
  | trans {first second third : FileNode} (change : Reordered first second)
      (next : Reordered second third) : Reordered first third

/-- The listing does not show in which order entries are held. -/
theorem Reordered.files_eq {node other : FileNode} (reordered : Reordered node other)
    (tidy : node.Tidy) : other.Tidy ∧ other.files = node.files := by
  induction reordered with
  | @here entries others perm =>
    have tidy_others : (FileNode.directory others).Tidy := by
      cases tidy with
      | directory _ distinct below =>
        exact .directory others ((perm.map Prod.fst).nodup_iff.mp distinct)
          fun entry inside => below entry (perm.symm.subset inside)
    refine ⟨tidy_others, FileNode.files_eq tidy_others ?_ (pairwise_files tidy)⟩
    exact (perm.symm.flatMap_right _).trans (files_perm entries).symm
  | @inside inner other before after name _ ih =>
    have same_keys : Entries.keys (before ++ (name, other) :: after) =
        Entries.keys (before ++ (name, inner) :: after) := by
      rw [Entries.keys_append, Entries.keys_append, Entries.keys_cons, Entries.keys_cons]
    obtain ⟨tidy_others, same_below⟩ :
        (FileNode.directory (before ++ (name, other) :: after)).Tidy ∧
          other.files = inner.files := by
      cases tidy with
      | directory _ distinct below =>
        obtain ⟨early, here, late⟩ := List.forall_mem_append.mp below |>.imp_right
          List.forall_mem_cons.mp
        obtain ⟨tidy_other, same_below⟩ := ih here
        exact ⟨.directory _ (same_keys ▸ distinct) (List.forall_mem_append.mpr
          ⟨early, List.forall_mem_cons.mpr ⟨tidy_other, late⟩⟩), same_below⟩
    refine ⟨tidy_others, FileNode.files_eq tidy_others (.trans (.of_eq ?_) (files_perm _).symm)
      (pairwise_files tidy)⟩
    rw [List.flatMap_append, List.flatMap_append, List.flatMap_cons, List.flatMap_cons]
    dsimp only
    rw [same_below]
  | trans _ _ ih ih' =>
    obtain ⟨tidy_between, same⟩ := ih tidy
    obtain ⟨tidy_last, same'⟩ := ih' tidy_between
    exact ⟨tidy_last, same'.trans same⟩

end FileNode

/-- A stem, a dot and `json`. -/
def IsJsonName (name : String) : Prop := ∃ stem : String, stem ≠ "" ∧ name = stem ++ ".json"

namespace Path

theorem splitAtDot_eq_some {name extension : List Char} {stem : List Char}
    (split_off : splitAtDot name = (stem, some extension)) :
    stem ≠ [] ∧ name = stem ++ '.' :: extension := by
  unfold splitAtDot at split_off
  have whole : name.reverse.takeWhile (· ≠ '.') ++ name.reverse.dropWhile (· ≠ '.') =
      name.reverse := List.takeWhile_append_dropWhile
  split at split_off
  next => cases split_off
  next => cases split_off
  next c rest not_alone dropped =>
    obtain ⟨same_stem, same_extension⟩ := Prod.mk.inj split_off
    have is_dot : c = '.' := by
      have stops := List.head?_dropWhile_not (· ≠ '.') name.reverse
      rw [dropped] at stops
      simpa using stops
    subst is_dot
    rw [← same_stem, ← Option.some.inj same_extension]
    constructor
    · exact fun empty => not_alone rfl (List.reverse_eq_nil_iff.mp empty)
    · rw [dropped] at whole
      have turned := congrArg List.reverse whole
      rw [List.reverse_reverse, List.reverse_append, List.reverse_cons, List.append_assoc] at turned
      exact turned.symm

/-- The extension of a path that ends in a name is read off the name. -/
theorem extension?_push_eq_json_iff (path : Path) {name : String} (proper : IsName name) :
    (path.push name).extension? = some "json" ↔ IsJsonName name := by
  have json_chars : (".json" : String).toList = '.' :: "json".toList := by decide
  rw [extension?, name?_push path proper, Option.bind_some]
  constructor
  · intro found
    obtain ⟨extension, split_off, same⟩ := Option.map_eq_some_iff.mp found
    obtain ⟨nonempty, whole⟩ := @splitAtDot_eq_some name.toList extension
      (splitAtDot name.toList).1 (by rw [← split_off])
    refine ⟨String.ofList (splitAtDot name.toList).1, ?_, ?_⟩
    · rw [Ne, ← String.toList_eq_nil_iff, String.toList_ofList]
      exact nonempty
    · rw [← String.toList_inj, String.toList_append, String.toList_ofList, json_chars, ← same,
        String.toList_ofList]
      exact whole
  · rintro ⟨stem, nonempty, rfl⟩
    have split_off : splitAtDot (stem.toList ++ '.' :: "json".toList) =
        (stem.toList, some "json".toList) :=
      splitAtDot_append (String.toList_eq_nil_iff.not.mpr nonempty) (by decide)
    rw [String.toList_append, json_chars, split_off, Option.map_some, String.ofList_toList]

/-- Behind the root stand the home directory, where the path is relative, and the steps of the
path. -/
theorem components_absolute {home : List String} (proper : ∀ name ∈ home, IsStep name)
    (path : Path) : (absolute (ofHome home) path).components =
      "/" :: ((if path.isAbsolute then [] else home) ++ path.steps) := by
  rw [components, lead, if_pos (isAbsolute_absolute home path), steps_absolute proper]
  rfl

end Path

namespace FileSystem

/-- A file below a directory has the components of the directory, followed by the names that lead to
the file. -/
theorem components_absolute_below {fs : FileSystem} (well : fs.WellFormed) (directory : Path)
    {names : List String} (proper : ∀ name ∈ names, Path.IsName name) :
    (fs.absolute (names.foldl Path.push directory)).components =
      (fs.absolute directory).components ++ names := by
  have home_steps : ∀ name ∈ fs.home, Path.IsStep name :=
    fun name listed => (well.home_names name listed).1.toIsStep
  rw [absolute_eq, absolute_eq, Path.components_absolute home_steps,
    Path.components_absolute home_steps,
    Path.isAbsolute_foldl_push directory fun name listed => (proper name listed).whole,
    Path.steps_foldl_push directory fun name listed => (proper name listed).toIsStep,
    List.cons_append, List.append_assoc]

/-- The documents below a directory that holds a tree of files. -/
structure ListsDocuments (fs : FileSystem) (directory : Path) (tree : FileNode)
    (documents : List Path) : Prop where
  /-- They are the regular files with the extension `json`, at any depth. -/
  complete : ∀ path, path ∈ documents ↔ ∃ start last content,
    tree.find? (start ++ [last]) = some (.file content) ∧ IsJsonName last ∧
      path = fs.absolute ((start ++ [last]).foldl Path.push directory)
  /-- Their paths continue the path of the directory by the names that lead to them. -/
  located : ∀ names content, tree.find? names = some (.file content) →
    (fs.absolute (names.foldl Path.push directory)).components =
      (fs.absolute directory).components ++ names
  once : documents.Nodup
  /-- The first component in which two paths differ decides. -/
  ordered : documents.Pairwise fun first second => first.components < second.components

section

variable {fs : FileSystem} {directory : Path} {entries : List (String × FileNode)}

theorem mem_keptDocuments (tidy : (FileNode.directory entries).Tidy)
    (found : fs.find? directory = some (.directory entries))
    (named : (FileNode.directory entries).Named) {path : Path} :
    path ∈ fs.keptDocuments directory ↔ ∃ start last content,
      FileNode.find? (.directory entries) (start ++ [last]) = some (.file content) ∧
        IsJsonName last ∧ path = fs.absolute ((start ++ [last]).foldl Path.push directory) := by
  have json_iff : ∀ {start last content},
      FileNode.find? (.directory entries) (start ++ [last]) = some (.file content) →
      (((start ++ [last]).foldl Path.push directory).extension? = some "json" ↔
        IsJsonName last) := by
    intro start last content present
    rw [List.foldl_append]
    exact Path.extension?_push_eq_json_iff _
      (named.of_find? present last (List.mem_append_right _ (List.mem_singleton.mpr rfl)))
  unfold keptDocuments filesBelow
  rw [found]
  simp only [List.mem_map, List.mem_filter, decide_eq_true_eq]
  constructor
  · rintro ⟨_, ⟨⟨⟨names, content⟩, listed, rfl⟩, json⟩, rfl⟩
    have present := (FileNode.mem_files tidy).mp listed
    rcases List.eq_nil_or_concat names with rfl | ⟨start, last, whole⟩
    · cases present
    · rw [List.concat_eq_append] at whole
      subst whole
      exact ⟨start, last, content, present, (json_iff present).mp json, rfl⟩
  · rintro ⟨start, last, content, present, json, rfl⟩
    exact ⟨_, ⟨⟨_, (FileNode.mem_files tidy).mpr present, rfl⟩, (json_iff present).mpr json⟩, rfl⟩

theorem pairwise_keptDocuments (well : fs.WellFormed) (tidy : (FileNode.directory entries).Tidy)
    (found : fs.find? directory = some (.directory entries))
    (named : (FileNode.directory entries).Named) :
    (fs.keptDocuments directory).Pairwise fun first second =>
      first.components < second.components := by
  unfold keptDocuments filesBelow
  rw [found, List.pairwise_map]
  refine List.Pairwise.filter _ (List.pairwise_map.mpr ?_)
  refine (FileNode.pairwise_files tidy).imp_of_mem fun {first second} listed listed' before => ?_
  have present := (FileNode.mem_files tidy).mp listed
  have present' := (FileNode.mem_files tidy).mp listed'
  rw [components_absolute_below well directory (named.of_find? present),
    components_absolute_below well directory (named.of_find? present')]
  exact List.append_left_lt before

end

/-- An existing directory is taken as it is. All its `json` files are found, each once and in the
order of their paths, and nothing depends on the order in which directories hold their entries. -/
theorem kept_documents_ordered {fs : FileSystem} (well : fs.WellFormed) {directory : Path}
    {entries : List (String × FileNode)} (found : fs.find? directory = some (.directory entries))
    (named : (FileNode.directory entries).Named) :
    (∀ (m : Type → Type) [Monad m] (extractor : Extractor m),
      extractor.extract directory fs = pure (.ok (fs.keptDocuments directory), fs)) ∧
    fs.ListsDocuments directory (.directory entries) (fs.keptDocuments directory) ∧
    ∀ (later : FileSystem) (other : FileNode), later.home = fs.home →
      later.find? directory = some other → FileNode.Reordered (.directory entries) other →
      later.keptDocuments directory = fs.keptDocuments directory := by
  have tidy : (FileNode.directory entries).Tidy := by
    obtain ⟨place, -, here⟩ := Option.bind_eq_some_iff.mp found
    exact well.tidy.of_find? here
  have ordered := pairwise_keptDocuments well tidy found named
  refine ⟨fun m _ extractor => ?_, ?_, fun later other same_home found_later reordered => ?_⟩
  · have there : fs.isDirectory directory = true := by
      rw [isDirectory, found]
      rfl
    unfold Extractor.extract
    rw [if_pos there]
  · refine ⟨fun path => mem_keptDocuments tidy found named, ?_, ?_, ordered⟩
    · intro names content present
      exact components_absolute_below well directory (named.of_find? present)
    · refine ordered.imp fun {first second} before same => ?_
      rw [same] at before
      exact lt_irrefl _ before
  · obtain ⟨-, same_files⟩ := reordered.files_eq tidy
    unfold keptDocuments filesBelow absolute
    rw [found, found_later, same_home]
    dsimp only
    rw [same_files]

end FileSystem

namespace NestedNames

def inside : List (String × FileNode) :=
  [("k.json", .file (.text "")), ("a.json", .file (.text ""))]

def beside : List (String × FileNode) := [("z.json", .file (.text "")), (".json", .file (.text ""))]

def held : List (String × FileNode) :=
  [("b.json", .file (.text "")), ("notes.txt", .file (.text "")), ("a.json", .directory beside),
    ("a", .directory inside)]

def files : FileSystem where
  top := .directory [("work", .directory [("specs", .directory held)])]
  home := ["work"]

theorem tidy_inner : (FileNode.directory inside).Tidy ∧ (FileNode.directory beside).Tidy := by
  constructor <;> refine .directory _ (by decide) ?_ <;>
    exact List.forall_mem_cons.mpr ⟨.file _, List.forall_mem_singleton.mpr (.file _)⟩

theorem tidy_held : (FileNode.directory held).Tidy := by
  refine .directory held (by decide) ?_
  simp only [held, List.forall_mem_cons]
  exact ⟨.file _, .file _, tidy_inner.2, tidy_inner.1, List.forall_mem_nil _⟩

theorem named_held : (FileNode.directory held).Named := by
  have plain : ∀ name : String, 3 ≤ name.length → '/' ∉ name.toList → Path.IsName name :=
    fun _ => Path.isName_of_length
  have inner : (FileNode.directory inside).Named ∧ (FileNode.directory beside).Named := by
    constructor <;> refine .directory _ ?_ ?_ <;> simp only [inside, beside, List.forall_mem_cons]
    · exact ⟨plain _ (by decide) (by decide), plain _ (by decide) (by decide),
        List.forall_mem_nil _⟩
    · exact ⟨.file _, .file _, List.forall_mem_nil _⟩
    · exact ⟨plain _ (by decide) (by decide), plain _ (by decide) (by decide),
        List.forall_mem_nil _⟩
    · exact ⟨.file _, .file _, List.forall_mem_nil _⟩
  refine .directory held ?_ ?_ <;> simp only [held, List.forall_mem_cons]
  · exact ⟨plain _ (by decide) (by decide), plain _ (by decide) (by decide),
      plain _ (by decide) (by decide), ⟨⟨by decide, by decide⟩, by decide⟩, List.forall_mem_nil _⟩
  · exact ⟨.file _, .file _, inner.2, inner.1, List.forall_mem_nil _⟩

theorem wellFormed : files.WellFormed where
  home_isDirectory := rfl
  home_names := by
    intro name listed
    obtain rfl := List.mem_singleton.mp listed
    exact ⟨⟨⟨by decide, by decide⟩, by decide⟩, by decide⟩
  tidy := by
    refine .directory _ (by decide) (List.forall_mem_singleton.mpr ?_)
    exact .directory _ (by decide) (List.forall_mem_singleton.mpr tidy_held)

theorem files_held : (FileNode.directory held).files =
    [(["a", "a.json"], .text ""), (["a", "k.json"], .text ""), (["a.json", ".json"], .text ""),
      (["a.json", "z.json"], .text ""), (["b.json"], .text ""), (["notes.txt"], .text "")] := by
  have files_inside : (FileNode.directory inside).files =
      [(["a.json"], .text ""), (["k.json"], .text "")] :=
    FileNode.files_eq tidy_inner.1 (by decide) (by decide)
  have files_beside : (FileNode.directory beside).files =
      [([".json"], .text ""), (["z.json"], .text "")] :=
    FileNode.files_eq tidy_inner.2 (by decide) (by decide)
  refine FileNode.files_eq tidy_held ?_ (by decide)
  simp only [held, List.flatMap_cons, files_inside, files_beside]
  decide

/-- The directory `a` comes before `a.json`, since `a` does, although the text of its documents
comes later. -/
theorem nested_in_order : files.WellFormed ∧
    files.find? ⟨"specs"⟩ = some (.directory held) ∧ (FileNode.directory held).Named ∧
    files.ListsDocuments ⟨"specs"⟩ (.directory held) (files.keptDocuments ⟨"specs"⟩) ∧
    files.keptDocuments ⟨"specs"⟩ = [⟨"/work/specs/a/a.json"⟩, ⟨"/work/specs/a/k.json"⟩,
      ⟨"/work/specs/a.json/z.json"⟩, ⟨"/work/specs/b.json"⟩] := by
  have found : files.find? ⟨"specs"⟩ = some (.directory held) := rfl
  refine ⟨wellFormed, found, named_held,
    (FileSystem.kept_documents_ordered wellFormed found named_held).2.1, ?_⟩
  unfold FileSystem.keptDocuments FileSystem.filesBelow
  rw [found]
  dsimp only
  rw [files_held]
  decide +kernel

end NestedNames

end ResourceModels

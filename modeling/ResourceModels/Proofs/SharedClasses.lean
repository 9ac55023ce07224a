import Mathlib
import ResourceModels.Proofs.FileOrder
import ResourceModels.Proofs.PromotedParts

/-!
# Classes of several files

The classes of a model set are those of its files, one file after another: putting modules together
neither drops a declaration nor looks at its name. A file makes sure that its own classes have
different names, also those of inline types. So the names stay different in the whole set exactly
where no two files declare the same class (`unique_names_iff`). Files that do have the same stem.
-/

namespace ResourceModels

namespace Entries

variable {κ α : Type}

/-- Each value with the key that it is listed under. -/
def pairs (lists : Entries κ (List α)) : List (κ × α) :=
  lists.flatMap fun entry => entry.2.map (entry.1, ·)

theorem pairs_cons (entry : κ × List α) (rest : Entries κ (List α)) :
    pairs (entry :: rest) = entry.2.map (entry.1, ·) ++ pairs rest := List.flatMap_cons

theorem pairs_concat (lists : Entries κ (List α)) (entry : κ × List α) :
    pairs (lists ++ [entry]) = pairs lists ++ entry.2.map (entry.1, ·) := by
  rw [pairs, List.flatMap_append, List.flatMap_singleton, ← pairs]

variable [DecidableEq κ]

theorem pairs_alter_perm (lists : Entries κ (List α)) (key : κ) (values : List α) :
    (pairs (alter lists key values (· ++ values))).Perm (pairs lists ++ values.map (key, ·)) := by
  induction lists with
  | nil => simp [alter, pairs]
  | cons entry rest ih =>
    obtain ⟨k, old⟩ := entry
    by_cases here : k = key
    · subst here
      rw [alter, if_pos rfl, pairs_cons, pairs_cons, List.map_append, List.append_assoc,
        List.append_assoc]
      exact List.perm_append_comm.append_left _
    · rw [alter, if_neg here, pairs_cons, pairs_cons, List.append_assoc]
      exact ih.append_left _

/-- Gathering lists loses no value and adds none. -/
theorem pairs_gathered_perm (lists : List (κ × List α)) :
    (pairs (gathered lists)).Perm (pairs lists) := by
  induction lists using List.reverseRecOn with
  | nil => exact .refl _
  | append_singleton lists entry ih =>
    rw [gathered_concat, pairs_concat]
    exact (pairs_alter_perm _ _ _).trans (ih.append_right _)

end Entries

/-- The classes that modules declare, one for each declaration. -/
def ModelSet.classes (set : ModelSet) : List ClassRef :=
  set.flatMap fun home => home.models.map (Model.classAt home.path)

/-- In each module, the declarations have different names. -/
def ModelSet.UniqueNames (set : ModelSet) : Prop :=
  ∀ home ∈ set, (home.models.map Model.name).Nodup

namespace ModelSet

theorem classes_append (first second : ModelSet) :
    classes (first ++ second) = classes first ++ classes second := List.flatMap_append

theorem path_of_mem_classes {set : ModelSet} {declared : ClassRef}
    (listed : declared ∈ set.classes) : ∃ home ∈ set, declared.path = home.path := by
  obtain ⟨home, present, inside⟩ := List.mem_flatMap.mp listed
  obtain ⟨model, -, rfl⟩ := List.mem_map.mp inside
  exact ⟨home, present, rfl⟩

/-- Where the modules have different namespaces, names are unique in each just when no class is
declared twice. -/
theorem uniqueNames_iff {set : ModelSet} (distinct : (set.map Module.path).Nodup) :
    set.UniqueNames ↔ set.classes.Nodup := by
  have same_names : ∀ home : Module, (home.models.map (Model.classAt home.path)).Nodup ↔
      (home.models.map Model.name).Nodup := by
    intro home
    have as_names : home.models.map (Model.classAt home.path) =
        (home.models.map Model.name).map (ClassRef.mk home.path) := by
      rw [List.map_map]
      rfl
    rw [as_names]
    exact List.nodup_map_iff fun _ _ same => (ClassRef.mk.inj same).2
  rw [classes, List.nodup_flatMap]
  simp only [same_names]
  refine ⟨fun unique => ⟨unique, ?_⟩, And.left⟩
  refine (List.pairwise_map.mp distinct).imp fun different declared first second => ?_
  obtain ⟨model, -, rfl⟩ := List.mem_map.mp first
  obtain ⟨other, -, same⟩ := List.mem_map.mp second
  exact different (ClassRef.mk.inj same).1.symm

end ModelSet

namespace Derivation

open ModelSet

theorem classes_eq (modules : List Module) :
    classes modules = (Entries.pairs (byPath modules)).map fun pair => pair.2.classAt pair.1 := by
  rw [classes, Entries.pairs, byPath, List.flatMap_map, List.map_flatMap]
  simp only [List.map_map]
  rfl

theorem byPath_unite (modules : List Module) :
    byPath (unite modules) = Entries.gathered (byPath modules) := by
  rw [unite_eq, byPath, List.map_map]
  exact List.map_id _

theorem classes_unite_perm (modules : List Module) :
    (classes (unite modules)).Perm (classes modules) := by
  rw [classes_eq, classes_eq, byPath_unite]
  exact (Entries.pairs_gathered_perm _).map _

theorem nodup_unite_paths (modules : List Module) : ((unite modules).map Module.path).Nodup := by
  have as_keys : (unite modules).map Module.path = Entries.keys (byPath (unite modules)) := by
    rw [byPath, Entries.keys, List.map_map]
    rfl
  rw [as_keys, byPath_unite, Entries.keys_gathered]
  exact nodup_eraseDups _

variable {conventions : Conventions} {collapse : Bool} {fs : FileSystem} {paths : List Path}
  {path : Path} {set : ModelSet} {modules : List Module}

theorem ofFiles_of_modulesOf (found : modulesOf conventions collapse fs paths = .ok modules) :
    ∃ set, ofFiles conventions collapse fs paths = .ok set ∧
      set.classes.Perm (classes modules) := by
  unfold ofFiles
  rw [found]
  exact ⟨_, rfl, ((List.mergeSort_perm _ _).flatMap_right _).trans (classes_unite_perm modules)⟩

/-- In a model set, names are unique just when no class is declared twice. -/
theorem uniqueNames_ofFiles_iff (success : ofFiles conventions collapse fs paths = .ok set) :
    set.UniqueNames ↔ set.classes.Nodup := by
  obtain ⟨modules, -, success⟩ := bind_eq_ok success
  cases success
  exact uniqueNames_iff
    (((List.mergeSort_perm _ _).map Module.path).nodup_iff.mpr (nodup_unite_paths modules))

theorem ofFile_of_alone (success : ofFiles conventions collapse fs [path] = .ok set) :
    ∃ modules, ofFile conventions collapse fs path = .ok modules := by
  obtain ⟨modules, found, -⟩ := bind_eq_ok success
  obtain ⟨own, -, here, -, -⟩ := modulesOf_cons_eq_ok.mp found
  exact ⟨own, here⟩

/-- The classes of a file that is taken alone. -/
def classesIn (conventions : Conventions) (collapse : Bool) (fs : FileSystem) (path : Path) :
    List ClassRef :=
  match ofFiles conventions collapse fs [path] with
  | .ok set => set.classes
  | .error _ => []

theorem ofFiles_alone (found : ofFile conventions collapse fs path = .ok modules) :
    ∃ set, ofFiles conventions collapse fs [path] = .ok set ∧
      set.classes.Perm (classes modules) := by
  have alone : modulesOf conventions collapse fs [path] = .ok (modules ++ []) :=
    modulesOf_cons_eq_ok.mpr ⟨modules, [], found, rfl, rfl⟩
  rw [List.append_nil] at alone
  exact ofFiles_of_modulesOf alone

theorem classesIn_perm (found : ofFile conventions collapse fs path = .ok modules) :
    (classesIn conventions collapse fs path).Perm (classes modules) := by
  obtain ⟨set, success, same⟩ := ofFiles_alone found
  rw [classesIn, success]
  exact same

/-- All classes of a file are in the bucket of its stem. -/
theorem stem_of_mem_classesIn {declared : ClassRef}
    (listed : declared ∈ classesIn conventions collapse fs path) :
    declared.path.head? = some (path.stem?.getD "") := by
  cases success : ofFiles conventions collapse fs [path] with
  | error error =>
    rw [classesIn, success] at listed
    cases listed
  | ok set =>
    obtain ⟨own, here⟩ := ofFile_of_alone success
    obtain ⟨home, present, same⟩ := path_of_mem_classes ((classesIn_perm here).subset listed)
    rw [same]
    exact (ofFile_paths here).2 home present

/-- Files that can be taken alone can be taken together, and have the classes that each has. -/
theorem modulesOf_classes
    (each : ∀ path ∈ paths, ∃ set, ofFiles conventions collapse fs [path] = .ok set) :
    ∃ modules, modulesOf conventions collapse fs paths = .ok modules ∧
      (classes modules).Perm (paths.flatMap (classesIn conventions collapse fs)) := by
  induction paths with
  | nil => exact ⟨[], rfl, .refl _⟩
  | cons path rest ih =>
    obtain ⟨⟨set, alone⟩, each⟩ := List.forall_mem_cons.mp each
    obtain ⟨own, here⟩ := ofFile_of_alone alone
    obtain ⟨others, below, same⟩ := ih each
    refine ⟨own ++ others, modulesOf_cons_eq_ok.mpr ⟨own, others, here, below, rfl⟩, ?_⟩
    rw [classes_append, List.flatMap_cons]
    exact (classesIn_perm here).symm.append same

/-- The model set of files that can be taken alone: its classes are theirs, one file after
another. -/
theorem ofFiles_classes
    (each : ∀ path ∈ paths, ∃ set, ofFiles conventions collapse fs [path] = .ok set) :
    ∃ set, ofFiles conventions collapse fs paths = .ok set ∧
      set.classes.Perm (paths.flatMap (classesIn conventions collapse fs)) := by
  obtain ⟨modules, found, listed⟩ := modulesOf_classes each
  obtain ⟨set, success, same⟩ := ofFiles_of_modulesOf found
  exact ⟨set, success, same.trans listed⟩

/-- Files whose own classes have different names can be taken together. The names are different in
each module of the whole exactly if no two of the files declare a class in common, which only files
of one stem can do. -/
theorem unique_names_iff
    (alone : ∀ path ∈ paths, ∃ set, ofFiles conventions collapse fs [path] = .ok set ∧
      set.UniqueNames) :
    ∃ set, ofFiles conventions collapse fs paths = .ok set ∧
      (set.UniqueNames ↔ paths.Pairwise fun first second =>
        (classesIn conventions collapse fs first).Disjoint
          (classesIn conventions collapse fs second)) ∧
      ∀ first second : Path, ∀ declared ∈ classesIn conventions collapse fs first,
        declared ∈ classesIn conventions collapse fs second →
          first.stem?.getD "" = second.stem?.getD "" := by
  obtain ⟨set, success, listed⟩ :=
    ofFiles_classes fun path among => (alone path among).imp fun _ => And.left
  refine ⟨set, success, ?_, fun first second declared here there => ?_⟩
  · have own_unique : ∀ path ∈ paths, (classesIn conventions collapse fs path).Nodup := by
      intro path among
      obtain ⟨own, found, unique⟩ := alone path among
      rw [classesIn, found]
      exact (uniqueNames_ofFiles_iff found).mp unique
    rw [uniqueNames_ofFiles_iff success, listed.nodup_iff, List.nodup_flatMap]
    exact and_iff_right own_unique
  · have same := (stem_of_mem_classesIn here).symm.trans (stem_of_mem_classesIn there)
    exact Option.some.inj same

theorem alone_of_ofFile (found : ofFile conventions collapse fs path = .ok modules)
    (different : (classes modules).Nodup) :
    ∃ set, ofFiles conventions collapse fs [path] = .ok set ∧ set.UniqueNames := by
  obtain ⟨set, success, same⟩ := ofFiles_alone found
  exact ⟨set, success, (uniqueNames_ofFiles_iff success).mpr (same.nodup_iff.mpr different)⟩

namespace OneStem

/-- An object with another one inline under a property. -/
def schemas (name property : String) : List (String × Json) :=
  let inline : Json := .object [("properties", .object [("size", .object [])])]
  [(name, .object [("type", .string "object"), ("properties", .object [(property, inline)])])]

def document (name property : String) : Json :=
  .object [
    ("openapi", .string "3.0.0"),
    ("info", .object [("title", .string "Kubernetes"), ("version", .string "v1")]),
    ("components", .object [("schemas", .object (schemas name property))])]

def contents : List (String × String) := [("Foo", "spec"), ("Bar", "spec"), ("Baz", "status")]

def files : FileSystem where
  top := .directory [
    ("a", .directory [("k8s.json", .file (.text (document "Foo" "spec").pretty))]),
    ("b", .directory [("k8s.json", .file (.text (document "Bar" "spec").pretty))]),
    ("c", .directory [("k8s.json", .file (.text (document "Baz" "status").pretty))])]
  home := []

theorem written : ∀ content ∈ contents,
    Json.Token.all? ((document content.1 content.2).indented 0) =
      some (document content.1 content.2).tokens := by
  decide +kernel

theorem parsed : ∀ content ∈ contents,
    (Json.Parser.run .whole (document content.1 content.2).tokens).map Json.settled =
      some (document content.1 content.2) := by
  simp only [contents, List.forall_mem_cons]
  exact ⟨rfl, rfl, rfl, List.forall_mem_nil _⟩

theorem load_content (name property : String) {path : Path}
    (listed : (name, property) ∈ contents)
    (found : files.readText? path = some (document name property).pretty) :
    load files path = .ok ⟨⟨⟨"3.0.0", "Kubernetes", "v1"⟩, none⟩, schemas name property⟩ := by
  have version : ['3', '.'].isPrefixOf "3.0.0".toList = true := by decide
  exact load_of_written found (written (name, property) listed)
    (parsed (name, property) listed) rfl version

theorem ofFile_foo : (ofFile .kubernetes true files ⟨"/a/k8s.json"⟩).map classes =
    .ok [⟨["k8s", "models"], "Spec"⟩, ⟨["k8s", "models"], "Foo"⟩] := by
  unfold ofFile
  rw [load_content "Foo" "spec" (by decide) rfl]
  decide

theorem ofFile_bar : (ofFile .kubernetes true files ⟨"/b/k8s.json"⟩).map classes =
    .ok [⟨["k8s", "models"], "Spec"⟩, ⟨["k8s", "models"], "Bar"⟩] := by
  unfold ofFile
  rw [load_content "Bar" "spec" (by decide) rfl]
  decide

theorem ofFile_baz : (ofFile .kubernetes true files ⟨"/c/k8s.json"⟩).map classes =
    .ok [⟨["k8s", "models"], "Status"⟩, ⟨["k8s", "models"], "Baz"⟩] := by
  unfold ofFile
  rw [load_content "Baz" "status" (by decide) rfl]
  decide

theorem alone {path : Path} {declared : List ClassRef}
    (found : (ofFile .kubernetes true files path).map classes = .ok declared)
    (different : declared.Nodup) :
    (∃ set, ofFiles .kubernetes true files [path] = .ok set ∧ set.UniqueNames) ∧
      (classesIn .kubernetes true files path).Perm declared := by
  obtain ⟨modules, from_file, rfl⟩ := map_eq_ok found
  exact ⟨alone_of_ofFile from_file different, classesIn_perm from_file⟩

/-- Different properties give different classes. -/
theorem spec_and_status : (∀ path ∈ [⟨"/a/k8s.json"⟩, ⟨"/c/k8s.json"⟩],
      ∃ set, ofFiles .kubernetes true files [path] = .ok set ∧ set.UniqueNames) ∧
    ∃ set, ofFiles .kubernetes true files [⟨"/a/k8s.json"⟩, ⟨"/c/k8s.json"⟩] = .ok set ∧
      set.UniqueNames := by
  obtain ⟨foo_alone, foo⟩ := alone ofFile_foo (by decide)
  obtain ⟨baz_alone, baz⟩ := alone ofFile_baz (by decide)
  have each : ∀ path ∈ [⟨"/a/k8s.json"⟩, ⟨"/c/k8s.json"⟩],
      ∃ set, ofFiles .kubernetes true files [path] = .ok set ∧ set.UniqueNames :=
    List.forall_mem_cons.mpr ⟨foo_alone, List.forall_mem_singleton.mpr baz_alone⟩
  obtain ⟨set, success, unique_iff, -⟩ := unique_names_iff each
  refine ⟨each, set, success, unique_iff.mpr (List.pairwise_pair.mpr ?_)⟩
  intro declared in_foo in_baz
  have apart : ∀ declared ∈ [(⟨["k8s", "models"], "Spec"⟩ : ClassRef), ⟨["k8s", "models"], "Foo"⟩],
      declared ∉ [(⟨["k8s", "models"], "Status"⟩ : ClassRef), ⟨["k8s", "models"], "Baz"⟩] := by
    decide
  exact apart declared (foo.subset in_foo) (baz.subset in_baz)

/-- The same property in two files gives one class two declarations. -/
theorem spec_declared_twice : (∀ path ∈ [⟨"/a/k8s.json"⟩, ⟨"/b/k8s.json"⟩],
      ∃ set, ofFiles .kubernetes true files [path] = .ok set ∧ set.UniqueNames) ∧
    ∃ set, ofFiles .kubernetes true files [⟨"/a/k8s.json"⟩, ⟨"/b/k8s.json"⟩] = .ok set ∧
      ¬ set.UniqueNames := by
  obtain ⟨foo_alone, foo⟩ := alone ofFile_foo (by decide)
  obtain ⟨bar_alone, bar⟩ := alone ofFile_bar (by decide)
  have each : ∀ path ∈ [⟨"/a/k8s.json"⟩, ⟨"/b/k8s.json"⟩],
      ∃ set, ofFiles .kubernetes true files [path] = .ok set ∧ set.UniqueNames :=
    List.forall_mem_cons.mpr ⟨foo_alone, List.forall_mem_singleton.mpr bar_alone⟩
  obtain ⟨set, success, listed⟩ :=
    ofFiles_classes fun path among => (each path among).imp fun _ => And.left
  refine ⟨each, set, success, fun unique => ?_⟩
  have distinct := listed.nodup_iff.mp ((uniqueNames_ofFiles_iff success).mp unique)
  rw [List.flatMap_cons, List.flatMap_singleton] at distinct
  exact List.disjoint_of_nodup_append distinct (foo.symm.subset List.mem_cons_self)
    (bar.symm.subset List.mem_cons_self)

end OneStem

end Derivation

end ResourceModels

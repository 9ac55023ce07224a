import Mathlib
import ResourceModels.Proofs.Saving

/-!
# Where paths lead

A path leads where its steps lead, so a path extended by names leads further down from the place
of the path, and the absolute form of a path leads to the same place as the path itself. A file
can be read under its absolute path whenever it can be read at all.
-/

namespace ResourceModels

namespace FileSystem

theorem foldl_advance_steps (segments : List String) (place : List String) :
    (segments.filter (!Path.isIdle ·)).foldl advance place = segments.foldl advance place := by
  induction segments generalizing place with
  | nil => rfl
  | cons segment rest ih =>
    rw [List.foldl_cons]
    by_cases idle : Path.isIdle segment = true
    · rw [List.filter_cons_of_neg (by simp [idle]), ih, advance, if_pos idle]
    · rw [List.filter_cons_of_pos (by simp [idle]), List.foldl_cons, ih]

theorem destination_eq_steps (fs : FileSystem) (path : Path) :
    fs.destination path = path.steps.foldl advance (fs.start path) :=
  (foldl_advance_steps path.segments (fs.start path)).symm

theorem advance_name (place : List String) {name : String} (proper : Path.IsName name) :
    advance place name = place ++ [name] := by
  unfold advance
  rw [proper.not_idle, if_neg Bool.false_ne_true, if_neg proper.not_climbing]

theorem foldl_advance_names (place : List String) {names : List String}
    (proper : ∀ name ∈ names, Path.IsName name) : names.foldl advance place = place ++ names := by
  induction names generalizing place with
  | nil => exact (List.append_nil place).symm
  | cons name rest ih =>
    rw [List.foldl_cons, advance_name place (proper name List.mem_cons_self),
      ih _ fun other listed => proper other (List.mem_cons_of_mem _ listed), List.append_assoc]
    rfl

/-- More names lead further down. -/
theorem destination_append {fs : FileSystem} {path further : Path} {names : List String}
    (proper : ∀ name ∈ names, Path.IsName name) (same_steps : further.steps = path.steps ++ names)
    (same_start : further.isAbsolute = path.isAbsolute) :
    fs.destination further = fs.destination path ++ names := by
  have same : fs.start further = fs.start path := by
    unfold start
    rw [same_start]
  rw [destination_eq_steps, destination_eq_steps, same, same_steps, List.foldl_append,
    foldl_advance_names _ proper]

theorem destination_push (fs : FileSystem) (path : Path) {name : String}
    (proper : Path.IsName name) :
    fs.destination (path.push name) = fs.destination path ++ [name] :=
  destination_append (fun _ listed => List.mem_singleton.mp listed ▸ proper)
    (Path.steps_push path proper.toIsStep) (Path.isAbsolute_push path proper.whole)

/-- Where segments lead, their steps lead. -/
theorem follow_steps {fs : FileSystem} {place reached : List String} {segments : List String}
    (success : fs.follow place segments = some reached) :
    fs.follow place (segments.filter (!Path.isIdle ·)) = some reached := by
  induction segments generalizing place with
  | nil => exact success
  | cons segment rest ih =>
    rw [follow] at success
    split at success
    next here =>
      have below := ih success
      by_cases idle : Path.isIdle segment = true
      · rw [advance, if_pos idle] at below
        rw [List.filter_cons_of_neg (by simp [idle])]
        exact below
      · rw [List.filter_cons_of_pos (by simp [idle]), follow, if_pos here]
        exact below
    next => cases success

/-- Where steps lead, segments lead that end in a step. -/
theorem follow_of_steps {fs : FileSystem} {place reached : List String} {segments : List String}
    {last : String} (not_idle : Path.isIdle last = false)
    (success : fs.follow place ((segments ++ [last]).filter (!Path.isIdle ·)) = some reached) :
    fs.follow place (segments ++ [last]) = some reached := by
  induction segments generalizing place with
  | nil =>
    rw [List.nil_append, List.filter_cons_of_pos (by simp [not_idle])] at success
    exact success
  | cons segment rest ih =>
    rw [List.cons_append] at success ⊢
    by_cases idle : Path.isIdle segment = true
    · rw [List.filter_cons_of_neg (by simp [idle])] at success
      have below := ih success
      have here := isDirectoryAt_of_follow below (by simp)
      rw [follow, if_pos here, advance, if_pos idle]
      exact below
    · rw [List.filter_cons_of_pos (by simp [idle]), follow] at success
      rw [follow]
      split at success
      next here =>
        rw [if_pos here]
        exact ih success
      next => cases success

theorem follow_names {fs : FileSystem} {place names : List String}
    (proper : ∀ name ∈ names, Path.IsName name)
    (directory : fs.isDirectoryAt (place ++ names) = true) :
    fs.follow place names = some (place ++ names) := by
  induction names generalizing place with
  | nil => rw [List.append_nil]; rfl
  | cons name rest ih =>
    have longer : place ++ name :: rest = place ++ [name] ++ rest := by simp
    rw [follow, if_pos (isDirectoryAt_of_append directory),
      advance_name place (proper name List.mem_cons_self), longer]
    refine ih (fun other listed => proper other (List.mem_cons_of_mem _ listed)) ?_
    rw [← longer]
    exact directory

/-- A file system as systems have them: the home directory is there and no directory gives a
name twice. -/
structure WellFormed (fs : FileSystem) : Prop where
  home_isDirectory : fs.isDirectoryAt fs.home = true
  home_names : ∀ name ∈ fs.home, Path.IsName name ∧ '\x00' ∉ name.toList
  tidy : fs.top.Tidy

theorem find?_empty (home : List String) : (empty home).node? home = some (.directory []) := by
  change FileNode.find? (home.foldr (fun name node => .directory [(name, node)]) _) home = _
  induction home with
  | nil => rfl
  | cons name names ih =>
    rw [List.foldr_cons, FileNode.find?_directory_cons]
    simpa [Entries.get?] using ih

theorem tidy_empty (home : List String) : (empty home).top.Tidy := by
  change FileNode.Tidy (home.foldr (fun name node => .directory [(name, node)]) _)
  induction home with
  | nil => exact .directory [] List.nodup_nil fun entry listed => nomatch listed
  | cons name names ih =>
    refine .directory _ (List.nodup_singleton name) fun entry listed => ?_
    obtain rfl := List.mem_singleton.mp listed
    exact ih

/-- A file system starts out well formed. -/
theorem WellFormed.empty {home : List String}
    (names : ∀ name ∈ home, Path.IsName name ∧ '\x00' ∉ name.toList) :
    (empty home).WellFormed where
  home_isDirectory := by
    change ((FileSystem.empty home).node? home).any FileNode.isDirectory = true
    rw [find?_empty]
    rfl
  home_names := names
  tidy := tidy_empty home

theorem Keeps.wellFormed {before after : FileSystem} (keeps : Keeps before after)
    (well : before.WellFormed) : after.WellFormed where
  home_isDirectory := keeps.home_isDirectory well.home_isDirectory
  home_names := keeps.home ▸ well.home_names
  tidy := keeps.tidy well.tidy

theorem isUsable_iff {path : Path} :
    isUsable path = true ↔ path.text ≠ "" ∧ '\x00' ∉ path.text.toList := by
  unfold isUsable
  rw [Bool.and_eq_true, decide_eq_true_eq, List.all_eq_true]
  refine and_congr_right fun _ => ⟨fun all inside => ?_, fun absent c inside => ?_⟩
  · simpa using all _ inside
  · rw [decide_eq_true_eq]
    rintro rfl
    exact absent inside

theorem absolute_eq (fs : FileSystem) (path : Path) :
    fs.absolute path = Path.absolute (Path.ofHome fs.home) path := rfl

theorem isUsable_absolute {fs : FileSystem} (well : fs.WellFormed) {path : Path}
    (no_slash : path.endsWithSlash = false) (usable : isUsable path = true) :
    isUsable (fs.absolute path) = true := by
  have nul_free := (isUsable_iff.mp usable).2
  have absolute : (fs.absolute path).isAbsolute = true := Path.isAbsolute_absolute fs.home path
  refine isUsable_iff.mpr ⟨fun empty => ?_, fun inside => ?_⟩
  · rw [Path.isAbsolute, empty] at absolute
    cases absolute
  · rcases Path.of_mem_text_absolute no_slash inside with slash | ⟨segment, listed, here⟩ | here
    · cases slash
    · exact (well.home_names segment listed).2 here
    · exact nul_free here

/-- The absolute form of a path leads to the same place. -/
theorem place?_absolute {fs : FileSystem} (well : fs.WellFormed) {path : Path} {name : String}
    (proper : Path.IsName name) {place : List String}
    (found : fs.place? (path.push name) = some place) :
    fs.place? (fs.absolute (path.push name)) = some place := by
  have no_slash := Path.endsWithSlash_push path proper.toIsStep
  have home_steps : ∀ name ∈ fs.home, Path.IsStep name :=
    fun name listed => (well.home_names name listed).1.toIsStep
  have absolute : (fs.absolute (path.push name)).isAbsolute = true :=
    Path.isAbsolute_absolute fs.home _
  have steps_eq : (fs.absolute (path.push name)).steps =
      (if (path.push name).isAbsolute then [] else fs.home) ++ (path.push name).steps :=
    Path.steps_absolute home_steps _
  obtain ⟨usable, found⟩ := place?_eq_some_iff.mp found
  have followed := follow_steps found
  rw [FileSystem.start] at followed
  have followed_absolute : fs.follow [] (fs.absolute (path.push name)).steps = some place := by
    rw [steps_eq, follow_append]
    split at followed
    next already =>
      rw [if_pos already]
      exact followed
    next relative =>
      rw [if_neg relative, follow_names (fun name listed => (well.home_names name listed).1)
        (by simpa using well.home_isDirectory)]
      exact followed
  -- The steps leave idle segments out; they come back in because the last one is a name.
  obtain ⟨start, start_eq⟩ := @Path.absolute_push fs.home path name proper.toIsStep
  obtain ⟨before, -, -, -, segments_eq⟩ := start.segments_push proper.whole
  change fs.absolute (path.push name) = start.push name at start_eq
  refine place?_eq_some_iff.mpr ⟨isUsable_absolute well no_slash usable, ?_⟩
  rw [FileSystem.start, if_pos absolute, start_eq, segments_eq]
  refine follow_of_steps proper.not_idle ?_
  rw [← segments_eq, ← start_eq]
  exact followed_absolute

/-- Empty segments at the end of a path stay where they are. -/
theorem follow_empty {fs : FileSystem} {place segments : List String}
    (directory : fs.isDirectoryAt place = true) (empty : ∀ segment ∈ segments, segment = "") :
    fs.follow place segments = some place := by
  induction segments with
  | nil => rfl
  | cons segment rest ih =>
    rw [follow, if_pos directory, empty segment List.mem_cons_self]
    exact ih fun other listed => empty other (List.mem_cons_of_mem _ listed)

/-- A directory that holds a file can be reached without naming the file. -/
theorem place?_of_push {fs : FileSystem} {path : Path} {name : String} (proper : Path.IsName name)
    (nonempty : path.text ≠ "") {place : List String}
    (found : fs.place? (path.push name) = some place) :
    fs.place? path = some (fs.destination path) ∧
      fs.isDirectoryAt (fs.destination path) = true := by
  obtain ⟨start, trail, before, idle, after⟩ := path.segments_push proper.whole
  obtain ⟨usable, found⟩ := place?_eq_some_iff.mp found
  have usable_path : isUsable path = true := by
    refine isUsable_iff.mpr ⟨nonempty, fun inside => (isUsable_iff.mp usable).2 ?_⟩
    exact Path.mem_text_push path proper.whole (.inl inside)
  have same_start : fs.start (path.push name) = fs.start path := by
    rw [FileSystem.start, FileSystem.start, Path.isAbsolute_push path proper.whole]
  rw [same_start, after, follow_append] at found
  obtain ⟨reached, here, last⟩ := Option.bind_eq_some_iff.mp found
  have directory := isDirectoryAt_of_follow last (List.cons_ne_nil _ _)
  have followed : fs.follow (fs.start path) path.segments = some reached := by
    rw [before, follow_append, here]
    exact follow_empty directory idle
  have same_place : fs.destination path = reached := follow_eq followed
  rw [place?_eq_some_iff, same_place]
  exact ⟨⟨usable_path, followed⟩, directory⟩

theorem isDirectory_of_place? {fs : FileSystem} {path : Path}
    (found : fs.place? path = some (fs.destination path))
    (directory : fs.isDirectoryAt (fs.destination path) = true) : fs.isDirectory path = true := by
  unfold isDirectory find?
  rw [found]
  exact directory

theorem isDirectory_eq_false {fs : FileSystem} {path : Path}
    (absent : fs.node? (fs.destination path) = none) : fs.isDirectory path = false := by
  unfold isDirectory find?
  cases found : fs.place? path with
  | none => rfl
  | some place =>
    rw [Option.bind_some, ← destination_eq found, absent]
    rfl

theorem readText?_eq (fs : FileSystem) (path : Path) :
    fs.readText? path = match (fs.place? path).bind fs.fileAt with
      | some (.text text) => some text
      | _ => none := by
  unfold readText? find?
  cases fs.place? path with
  | none => rfl
  | some place =>
    rw [Option.bind_some, Option.bind_some, fileAt]
    cases fs.node? place with
    | none => rfl
    | some node =>
      cases node with
      | file content => cases content <;> rfl
      | directory entries => rfl

/-- What is read under a path is the text of the file it leads to. -/
theorem readText?_congr {fs later : FileSystem} {path : Path} {place : List String}
    (found : fs.place? path = some place) (found_later : later.place? path = some place)
    (same : later.fileAt place = fs.fileAt place) : later.readText? path = fs.readText? path := by
  rw [readText?_eq, readText?_eq, found, found_later, Option.bind_some, Option.bind_some, same]

/-- The files below a directory are the files at the places below it, each once. -/
theorem filesBelow_perm {fs : FileSystem} (tidy : fs.top.Tidy) {path : Path}
    (found : fs.place? path = some (fs.destination path))
    (directory : fs.isDirectoryAt (fs.destination path) = true) {listed : List (List String)}
    (distinct : listed.Nodup)
    (files : ∀ names, (fs.fileAt (fs.destination path ++ names)).isSome = true ↔ names ∈ listed) :
    ((fs.filesBelow path).map Prod.fst).Perm
      (listed.map fun names => names.foldl Path.push path) := by
  obtain ⟨entries, here⟩ := isDirectoryAt_iff.mp directory
  have node_tidy := tidy.of_find? here
  have same_names : ((FileNode.directory entries).files.map Prod.fst).Perm listed := by
    refine (List.perm_ext_iff_of_nodup (FileNode.nodup_files node_tidy) distinct).mpr ?_
    intro names
    rw [← files names, fileAt, node?, FileNode.find?_append]
    change _ ↔ ((Option.bind (fs.node? (fs.destination path)) _).bind _).isSome = true
    rw [here, Option.bind_some]
    constructor
    · intro among
      obtain ⟨file, inside, rfl⟩ := List.mem_map.mp among
      rw [(FileNode.mem_files node_tidy).mp inside]
      rfl
    · intro held
      obtain ⟨content, held⟩ := Option.isSome_iff_exists.mp held
      have among := (FileNode.mem_files node_tidy).mpr (FileNode.find?_of_content? held)
      exact List.mem_map.mpr ⟨(names, content), among, rfl⟩
  unfold filesBelow find?
  rw [found, Option.bind_some, here]
  dsimp only
  rw [List.map_map]
  have := same_names.map fun names => names.foldl Path.push path
  rw [List.map_map] at this
  exact this

end FileSystem

end ResourceModels
